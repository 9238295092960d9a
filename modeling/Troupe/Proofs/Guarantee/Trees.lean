import Troupe.Proofs.Flow.Walks
import Troupe.Proofs.Guarantee.Restarts
import Troupe.Proofs.Guarantee.Spawning

/-!
# Who is started with an actor

Whoever allocates an actor from a template, be it an operation, another actor or a restart, starts
it when it is there (`Flow.startTree`, the source's `start_tree`), and then the actors that were
allocated below it (`Flow.Rears`). They have their turns in the order of their addresses
(`Platform.descendants`), so each has it before those below it.

What the turns go by is addresses. The list of them is made before the first run hook is called, and
at a turn it is asked whether somebody lives at the address (`contains`), and not whether it is
still the incarnation that was allocated. So an actor that was removed before its turn is not
started, but if a run hook has put another in its place, that one is; and whoever put it there has
started it already. `Changeling.code` is an application whose actors come to that
(`Changeling.successor_started_again`).

Headline:
* **`Moment.started_in_turn`**: starting what was allocated is one turn for each address.
-/

namespace Troupe

open Platform Troupe.Flow

section

variable {κ : App} {α : Type} {code : Code κ}

/-! ## What starts whom it allocates -/

/-- What allocates from a template under an address and then starts the actors that are there
(`Stage.allocate`, `Flow.startTree`): an operation, the answer to an actor's request, and a restart,
which first removes what is left of the source. It begins on the first stage, and allocates on the
second. -/
inductive Flow.Rears (code : Code κ) :
    {α : Type} → Flow κ α → Stage κ → Address → Template κ → Stage κ → Prop
  | operation {parent : Address} {t : Template κ} {s : Stage κ} :
      Rears code (Operation.spawnUnder code parent t) s parent t s
  | request {m : Machine κ} {t : Template κ} {s : Stage κ} :
      Rears code (answer code m (.spawn t)) s m.address t s
  | restart {r : Raised κ} {t : Template κ} {s : Stage κ} :
      (s.platform.template? r.source <|> r.template) = some t →
      Rears code (restart code r) s r.source.parent t (s.terminate code r.source)

variable {f : Flow κ α} {s₀ s u : Stage κ} {parent a : Address} {t : Template κ}

/-- They come to where the actors are allocated and about to be started. On the way the bus may be
told of a restart (`EventKind.actorRestarted`). -/
theorem Flow.Rears.advances (h : Rears code f s₀ parent t s)
    (hu : s.allocate code parent t = (.ok a, u)) : ∃ bus next,
      Advances (body code) (f, s₀) ((startTree a).bind next, u.edit ({ · with bus })) := by
  have hallocated {β : Type} (k : Except PlatformError Address → Flow κ β) :
      Advances (body code) (onStage (Stage.allocate code parent t) >>= k, s) (k (.ok a), u) := by
    have hstep : Advances (body code) (onStage (Stage.allocate code parent t) >>= k, s)
        (k (s.allocate code parent t).1, (s.allocate code parent t).2) := advances_onStage _ _
    rwa [hu] at hstep
  cases h with
  | operation =>
    refine ⟨u.platform.bus, ?_⟩
    apply Exists.intro
    refine Relation.ReflTransGen.trans (hallocated _) ?_
    exact Advances.ahead .refl _
  | request =>
    refine ⟨u.platform.bus, ?_⟩
    apply Exists.intro
    refine Relation.ReflTransGen.trans ((hallocated _).bind _) ?_
    exact Advances.ahead .refl _
  | @restart r _ _ htemplate =>
    apply Exists.intro
    apply Exists.intro
    refine Relation.ReflTransGen.trans (advances_ask _ _) ?_
    dsimp only [id]
    rw [htemplate]
    refine Relation.ReflTransGen.trans (advances_modify _ _) ?_
    refine Relation.ReflTransGen.trans (hallocated _) ?_
    exact advances_modify _ _

/-! ## Whoever was allocated -/

namespace Stage

/-- **Whoever was allocated**: one actor for each node of the template, newer than all that were
there (`Context.generation`), at hand, and each to be started. -/
theorem allocated (hi : s.platform.Inv) (hu : s.allocate code parent t = (.ok a, u)) :
    u.platform.Inv ∧ u.platform.isLive a = true ∧
    (∀ b ∈ a :: u.platform.descendants a, ∀ c,
      u.platform.context? b = some c → c.isIdle = true) ∧
    ∃ sites, t.plan code parent s.world = some (sites, u.world) ∧
      List.Forall₂ Site.IsOf sites t.nodes ∧
      (a :: u.platform.descendants a).Perm (sites.map Site.address) ∧
      ∀ i (hi : i < sites.length), u.platform.generation? sites[i].address =
        some (s.platform.nextGeneration + i) := by
  have hinv : u.platform.Inv := by
    have hkeep := hi.nested (V := Event.Any) (allocate_upkeep code parent t s hi.table).nested
    rwa [hu] at hkeep
  obtain ⟨hlive, -, -, hbelow, -⟩ := living_of_allocate hi.table hi.neat hu
  obtain ⟨hplanted, -⟩ := allocate_attempt code parent t s hi.table hi.neat
  rw [hu] at hplanted
  obtain ⟨sites, hhead, -, hplan, hfree, rfl⟩ := hplanted a rfl
  obtain ⟨hpaths, -⟩ := t.plan_paths code parent _ _ sites hplan
  have hsite (b : Address) : b ∈ a :: (s.plantAll code sites).platform.descendants a ↔
      b ∈ sites.map Site.address := by
    obtain ⟨x, hx, rfl⟩ := Option.map_eq_some_iff.mp hhead
    have hroot : x.address ∈ sites.map Site.address :=
      List.mem_map_of_mem (List.mem_of_mem_head? hx)
    rw [List.mem_cons, hbelow, ← hpaths]
    by_cases hb : b = x.address
    · simp [hb, hroot]
    · simp [hb]
  have hdistinct : (a :: (s.plantAll code sites).platform.descendants a).Nodup := by
    refine (descendants_pairwise hinv.table a).imp fun {b c} hlt => ?_
    rintro rfl
    exact absurd (hlt.1.symm.trans Std.ReflCmp.compare_self) (by simp)
  refine ⟨hinv, hlive, fun b hb c hc => ?_, sites, hplan,
    Template.plan_nodes code _ _ _ _ _ hplan,
    (List.perm_ext_iff_of_nodup hdistinct hfree.apart).mpr hsite, fun i hlt => ?_⟩
  · obtain ⟨x, hx, rfl⟩ := List.mem_map.mp ((hsite b).mp hb)
    obtain ⟨_, _, hcontext⟩ := exists_context_plantAll code s hfree.apart hx
    obtain rfl := Option.some.inj (hcontext.symm.trans hc)
    rfl
  · exact congrArg (Option.map _) (context?_plantAll hfree.apart hlt)

end Stage

namespace Moment

variable {m : Moment κ}

/-- **Starting what was allocated** (`Flow.startTree`) is one turn for each address: first the new
actor, then those below it in the order of their addresses, each before all below it. There is one
for each node of the template, with the incarnation that was allocated there. On its turn, whoever
lives at the address is started, and as it is at hand its run hook is called. That is the
incarnation that was allocated, or one that was created since the first turn began; whoever was
removed is not started unless somebody else lives there by then. -/
theorem started_in_turn (h : Reach code m) (hf : Flow.Rears code f m.stage parent t s)
    (hu : s.allocate code parent t = (.ok a, u)) :
    let turns := a :: u.platform.descendants a
    turns.Pairwise (fun b c => compare b c = .lt ∧ b.isBelow c = false) ∧
    (∃ sites, t.plan code parent s.world = some (sites, u.world) ∧
      List.Forall₂ Site.IsOf sites t.nodes ∧ turns.Perm (sites.map Site.address) ∧
      ∀ i (hi : i < sites.length), u.platform.generation? sites[i].address =
        some (s.platform.nextGeneration + i)) ∧
    (∃ bus next,
      Advances (body code) (f, m.stage) ((startTree a).bind next, u.edit ({ · with bus }))) ∧
    ∀ {β : Type} (bus : Bus) (next : Except PlatformError Unit → Flow κ β) g v,
      Advances (body code) ((startTree a).bind next, u.edit ({ · with bus })) (g, v) →
        Walk code (u.edit ({ · with bus })) next turns (u.edit ({ · with bus })) g v := by
  intro turns
  have hi : s.platform.Inv := by
    cases hf with
    | operation | request => exact h.ok.inv
    | @restart r =>
      exact h.ok.inv.nested (V := Event.Any)
        (Stage.terminate_upkeep r.source h.ok.inv.table).nested
  obtain ⟨hinv, hlive, hidle, hsites⟩ := Stage.allocated hi hu
  refine ⟨descendants_pairwise hinv.table a, hsites, hf.advances hu, fun bus next g v hwalk => ?_⟩
  exact startTree_walk (w := u.edit ({ · with bus })) (hinv.dealing (.bus bus)) hlive hidle hwalk

end Moment

end

/-! ## A child that is put in another's place -/

namespace Changeling

open Replacement (parent child)

/-- An application whose children note which incarnation is started. -/
def app : App where
  Factory := Bool
  Actor := Bool
  Trap := Unit
  Foreign := Unit
  Task := Unit
  World := List (Option Nat)

/-- A child. -/
def baby : Template app :=
  .mk (some "c") false [] none [] []

/-- A parent and a child (`baby`). -/
def family : Template app :=
  .mk (some "p") true [] none [] [baby]

/-- When parents are started they remove the child and spawn another in its place (`Request.kill`,
`Request.spawn`). -/
def code : Code app where
  freshId w := ("fresh", w)
  build f _ w := (f, w)
  init _ w := (.direct, w)
  stop _ w := w
  judge _ _ w := (.ignore, w)
  hook
    | true, .run, _ => .ask (.kill child) fun _ => .ask (.spawn baby) fun _ => .done (.ok ())
    | false, .run, a => .look fun p w => .put (List.append w [p.generation? a]) (.done (.ok ()))
    | _, _, _ => .done (.ok ())
  foreign _ _ _ := .done (.ok .nil)
  poll _ w := (.ready (.ok none), w)

/-- The platform on which the `family` is spawned. -/
def sample : Stage app :=
  .new {} none [] []

theorem reach_sample : Moment.Reach code (.between sample) :=
  ⟨{}, none, [], [], .refl⟩

/-- The stage on which the `family` is there, and nobody has been started. -/
def allocated : Stage app :=
  (Stage.allocate code .root family sample).2

/-- What there is to see: who lives at the child's address, and which children were started. -/
def sight (s : Stage app) : Option Nat × List (Option Nat) :=
  (s.platform.generation? child, s.world)

theorem allocate_family : Stage.allocate code .root family sample = (.ok parent, allocated) :=
  Prod.ext rfl rfl

/-- The parent's turn, and then that of the child's address. -/
theorem exists_turns : ∃ v w : Stage app,
    performCall (body code) 20 (.start parent) allocated = some (.ok (), v) ∧
    sight v = (some 3, [some 3]) ∧
    perform (body code) 20 (startAll [child]) v = some (.ok (), w) ∧
    sight w = (some 3, [some 3, some 3]) := by
  have hseen : ((performCall (body code) 20 (.start parent) allocated).bind fun x =>
      (perform (body code) 20 (startAll [child]) x.2).map fun y => (sight x.2, sight y.2)) =
      some ((some 3, [some 3]), (some 3, [some 3, some 3])) := by decide +kernel
  obtain ⟨⟨_, v⟩, hparent, hseen⟩ := Option.bind_eq_some_iff.mp hseen
  obtain ⟨⟨_, w⟩, hchild, hseen⟩ := Option.map_eq_some_iff.mp hseen
  obtain ⟨hv, hw⟩ := Prod.mk.inj hseen
  obtain rfl := performCall_start rfl hparent
  obtain rfl := perform_startAll _ hchild
  exact ⟨v, w, hparent, hv, hchild, hw⟩

/-- **A child is started twice** that was put in another's place. The family is allocated with the
second incarnation as the child. When the parent has had its turn, the third one is there, and it
has been started. The next turn is that of the child's address (`Flow.startAll`), and it is started
again. -/
theorem successor_started_again : ∃ v w : Stage app,
    Moment.Reach code (.between sample) ∧
    Flow.Rears code (Operation.spawn code family) sample .root family sample ∧
    Stage.allocate code .root family sample = (.ok parent, allocated) ∧
    allocated.platform.descendants parent = [child] ∧
    allocated.platform.generation? child = some 2 ∧
    performCall (body code) 20 (.start parent) allocated = some (.ok (), v) ∧
    v.platform.generation? child = some 3 ∧ v.world = [some 3] ∧
    perform (body code) 20 (startAll [child]) v = some (.ok (), w) ∧
    w.platform.generation? child = some 3 ∧ w.world = [some 3, some 3] := by
  obtain ⟨v, w, hparent, hv, hchild, hw⟩ := exists_turns
  obtain ⟨hgeneration, hworld⟩ := Prod.mk.inj hv
  obtain ⟨hgeneration', hworld'⟩ := Prod.mk.inj hw
  exact ⟨v, w, reach_sample, .operation, allocate_family, rfl, by decide +kernel,
    hparent, hgeneration, hworld, hchild, hgeneration', hworld'⟩

/-- The family is started in two turns (`Walk`), the parent's and the child's. -/
theorem family_in_turn : ∃ w : Stage app,
    Walk code allocated done [parent, child] allocated (done (.ok ())) w ∧
      w.world = [some 3, some 3] := by
  obtain ⟨-, -, -, hwalk⟩ := Moment.started_in_turn reach_sample
    (f := Operation.spawn code family) .operation allocate_family
  obtain ⟨v, w, hparent, -, hchild, hw⟩ := exists_turns
  have hstarted : perform (body code) 20 ((startTree parent).bind done) allocated =
      some (.ok (), w) := by
    rw [bind_done, perform_startTree rfl, hparent, Option.bind_some]
    exact congrArg (Option.map _) hchild
  exact ⟨w, hwalk allocated.platform.bus done _ w (perform_advances hstarted),
    (Prod.mk.inj hw).2⟩

end Changeling

end Troupe
