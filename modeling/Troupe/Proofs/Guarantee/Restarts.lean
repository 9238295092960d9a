import Troupe.Proofs.Flow.Doings
import Troupe.Proofs.Guarantee.Traps
import Troupe.Proofs.Moments
import Troupe.Proofs.Stage.Names

/-!
# What a restart makes of a platform

A restart (`Flow.restart`, the source's `restart`) removes whoever lives at or below the source of
an error and builds them anew from the template of the source. That cannot fail: whoever lives has a
sound template (`Moment.Reach.soundTemplates`), since those that were allocated from another did not
stay, and so there is a plan for the template as long as the identifiers that are generated are
fresh (`Code.Fresh`, `Stage.exists_rebuilt`).

`Platform.Rebuilt` says what the platform is like when the bus is told of the restart
(`Raised.restarted`): at every site of the plan there is a fresh incarnation, nothing is left of
those that lived below the source before, and elsewhere all is as it was. Only then are the new ones
started (`Flow.launch`, by `start_tree`).

Headlines:
* **`Moment.restart_rebuilds`**: a restart rebuilds the source and those below it completely.
* `advances_restart`: from the verdict to the platform that was rebuilt.
-/

namespace Troupe

open Platform Troupe.Flow

section

variable {κ : App} {code : Code κ} {V : Event → Prop}

/-! ## Whoever lives has a sound template -/

/-- Whoever lives somewhere has a sound template (`Template.Sound`). -/
def Platform.SoundTemplates (p : Platform κ) : Prop :=
  ∀ a c, p.context? a = some c → c.template.Sound

theorem Stage.Doing.soundTemplates {s t : Stage κ} (h : Doing code V s t)
    (hi : s.platform.TableInv) (hs : s.platform.SoundTemplates) : t.platform.SoundTemplates := by
  intro a c hc
  cases h with
  | placid h =>
    have hid : s.platform.identity? a = some c.identity :=
      h.identities a ▸ identity?_eq_some.mpr ⟨c, hc, rfl⟩
    obtain ⟨d, hd, hsame⟩ := identity?_eq_some.mp hid
    have htemplate : d.template = c.template := congrArg Identity.template hsame
    exact htemplate ▸ hs a d hd
  | allocate parent t =>
    rcases (Stage.allocate_reared code parent t s hi).1 a c hc with hold | ⟨-, hnew⟩
    · exact hs a c hold
    · exact hnew
  | terminate b =>
    rw [Stage.context?_terminate b hi] at hc
    split at hc
    · exact absurd hc (by simp)
    · exact hs a c hc

namespace Moment

variable {m m' : Moment κ}

/-- What is left of an operation does one thing after another (`Flow.Each`). -/
def Goes (code : Code κ) : Moment κ → Prop
  | between _ => True
  | amid f s => Flow.Goes code Event.Any f s

theorem Next.goes (h : Next code m m') (hm : m.Goes code) : m'.Goes code ∧
    ((∀ a, m'.stage.platform.context? a = m.stage.platform.context? a) ∨
      Stage.Doing code Event.Any m.stage m'.stage) := by
  cases h with
  | begin hf => exact ⟨hf.goes (fun _ => trivial) _, Or.inl fun _ => rfl⟩
  | advance hstep =>
    obtain ⟨hm', hsame | hdoing⟩ := hstep.goes code.publishes_any hm
    · exact ⟨hm', Or.inl fun a => congrArg (fun s : Stage κ => s.platform.context? a) hsame⟩
    · exact ⟨hm', Or.inr hdoing⟩
  | back => exact ⟨trivial, Or.inl fun _ => rfl⟩
  | meanwhile => exact ⟨trivial, Or.inl fun _ => rfl⟩

/-- **Whoever lives** at a moment that is reached has a sound template (`Platform.SoundTemplates`).
-/
theorem Reach.soundTemplates (h : Reach code m) : m.stage.platform.SoundTemplates := by
  obtain ⟨config, trap, subs, w, hlater⟩ := h
  have hall : m.Goes code ∧ m.stage.platform.SoundTemplates := by
    induction hlater with
    | refl =>
      obtain ⟨bus, -, hnew⟩ := new_platform config trap subs w
      refine ⟨trivial, fun a c hc => ?_⟩
      rw [stage, hnew] at hc
      exact nomatch hc
    | tail hprev hstep ih =>
      obtain ⟨hgoes, hsound⟩ := ih
      have hi := (Reach.ok ⟨config, trap, subs, w, hprev⟩).inv.table
      obtain ⟨hgoes', hsame | hdoing⟩ := hstep.goes hgoes
      · exact ⟨hgoes', fun a c hc => hsound a c (hsame a ▸ hc)⟩
      · exact ⟨hgoes', hdoing.soundTemplates hi hsound⟩
  exact hall.2

end Moment

/-! ## Removing and building anew -/

/-- The platform `q` is `p` after the actors at and below an address were removed and others were
built at these sites. -/
structure Platform.Rebuilt (code : Code κ) (source : Address) (sites : List (Site κ))
    (p q : Platform κ) : Prop where
  /-- All sites are at or below the address, and no two are the same. -/
  within : ∀ x ∈ sites, x.address.Within source
  apart : (sites.map Site.address).Nodup
  /-- At each site lives a new incarnation, with the next generation in the order of the sites:
  there is nothing in its mailbox or its backlog, and no receiver but the one its behaviour has. -/
  fresh : ∀ i (hi : i < sites.length), q.context? sites[i].address =
    some (sites[i].context code (p.nextGeneration + i) p.config.frameLimit)
  /-- Nobody else lives at or below the address, and nothing is scheduled there. -/
  gone : ∀ a : Address, a.Within source → (∀ x ∈ sites, x.address ≠ a) → q.context? a = none
  unscheduled : ∀ a : Address, a.Within source → q.pending.get? a = none
  unblocked : q.isBlocked source = false
  /-- Those who were built, and nobody else there, are in the groups of their templates. -/
  members : ∀ (a : Address) (group : String), a.Within source →
    (a ∈ q.members group ↔ ∃ x ∈ sites, x.address = a ∧ group ∈ x.template.groups)
  /-- All other actors keep their context, slots, tasks and memberships. -/
  spared : ∀ a : Address, ¬ a.Within source → Stage.Spared p q a

namespace Stage

variable {s : Stage κ} {a : Address} {xs : List (Site κ)}

/-- **Removing and building anew** (`Stage.terminate`, `Stage.plantAll`) leaves nothing of what was
there. -/
theorem rebuilt (hi : s.platform.Inv) (hlive : s.platform.isLive a = true)
    (hwithin : ∀ x ∈ xs, x.address.Within a) (hapart : (xs.map Site.address).Nodup) :
    Rebuilt code a xs s.platform ((s.terminate code a).plantAll code xs).platform := by
  have hremoved := terminate_removals code a s
  obtain ⟨hconfig, hnext, -⟩ := hremoved.shared
  have houter : Outer Event.Any s.platform (s.terminate code a).platform :=
    (terminate_upkeep a hi.table).nested.rounds.outer
  have hi' : (s.terminate code a).platform.Inv := hi.outer houter
  have hgone (b : Address) (hb : b.Within a) : (s.terminate code a).platform.context? b = none := by
    rw [context?_terminate a hi.table]
    exact if_pos hb
  have hapart' (b : Address) (hb : ¬ b.Within a) (x : Site κ) (hx : x ∈ xs) : x.address ≠ b := by
    rintro rfl
    exact hb (hwithin x hx)
  obtain ⟨contexts, groups, bus, world, hplanted, -⟩ := plantAll_eq code xs (s.terminate code a)
  have hpending : ((s.terminate code a).plantAll code xs).platform.pending =
      (s.terminate code a).platform.pending := by rw [hplanted]
  have hblocked : ((s.terminate code a).plantAll code xs).platform.blocked =
      (s.terminate code a).platform.blocked := by rw [hplanted]
  refine ⟨hwithin, hapart, fun i hlt => ?_, fun b hb hother => ?_, fun b hb => ?_, ?_,
    fun b group hb => ?_, fun b hb => ?_⟩
  · rw [context?_plantAll hapart hlt, hnext, hconfig]
  · rw [context?_plantAll_of_notMem hother, hgone b hb]
  · rw [hpending]
    cases hslots : (s.terminate code a).platform.pending.get? b with
    | none => rfl
    | some slots =>
      obtain ⟨slot, hslot⟩ := List.exists_mem_of_ne_nil slots (hi'.queues.filled b slots hslots)
      obtain ⟨c, hc, -⟩ := isCurrent_iff.mp (hi'.queues.current b slots hslots slot hslot)
      exact absurd ((hgone b hb).symm.trans hc) (by simp)
  · unfold isBlocked
    rw [hblocked]
    exact hremoved.unblocked hlive (hgone a (.refl a))
  · rw [mem_members_plantAll]
    refine or_iff_right fun hmem => ?_
    obtain ⟨c, hc⟩ := isLive_iff.mp (hi'.table.isLive_of_mem_members hmem)
    exact absurd ((hgone b hb).symm.trans hc) (by simp)
  · have hspared := hremoved.spared hb
    refine ⟨?_, ?_, ?_, fun group => ?_⟩
    · rw [context?_plantAll_of_notMem (hapart' b hb), hspared.context]
    · rw [hpending, hspared.pending]
    · rw [hblocked, hspared.blocked]
    · rw [mem_members_plantAll, hspared.members]
      exact or_iff_left fun ⟨x, hx, hxb, _⟩ => hapart' b hb x hx hxb

end Stage

/-! ## The rebuild -/

/-- The event that tells that the source of an error was restarted (`EventKind.actorRestarted`). -/
def Raised.restarted (r : Raised κ) : Event :=
  { kind := .actorRestarted, address := some r.source, reason := some r.error.message }

/-- Whether an event may be told on the way to a restart: an error that was escalated, an actor that
was removed, or one that was allocated or joined a group (`Event.IsArrival`). -/
def Event.IsPreparation (e : Event) : Prop :=
  e.kind = .errorEscalated ∨ e.kind = .actorRemoved ∨ e.IsArrival

/-- What is left of a restart when the actors have been built: the bus is told, and they are started
(`Flow.startTree`). -/
def Flow.launch (r : Raised κ) : Flow κ Unit := do
  edit (·.publish r.restarted)
  let _ ← startTree r.source

theorem Address.not_parent_within {a : Address} (hroot : a ≠ .root) (hdiscard : a ≠ .discard) :
    ¬ a.parent.Within a := by
  have hdepth : a.parent.depth < a.depth :=
    depth_lt_of_isBelow (isBelow_of_parent hroot hdiscard rfl)
  rintro (hsame | hbelow)
  · exact absurd (congrArg Address.depth hsame) (Nat.ne_of_lt hdepth)
  · exact Nat.lt_asymm hdepth (depth_lt_of_isBelow hbelow)

/-- What the bus carried before does not matter (`Platform.Rebuilt`). -/
theorem Platform.Rebuilt.of_bus {p q : Platform κ} {a : Address} {xs : List (Site κ)} {bus : Bus}
    (h : Rebuilt code a xs { p with bus } q) : Rebuilt code a xs p q where
  within := h.within
  apart := h.apart
  fresh := h.fresh
  gone := h.gone
  unscheduled := h.unscheduled
  unblocked := h.unblocked
  members := h.members
  spared b hb :=
    have hspared := h.spared b hb
    ⟨hspared.context, hspared.pending, hspared.blocked, hspared.members⟩

namespace Stage

variable {s : Stage κ} {c : Context κ} {used : κ.World → String → Prop}

/-- **Building anew cannot fail** if generated identifiers are fresh (`Code.Fresh`). -/
theorem exists_rebuilt {a : Address} (hi : s.platform.Inv) (hc : s.platform.context? a = some c)
    (hsound : c.template.Sound) (hfresh : code.Fresh c.template.ids used) :
    ∃ sites t, c.template.plan code a.parent (s.terminate code a).world = some (sites, t.world) ∧
      sites.head?.map Site.address = some a ∧
      (s.terminate code a).allocate code a.parent c.template = (.ok a, t) ∧
      s.platform.bus.Grown Event.IsPreparation t.platform.bus ∧
      Rebuilt code a sites s.platform t.platform := by
  obtain ⟨hroot, hdiscard⟩ := hi.table.placed a c hc
  obtain ⟨below, w, hplan, hbelow, hapart⟩ := Template.exists_sites hfresh hsound
    (hi.table.named a c hc) hroot hdiscard (s.terminate code a).world
  let xs : List (Site κ) := ⟨a, c.template, (s.terminate code a).world⟩ :: below
  have hwithin : ∀ x ∈ xs, x.address.Within a :=
    List.forall_mem_cons.mpr ⟨.refl a, fun x hx => Or.inr (hbelow x hx)⟩
  have hgone (x : Site κ) (hx : x ∈ xs) :
      (s.terminate code a).platform.context? x.address = none := by
    rw [context?_terminate a hi.table]
    exact if_pos (hwithin x hx)
  have hparent : (s.terminate code a).platform.contains a.parent = true := by
    have haway : (s.terminate code a).platform.context? a.parent =
        s.platform.context? a.parent := by
      rw [context?_terminate a hi.table]
      exact if_neg (Address.not_parent_within hroot hdiscard)
    rw [contains_iff, haway]
    exact contains_iff.mp (hi.table.closed a c hc)
  obtain ⟨b, hhead, hallocate, rfl⟩ :=
    allocate_of_plan code a.parent c.template _ xs w hplan hparent hapart hgone
  obtain rfl : a = b := Option.some.inj hhead
  obtain ⟨_, _, bus, _, hplanted, hgrown⟩ := plantAll_eq code xs (s.terminate code a)
  refine ⟨xs, _, hplan, rfl, hallocate, ?_, rebuilt hi (isLive_iff.mpr ⟨c, hc⟩) hwithin hapart⟩
  have hremoved := (terminate_removals code a s).shared.2.2
  have htold : (s.terminate code a).platform.bus.Grown Event.IsPreparation
      ((s.terminate code a).plantAll code xs).platform.bus := by
    rw [hplanted]
    exact hgrown.mono fun e he => Or.inr (Or.inr he)
  exact (hremoved.mono fun e he => Or.inr (Or.inl he)).trans htold

end Stage

/-- A restart advances to the launch (`Flow.launch`) once the actors have been built. -/
theorem advances_restart {s t : Stage κ} {r : Raised κ} {c : Context κ}
    (hc : s.platform.context? r.source = some c)
    (hbuilt : (s.terminate code r.source).allocate code r.source.parent c.template =
      (.ok r.source, t)) :
    Advances (body code) (restart code r, s) (launch r, t) := by
  have htemplate : (s.platform.template? r.source <|> r.template) = some c.template := by
    unfold template?
    rw [hc]
    rfl
  unfold restart
  refine Relation.ReflTransGen.trans (advances_ask _ _) ?_
  dsimp only [id]
  rw [htemplate]
  refine Relation.ReflTransGen.trans (advances_modify _ _) ?_
  refine Relation.ReflTransGen.trans (advances_onStage _ _) ?_
  rw [hbuilt]
  exact .refl

namespace Moment

variable {m : Moment κ}

/-- **A restart rebuilds completely.** An error is judged, the verdict is to restart, and the source
is live. Then there is a plan for building it from its template, with a site for each node of the
template and the source as the first, and the work on the error comes to where the platform is
rebuilt by that plan (`Platform.Rebuilt`). On the way the bus is told of no restart and nobody is
started. All incarnations that ever lived have lower generations than those that were built. What is
left is to tell of the restart and to start the actors, and whatever happens then, no other restart
is told of. -/
theorem restart_rebuilds (h : Reach code m) (hpub : code.Publishes V) {r : Raised κ}
    {c : Context κ} {u : Stage κ} {used : κ.World → String → Prop}
    (hc : m.stage.platform.context? r.source = some c)
    (hjudged : Stage.judge code r r.source.ancestry m.stage = (.restart, u))
    (hfresh : code.Fresh c.template.ids used) :
    ∃ sites t,
      c.template.plan code r.source.parent (u.terminate code r.source).world =
        some (sites, t.world) ∧
      List.Forall₂ Site.IsOf sites c.template.nodes ∧
      sites.head?.map Site.address = some r.source ∧
      Advances (body code) (supervise code r, m.stage) (launch r, t) ∧
      m.stage.platform.bus.Grown Event.IsPreparation t.platform.bus ∧
      Rebuilt code r.source sites m.stage.platform t.platform ∧
      (∀ m₀ a c₀, Reach code m₀ → Later code m₀ m → m₀.stage.platform.context? a = some c₀ →
        c₀.generation < m.stage.platform.nextGeneration) ∧
      Advances (body code) (launch r, t)
        (startTree r.source >>= fun _ => pure (), t.edit (·.publish r.restarted)) ∧
      ∀ f v, Advances (body code)
          (startTree r.source >>= fun _ => pure (), t.edit (·.publish r.restarted)) (f, v) →
        (t.platform.publish r.restarted).bus.Grown (Unrestarted V) v.platform.bus := by
  obtain ⟨bus, hbus, htold⟩ := Stage.judge_told code r r.source.ancestry m.stage
  rw [hjudged] at hbus htold
  have hi : u.platform.Inv := hbus ▸ h.ok.inv.dealing (.bus bus)
  have hcu : u.platform.context? r.source = some c := hbus ▸ hc
  obtain ⟨sites, t, hplan, hhead, hbuilt, hgrown, hrebuilt⟩ := Stage.exists_rebuilt hi hcu
    (h.soundTemplates _ c hc) hfresh
  rw [hbus] at hgrown hrebuilt
  refine ⟨sites, t, hplan, Template.plan_nodes code _ _ _ _ _ hplan, hhead, ?_, ?_,
    hrebuilt.of_bus, fun m₀ a c₀ h₀ hlater hc₀ => ?_,
    advances_modify _ _, fun f v hadvances => ?_⟩
  · have hjudge : Advances (body code) (supervise code r, m.stage)
        (afterJudging code r (Stage.judge code r r.source.ancestry m.stage).1,
          (Stage.judge code r r.source.ancestry m.stage).2) := by
      rw [supervise_eq]
      exact advances_onStage _ _
    rw [hjudged] at hjudge
    exact Relation.ReflTransGen.trans hjudge (advances_restart hcu hbuilt)
  · refine (htold.mono fun e he => ?_).trans hgrown
    rcases he with he | ⟨-, he⟩
    · exact Or.inl he
    · exact absurd he nofun
  · exact Nat.lt_of_lt_of_le (h₀.ok.inv.table.fresh a c₀ hc₀) (hlater.ok h₀.ok).2.later.next
  · exact (hadvances.told hpub (.bind (startTree_goes _ _) fun _ _ => .pure _ _)).2

end Moment

end

/-! ## An actor that is rebuilt -/

namespace Rebuilding

/-- An application that numbers the identifiers it generates (`Code.freshId`). -/
def app : App where
  Factory := Unit
  Actor := Unit
  Trap := Unit
  Foreign := Unit
  Task := Unit
  World := Nat

/-- The identifier with a number. -/
def name (n : Nat) : String :=
  String.ofList (List.replicate (n + 1) 'x')

/-- Its traps restart (`Verdict.restart`), and its actors do nothing. -/
def code : Code app where
  freshId n := (name n, Nat.succ n)
  build _ _ n := ((), n)
  init _ n := (.buffered, n)
  stop _ n := n
  judge _ _ n := (.restart, n)
  hook _ _ _ := .done (.ok ())
  foreign _ _ _ := .done (.ok .nil)
  poll _ n := (.ready (.ok none), n)

/-- A member of a group, with a child whose identifier is generated and one that is a member. -/
def template : Template app :=
  .mk (some "a") () [] (some ()) ["group"]
    [.mk none () [] none [] [], .mk (some "b") () [] none ["group"] []]

/-- The identifiers that were generated when the application has counted so far (`name`). -/
def Used (n : Nat) (id : String) : Prop :=
  ∃ k < n, id = name k

theorem toList_name (n : Nat) : (name n).toList = List.replicate (n + 1) 'x' :=
  String.toList_ofList

theorem name_injective {j k : Nat} (h : name j = name k) : j = k := by
  have hlength := congrArg (fun text : String => text.toList.length) h
  simpa [toList_name] using hlength

theorem fresh : code.Fresh ["a", "b"] Used where
  flawless (n : Nat) := by
    show idFlaw? (name n).toList = none
    rw [toList_name]
    simp [idFlaw?, List.replicate_succ]
  other (n : Nat) (hmem : name n ∈ ["a", "b"]) := by
    have hhead : (name n).toList.head? = some 'x' := by
      rw [toList_name]
      rfl
    rcases List.mem_cons.mp hmem with h | h
    · exact absurd (h ▸ hhead) (by decide)
    · exact absurd (List.mem_singleton.mp h ▸ hhead) (by decide)
  new (n : Nat) := fun ⟨_, hlt, hname⟩ => Nat.lt_irrefl _ (name_injective hname ▸ hlt)
  noted (n : Nat) := ⟨n, Nat.lt_succ_self n, rfl⟩
  freshId (n : Nat) _ := fun ⟨k, hlt, hname⟩ => ⟨k, Nat.lt_succ_of_lt hlt, hname⟩
  build _ _ _ _ hused := hused
  init _ _ _ hused := hused

/-- The platform on which the actor is spawned. -/
def sample : Stage app :=
  .new {} none [] Nat.zero

/-- An actor is spawned with its children, and an error of it is judged: all three are rebuilt
(`template`), one of the children with another identifier. -/
theorem spawned_rebuilt : ∃ (s t : Stage app) (sites : List (Site app)),
    Moment.Reach code (.between s) ∧ s.platform.generation? .sample = some 1 ∧
      Advances (body code) (supervise code ⟨.sample, .application "e", none⟩, s)
        (launch ⟨.sample, .application "e", none⟩, t) ∧
      Rebuilt code .sample sites s.platform t.platform ∧
      sites.map (·.address.text) = ["/a", "/a/xx", "/a/b"] := by
  let r : Raised app := ⟨.sample, .application "e", none⟩
  have hrun : (perform (body code) 8 (Operation.spawn code template) sample).map (fun x =>
      (x.2.platform.generation? .sample, (Stage.judge code r r.source.ancestry x.2).1,
        (x.2.platform.context? .sample).bind fun c =>
          (c.template.plan code r.source.parent
            ((Stage.judge code r r.source.ancestry x.2).2.terminate code r.source).world).map
              fun y => (c.template.ids, y.1.map (·.address.text)))) =
      some (some 1, .restart, some (["a", "b"], ["/a", "/a/xx", "/a/b"])) := by decide +kernel
  obtain ⟨⟨_, s⟩, hspawn, hseen⟩ := Option.map_eq_some_iff.mp hrun
  obtain ⟨hgeneration, hseen⟩ := Prod.mk.inj hseen
  obtain ⟨hrestart, hplanned⟩ := Prod.mk.inj hseen
  obtain ⟨c, hc, hplanned⟩ := Option.bind_eq_some_iff.mp hplanned
  obtain ⟨⟨sites, _⟩, hplan, hsites⟩ := Option.map_eq_some_iff.mp hplanned
  obtain ⟨hids, hsites⟩ := Prod.mk.inj hsites
  have hreach : Moment.Reach code (.between s) :=
    Moment.Reach.perform ⟨{}, none, [], Nat.zero, .refl⟩ 8 (.spawn template) hspawn
  obtain ⟨sites', t, hplan', -, -, hway, -, hrebuilt, -⟩ := Moment.restart_rebuilds
    (V := fun _ => False) (r := r) hreach ⟨fun _ _ _ => trivial, fun _ _ _ => trivial⟩ hc
    (Prod.ext hrestart rfl) (hids ▸ fresh)
  obtain ⟨rfl, -⟩ := Prod.mk.inj (Option.some.inj (hplan.symm.trans hplan'))
  exact ⟨s, t, _, hreach, hgeneration, hway, hrebuilt, hsites⟩

end Rebuilding

end Troupe
