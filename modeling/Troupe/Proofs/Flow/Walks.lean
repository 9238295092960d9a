import Troupe.Proofs.Flow.Calls
import Troupe.Proofs.Flow.Serving
import Troupe.Proofs.Platform.Slots

/-!
# Starting actors one after another

Addresses have their turns in the order in which they are listed (`Flow.startAll`). When its turn
comes, whoever lives at an address is started; where nobody lives any more, nothing happens. The
list was made before the first of them was started, and what the run hooks do meanwhile to those
that are still to come is not looked at (`start_tree`). `Flow.Walk` says how far this has come.

Since work gives back what it borrows (`Platform.Clean`), everybody who was at hand when the walk
began is at hand when their turn comes, and so are those who are new since (`exists_roused`):
starting them is calling their run hooks (`Flow.Roused`).

Headlines:
* **`Flow.startAll_walk`**: starting actors one after another is a walk.
* **`Flow.startTree_walk`**: so is starting an actor and those below it.
-/

namespace Troupe

variable {κ : App} {α : Type} {code : Code κ}

open Platform Troupe.Flow

namespace Flow

variable {w s t v : Stage κ} {a : Address} {as : List Address} {g : Flow κ α}
  {next : Except PlatformError Unit → Flow κ α}

/-- The actor that lives at an address is at hand, and when it is started its run hook is called:
`f` is the hook and what the start does after that. The incarnation lived there on the stage `w`, or
it has been created since. -/
inductive Roused (code : Code κ) (w s : Stage κ) (a : Address) :
    Flow κ (Except PlatformError Unit) → Prop
  | run {c : Context κ} {x : κ.Actor} {m : Machine κ}
      {k : Except ActorError Unit × Machine κ → Flow κ (Except PlatformError Unit)} :
      s.platform.context? a = some c → c.actor = some x → c.machine = some m →
      (w.platform.generation? a = some c.generation ∨
        w.platform.nextGeneration ≤ c.generation) →
      Advances (body code) (startActor code a, s)
        ((serve code (code.hook x .run a) m).bind k, s.busy a) →
      Roused code w s a ((serve code (code.hook x .run a) m).bind k)

/-- How far starting the actors at these addresses has come, one after another, and then going on
with `next`. It began on the stage `w`, it is at `s` that it has come to the first of the addresses,
and `g` is what is left to do on the stage `v`. -/
inductive Walk (code : Code κ) (w : Stage κ) (next : Except PlatformError Unit → Flow κ α) :
    List Address → Stage κ → Flow κ α → Stage κ → Prop
  /-- All have had their turn. -/
  | over {s v : Stage κ} {g : Flow κ α} : Advances (body code) (next (.ok ()), s) (g, v) →
      Walk code w next [] s g v
  /-- It is somebody's turn, and nothing has been done about it. -/
  | due {a : Address} {as : List Address} {s : Stage κ} {g : Flow κ α} : (∀ x, g ≠ done x) →
      Walk code w next (a :: as) s g s
  /-- The actor whose turn it is is being started. -/
  | acting {a : Address} {as : List Address} {s v : Stage κ}
      {f f' : Flow κ (Except PlatformError Unit)} {g : Flow κ α}
      {k : Except PlatformError Unit → Flow κ α} : Roused code w s a f →
      Advances (body code) (startActor code a, s) (f', v) → (∀ x, f' ≠ done x) → g = f'.bind k →
      Walk code w next (a :: as) s g v
  /-- The actor has been started, once, and the others have their turns. -/
  | acted {a : Address} {as : List Address} {s t v : Stage κ}
      {f : Flow κ (Except PlatformError Unit)} {g : Flow κ α} : Roused code w s a f →
      Advances (body code) (f, s.busy a) (done (.ok ()), t) → Walk code w next as t g v →
      Walk code w next (a :: as) s g v
  /-- Nobody lives there any more. -/
  | gone {a : Address} {as : List Address} {s v : Stage κ} {g : Flow κ α} :
      s.platform.isLive a = false → Walk code w next as s g v →
      Walk code w next (a :: as) s g v

/-! ## One turn -/

/-- The start of a live actor that returns (`Call.start`) says that all is well. -/
theorem Returns.start_ok {r : Except PlatformError Unit} (hlive : s.platform.isLive a = true)
    (h : Returns (body code) (.start a) s r t) : r = .ok () := by
  have hstart : Advances (body code) (startActor code a, s) (done r, t) := h
  unfold startActor at hstart
  rcases hstart.cases_head with hsame | ⟨_, ⟨⟩, hstart⟩
  · exact absurd (congrArg Prod.fst hsame) nofun
  change Advances (body code) (if (!s.platform.isLive a) = true then _ else _, s) _ at hstart
  rw [hlive, if_neg (by simp)] at hstart
  obtain ⟨_, _, -, hstart⟩ := Advances.of_bind_done hstart
  obtain ⟨result, _, -, hstart⟩ := Advances.of_bind_done hstart
  obtain ⟨_, _, -, hstart⟩ := Advances.of_bind_done hstart
  dsimp only at hstart
  split at hstart
  · obtain ⟨_, _, -, hstart⟩ := Advances.of_bind_done hstart
    exact done.inj (congrArg Prod.fst hstart.of_done)
  · exact done.inj (congrArg Prod.fst hstart.of_done)

/-- **Whoever lives there** when the turn comes is at hand, and will act (`Roused`). -/
theorem exists_roused (code : Code κ) (hw : w.platform.Inv)
    (hws : Clean Event.Any w.platform s.platform)
    (hidle : ∀ c, w.platform.context? a = some c → c.isIdle = true)
    (hlive : s.platform.isLive a = true) : ∃ f, Roused code w s a f := by
  obtain ⟨c, hc⟩ := isLive_iff.mp hlive
  have hat := hws.idle hidle hc
  rw [Context.isIdle, Bool.and_eq_true, Option.isSome_iff_exists, Option.isSome_iff_exists] at hat
  obtain ⟨⟨x, hx⟩, m, hm⟩ := hat
  obtain ⟨haddress, hgen, -, -, -⟩ := (hw.nested hws.nested).machines a c m hc hm
  obtain ⟨k, hrun⟩ := advances_startActor code (body code) hc hx hm haddress hgen.symm
  refine ⟨_, .run hc hx hm ?_ hrun⟩
  by_cases hold : c.generation < w.platform.nextGeneration
  · obtain ⟨d, hd, hg⟩ := isCurrent_iff.mp
      (hws.nested.rounds.outer.later.isCurrent hold (isCurrent_iff.mpr ⟨c, hc, rfl⟩))
    exact Or.inl ((congrArg (Option.map _) hd).trans (congrArg some hg))
  · exact Or.inr (Nat.le_of_not_lt hold)

/-- A turn at which an actor is started (`Call.start`). -/
theorem walk_of_start (hw : w.platform.Inv) (hws : Clean Event.Any w.platform s.platform)
    (hidle : ∀ c, w.platform.context? a = some c → c.isIdle = true)
    (hlive : s.platform.isLive a = true) {k : Except PlatformError Unit → Flow κ α}
    (h : Advances (body code) (.call (.start a) k, s) (g, v))
    (hrest : ∀ t, Clean Event.Any w.platform t.platform →
      Advances (body code) (k (.ok ()), t) (g, v) → Walk code w next as t g v) :
    Walk code w next (a :: as) s g v := by
  obtain ⟨f, hroused⟩ := exists_roused code hw hws hidle hlive
  rcases h.cases_head with hsame | ⟨_, ⟨⟩, h⟩
  · obtain ⟨rfl, rfl⟩ := Prod.mk.inj hsame
    exact .due nofun
  · rcases Advances.of_bind h with ⟨f', t, hstart, hgoes, heq⟩ | ⟨r, t, hreturns, h⟩
    · obtain ⟨rfl, rfl⟩ := Prod.mk.inj heq
      exact .acting hroused hstart hgoes rfl
    · have hstart : Returns (body code) (.start a) s r t := hreturns
      obtain rfl := hstart.start_ok hlive
      obtain ⟨-, -, hclean⟩ := hstart.kept (hw.nested hws.nested) trivial
      refine .acted hroused ?_ (hrest t (hws.trans hclean) h)
      cases hroused with
      | run hc hx hm hheir hrun =>
        rcases hrun.total hreturns with hafter | hbefore
        · exact hafter
        · rw [hbefore.of_done]
          exact .refl

/-! ## All turns -/

/-- **Starting actors one after another** (`startAll`) is a walk. -/
theorem startAll_walk (hw : w.platform.Inv) (as : List Address)
    (hidle : ∀ a ∈ as, ∀ c, w.platform.context? a = some c → c.isIdle = true)
    (hws : Clean Event.Any w.platform s.platform)
    (h : Advances (body code) ((startAll as).bind next, s) (g, v)) :
    Walk code w next as s g v := by
  induction as generalizing s with
  | nil => exact .over h
  | cons a as ih =>
    have hidle' := fun b hb => hidle b (List.mem_cons_of_mem a hb)
    rcases h.cases_head with hsame | ⟨_, ⟨⟩, h⟩
    · obtain ⟨rfl, rfl⟩ := Prod.mk.inj hsame
      exact .due nofun
    · change Advances (body code) ((if s.platform.isLive a = true then
        invoke (.start a) >>= _ else startAll as).bind next, s) (g, v) at h
      cases hlive : s.platform.isLive a with
      | true =>
        rw [hlive, if_pos rfl] at h
        exact walk_of_start hw hws (hidle a List.mem_cons_self) hlive h
          fun t hwt h => ih hidle' hwt h
      | false =>
        rw [hlive, if_neg (by simp)] at h
        exact .gone hlive (ih hidle' hws h)

/-- **Starting an actor and those below it** (`startTree`) is a walk, too: the actor has the first
turn. -/
theorem startTree_walk (hw : w.platform.Inv) (hlive : w.platform.isLive a = true)
    (hidle : ∀ b ∈ a :: w.platform.descendants a, ∀ c,
      w.platform.context? b = some c → c.isIdle = true)
    (h : Advances (body code) ((startTree a).bind next, w) (g, v)) :
    Walk code w next (a :: w.platform.descendants a) w g v := by
  rcases h.cases_head with hsame | ⟨_, ⟨⟩, h⟩
  · obtain ⟨rfl, rfl⟩ := Prod.mk.inj hsame
    exact .due nofun
  · exact walk_of_start hw (.refl _) (hidle a List.mem_cons_self) hlive h fun t hwt h =>
      startAll_walk hw _ (fun b hb => hidle b (List.mem_cons_of_mem a hb)) hwt h

end Flow

end Troupe
