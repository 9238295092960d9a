import Mathlib.Logic.Relation
import Troupe.Proofs.Flow.Contract

/-!
# Flows step by step

A flow advances by reading the stage, by replacing it, or by going into a call: then the call's body
is done first (`Flow.Advance`). So every stage that work passes through, however deep in calls, is
the stage of some step, and so is every stage of a flow that never ends. Steps are determined:
`Flow.next?` is the next one and `Flow.after` where a flow is after so many.

A flow in front of another advances as it does alone (`Advances.bind`), and what is under way in
front of another is the one or, when that has come to its end, the other (`Advances.of_bind`).

Headlines:
* **`performWith_advances`**, **`perform_advances`**: a flow that is carried out advances to its
  end.
* **`Advances.meets`**: if bodies keep to their contract (`Honours`), a flow that meets its end goes
  on meeting it at every step. The invariant holds at each, and each stage is an `R`-move away from
  any earlier one.
* `Advances.total`: of two places that a flow advances to, one comes after the other.
-/

namespace Troupe.Flow

variable {κ : App} {α β : Type} {body : (c : Call κ) → Flow κ c.Answer} {C : Contract κ}
  {R : Stage κ → Stage κ → Prop} {Q : α → Stage κ → Prop} {f g : Flow κ α} {s t : Stage κ}

/-! ## Steps -/

/-- One step of a flow on its stage; a call (`Flow.call`) goes into its body. -/
inductive Advance (body : (c : Call κ) → Flow κ c.Answer) :
    Flow κ α × Stage κ → Flow κ α × Stage κ → Prop
  | get {next : Stage κ → Flow κ α} {s : Stage κ} : Advance body (.get next, s) (next s, s)
  | set {s t : Stage κ} {next : Flow κ α} : Advance body (.set t next, s) (next, t)
  | call {c : Call κ} {next : c.Answer → Flow κ α} {s : Stage κ} :
      Advance body (.call c next, s) ((body c).bind next, s)

/-- Any number of steps (`Advance`). -/
def Advances (body : (c : Call κ) → Flow κ c.Answer) :
    Flow κ α × Stage κ → Flow κ α × Stage κ → Prop :=
  Relation.ReflTransGen (Advance body)

/-! ## The next step -/

section Next

variable {n : Nat} {x y z : Flow κ α × Stage κ}

/-- The next step of a flow (`Advance`), unless it has come to its end. -/
def next? {α : Type} (body : (c : Call κ) → Flow κ c.Answer) :
    Flow κ α × Stage κ → Option (Flow κ α × Stage κ)
  | (.done _, _) => none
  | (.get next, s) => some (next s, s)
  | (.set t next, _) => some (next, t)
  | (.call c next, s) => some ((body c).bind next, s)

/-- Where a flow is after so many steps (`next?`). -/
def after {α : Type} (body : (c : Call κ) → Flow κ c.Answer) :
    Nat → Flow κ α × Stage κ → Flow κ α × Stage κ
  | 0, x => x
  | n + 1, x => (next? body x).elim x (after body n)

theorem advance_iff_next? : Advance body x y ↔ next? body x = some y := by
  constructor
  · rintro (_ | _ | _) <;> rfl
  · intro h
    obtain ⟨f, s⟩ := x
    cases f with
    | done => exact absurd h (by simp [next?])
    | get => exact Option.some.inj h ▸ .get
    | set => exact Option.some.inj h ▸ .set
    | call => exact Option.some.inj h ▸ .call

/-- Of two places that a flow advances to (`Advances`), one comes after the other. -/
theorem Advances.total (hy : Advances body x y) (hz : Advances body x z) :
    Advances body y z ∨ Advances body z y := by
  refine Relation.ReflTransGen.total_of_right_unique (fun _ _ _ h h' => ?_) hy hz
  exact Option.some.inj ((advance_iff_next?.mp h).symm.trans (advance_iff_next?.mp h'))

/-- A flow that has come to its end (`Flow.done`) does not advance. -/
theorem Advances.of_done {a : α} (h : Advances body (.done a, s) y) : y = (.done a, s) := by
  rcases h.cases_head with h | ⟨_, hstep, -⟩
  · exact h.symm
  · exact absurd hstep nofun

theorem after_succ : after body (n + 1) x = (next? body x).elim x (after body n) := rfl

theorem after_of_next? (h : next? body x = some y) : after body (n + 1) x = after body n y := by
  rw [after_succ, h]
  rfl

/-- A flow that has come to its end (`Flow.done`) stays there. -/
theorem after_of_ended (h : next? body x = none) (n : Nat) : after body n x = x := by
  cases n with
  | zero => rfl
  | succ n =>
    rw [after_succ, h]
    rfl

theorem after_add (body : (c : Call κ) → Flow κ c.Answer) (n k : Nat)
    (x : Flow κ α × Stage κ) : after body (n + k) x = after body k (after body n x) := by
  induction n generalizing x with
  | zero => rw [Nat.zero_add]; rfl
  | succ n ih =>
    rw [Nat.succ_add]
    cases hx : next? body x with
    | none => simp only [after_of_ended hx]
    | some y => rw [after_of_next? hx, after_of_next? hx, ih]

theorem advances_after (body : (c : Call κ) → Flow κ c.Answer) (n : Nat)
    (x : Flow κ α × Stage κ) : Advances body x (after body n x) := by
  induction n generalizing x with
  | zero => exact .refl
  | succ n ih =>
    cases hx : next? body x with
    | none =>
      rw [after_of_ended hx]
      exact .refl
    | some y =>
      rw [after_of_next? hx]
      exact .head (advance_iff_next?.mpr hx) (ih y)

/-- A flow that is elsewhere after a step (`after`) has taken it. -/
theorem advance_after (h : (after body (n + 1) x).2 ≠ (after body n x).2) :
    Advance body (after body n x) (after body (n + 1) x) := by
  rw [after_add body n 1] at h ⊢
  cases hx : next? body (after body n x) with
  | none => exact absurd (congrArg Prod.snd (after_of_ended hx 1)) h
  | some y => exact after_of_next? (n := 0) hx ▸ advance_iff_next?.mpr hx

end Next

/-! ## One flow in front of another -/

theorem bind_bind (f : Flow κ α) (g : α → Flow κ β) {γ : Type} (k : β → Flow κ γ) :
    (f.bind g).bind k = f.bind fun x => (g x).bind k := by
  induction f with
  | done x => rfl
  | get next ih => exact congrArg Flow.get (funext fun s => ih s)
  | set s next ih => exact congrArg (Flow.set s) ih
  | call c next ih => exact congrArg (Flow.call c) (funext fun x => ih x)

theorem bind_done (f : Flow κ α) : f.bind done = f := by
  induction f with
  | done x => rfl
  | get next ih => exact congrArg Flow.get (funext fun s => ih s)
  | set s next ih => exact congrArg (Flow.set s) ih
  | call c next ih => exact congrArg (Flow.call c) (funext fun x => ih x)

/-- A flow is carried out in front of another (`Flow.bind`) as it is alone. -/
theorem performWith_bind {answer : (c : Call κ) → Stage κ → Option (c.Answer × Stage κ)}
    (f : Flow κ α) (k : α → Flow κ β) (s : Stage κ) :
    performWith answer (f.bind k) s =
      (performWith answer f s).bind fun x => performWith answer (k x.1) x.2 := by
  induction f generalizing s with
  | done x => rfl
  | get next ih => exact ih s s
  | set t next ih => exact ih t
  | call c next ih =>
    show performWith answer (.call c fun x => (next x).bind k) s = _
    rw [performWith, performWith]
    cases answer c s with
    | none => rfl
    | some x => exact ih x.1 x.2

section Perform

variable {n : Nat}

theorem perform_bind (f : Flow κ α) (k : α → Flow κ β) (s : Stage κ) :
    perform body n (f >>= k) s =
      (perform body n f s).bind fun x => perform body n (k x.1) x.2 :=
  performWith_bind f k s

theorem perform_see (k : Stage κ → Flow κ α) :
    perform body n (Flow.get done >>= k) s = perform body n (k s) s := rfl

theorem perform_ask (f : Platform κ → α) (k : α → Flow κ β) :
    perform body n (ask f >>= k) s = perform body n (k (f s.platform)) s := rfl

theorem perform_modify (f : Stage κ → Stage κ) (k : Unit → Flow κ β) :
    perform body n (modify f >>= k) s = perform body n (k ()) (f s) := rfl

theorem perform_edit (f : Platform κ → Platform κ) (k : Unit → Flow κ β) :
    perform body n (edit f >>= k) s = perform body n (k ()) (s.edit f) := rfl

end Perform

/-- A flow advances in front of another (`Flow.bind`) as it does alone. -/
theorem Advance.bind (h : Advance body (f, s) (g, t)) (k : α → Flow κ β) :
    Advance body (f.bind k, s) (g.bind k, t) := by
  cases h with
  | get => exact .get
  | set => exact .set
  | call =>
    rw [bind_bind]
    exact .call

theorem Advances.bind {x y : Flow κ α × Stage κ} (h : Advances body x y) (k : α → Flow κ β) :
    Advances body (x.1.bind k, x.2) (y.1.bind k, y.2) := by
  induction h with
  | refl => exact .refl
  | tail _ hstep ih => exact .tail ih (hstep.bind k)

/-- What a flow begins with is begun with in front of another flow too (`Flow.bind`). -/
theorem Advances.ahead {γ : Type} {g : Flow κ γ} {k : γ → Flow κ α}
    (h : Advances body (f, s) (g.bind k, t)) (k' : α → Flow κ β) :
    Advances body (f.bind k', s) (g.bind fun x => (k x).bind k', t) :=
  bind_bind g k k' ▸ h.bind k'

/-- A flow in front of another (`Flow.bind`) that is not at its end takes the next step. -/
theorem Advance.of_bind {k : α → Flow κ β} {y : Flow κ β × Stage κ} (hf : ∀ a, f ≠ done a)
    (h : Advance body (f.bind k, s) y) : ∃ g t, Advance body (f, s) (g, t) ∧ y = (g.bind k, t) := by
  cases f with
  | done a => exact absurd rfl (hf a)
  | get next =>
    cases h
    exact ⟨next s, s, .get, rfl⟩
  | set t next =>
    cases h
    exact ⟨next, t, .set, rfl⟩
  | call c next =>
    cases h
    exact ⟨(body c).bind next, s, .call, congrArg (·, s) (bind_bind _ _ _).symm⟩

/-- **One flow in front of another** (`Flow.bind`): it is under way, or it has come to its end and
the other goes on from there. -/
theorem Advances.of_bind {k : α → Flow κ β} {y : Flow κ β × Stage κ}
    (h : Advances body (f.bind k, s) y) :
    (∃ g t, Advances body (f, s) (g, t) ∧ (∀ a, g ≠ done a) ∧ y = (g.bind k, t)) ∨
      ∃ a t, Advances body (f, s) (done a, t) ∧ Advances body (k a, t) y := by
  have reached {g : Flow κ α} {t : Stage κ} (hg : Advances body (f, s) (g, t)) :
      (∃ g' t', Advances body (f, s) (g', t') ∧ (∀ a, g' ≠ done a) ∧
          (g.bind k, t) = (g'.bind k, t')) ∨
        ∃ a t', Advances body (f, s) (done a, t') ∧ Advances body (k a, t') (g.bind k, t) := by
    cases g with
    | done a => exact Or.inr ⟨a, t, hg, .refl⟩
    | get | set | call => exact Or.inl ⟨_, t, hg, nofun, rfl⟩
  induction h with
  | refl => exact reached .refl
  | tail _ hstep ih =>
    rcases ih with ⟨g, t, hg, hgoes, rfl⟩ | ⟨a, t, hdone, hrest⟩
    · obtain ⟨g', t', hnext, rfl⟩ := hstep.of_bind hgoes
      exact reached (hg.tail hnext)
    · exact Or.inr ⟨a, t, hdone, hrest.tail hstep⟩

/-- What returns in front of another flow (`Flow.bind`) goes on with it. -/
theorem Advances.of_bind_done {k : α → Flow κ β} {b : β}
    (h : Advances body (f.bind k, s) (done b, t)) :
    ∃ a u, Advances body (f, s) (done a, u) ∧ Advances body (k a, u) (done b, t) := by
  rcases h.of_bind with ⟨g, u, -, hgoes, heq⟩ | hdone
  · cases g with
    | done a => exact absurd rfl (hgoes a)
    | get | set | call => exact absurd (congrArg Prod.fst heq) nofun
  · exact hdone

theorem advances_ask (f : Platform κ → α) (k : α → Flow κ β) :
    Advances body (ask f >>= k, s) (k (f s.platform), s) :=
  .single .get

theorem advances_onStage (f : Stage κ → α × Stage κ) (k : α → Flow κ β) :
    Advances body (onStage f >>= k, s) (k (f s).1, (f s).2) :=
  .head .get (.single .set)

theorem advances_modify (f : Stage κ → Stage κ) (k : Unit → Flow κ β) :
    Advances body (modify f >>= k, s) (k (), f s) :=
  .head .get (.single .set)

/-! ## Carrying out -/

/-- Given calls whose bodies advance to what they come to, a flow advances to what it comes to
(`performWith`). -/
theorem performWith_advances {answer : (c : Call κ) → Stage κ → Option (c.Answer × Stage κ)}
    (hans : ∀ c s x t, answer c s = some (x, t) → Advances body (body c, s) (.done x, t)) {x : α}
    (hp : performWith answer f s = some (x, t)) : Advances body (f, s) (.done x, t) := by
  induction f generalizing s with
  | done a =>
    obtain ⟨rfl, rfl⟩ : a = x ∧ s = t := by simpa [performWith] using hp
    exact .refl
  | get next ih => exact .head .get (ih s hp)
  | set u next ih => exact .head .set (ih hp)
  | call c next ih =>
    rw [performWith] at hp
    split at hp
    · rename_i y u hc
      have hbody := (hans c s y u hc).bind next
      exact .head .call (Relation.ReflTransGen.trans hbody (ih y hp))
    · exact absurd hp (by simp)

theorem performCall_advances (n : Nat) (c : Call κ) (s : Stage κ) (x : c.Answer) (t : Stage κ)
    (h : performCall body n c s = some (x, t)) : Advances body (body c, s) (.done x, t) := by
  induction n generalizing c s x t with
  | zero => exact absurd h (by simp [performCall])
  | succ n ih => exact performWith_advances ih h

/-- **A flow that is carried out** (`perform`) advances to its end. -/
theorem perform_advances {n : Nat} {x : α} (h : perform body n f s = some (x, t)) :
    Advances body (f, s) (.done x, t) :=
  performWith_advances (performCall_advances n) h

/-! ## Contracts are kept on the way -/

/-- **A step** (`Advance`) keeps what a flow meets. Going into a call, it is the body that has to be
met. -/
theorem Advance.meets {x y : Flow κ α × Stage κ} (h : Advance body x y) (hb : Honours C body)
    (refl : ∀ s, R s s) (hR : ∀ s t, R s t → C.inv s → C.inv t)
    (hm : ∀ c s t, C.moves c s t → R s t) (hi : C.inv x.2) (hx : Meets C R x.1 Q x.2) :
    C.inv y.2 ∧ R x.2 y.2 ∧ Meets C R y.1 Q y.2 := by
  cases h with
  | get => exact ⟨hi, refl _, hx⟩
  | set =>
    obtain ⟨hmove, hnext⟩ := hx
    have ht := hR _ _ hmove hi
    exact ⟨ht, hmove, hnext ht⟩
  | @call c next s =>
    obtain ⟨hneeds, -, hnext⟩ := hx
    refine ⟨hi, refl _, (meets_bind' _ _ _).mpr ?_⟩
    exact (hb.ends hi hneeds).mono (hm c) fun x t ⟨hmoves, ht, hgives⟩ =>
      hnext x t ht hmoves hgives

/-- **Contracts are kept on the way** (`Meets`). -/
theorem Advances.meets {x y : Flow κ α × Stage κ} (h : Advances body x y) (hb : Honours C body)
    (refl : ∀ s, R s s) (trans : ∀ s t u, R s t → R t u → R s u)
    (hR : ∀ s t, R s t → C.inv s → C.inv t) (hm : ∀ c s t, C.moves c s t → R s t)
    (hi : C.inv x.2) (hx : Meets C R x.1 Q x.2) :
    C.inv y.2 ∧ R x.2 y.2 ∧ Meets C R y.1 Q y.2 := by
  induction h with
  | refl => exact ⟨hi, refl _, hx⟩
  | tail _ hstep ih =>
    obtain ⟨hi', hmoved, hmeets⟩ := ih
    obtain ⟨hi'', hmove, hmeets⟩ := hstep.meets hb refl hR hm hi' hmeets
    exact ⟨hi'', trans _ _ _ hmoved hmove, hmeets⟩

end Troupe.Flow
