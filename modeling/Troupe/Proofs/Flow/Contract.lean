import Troupe.Flow.Basic

/-!
# Contracts for flows

A flow is re-entrant, so what it does can only be said relative to what its calls do. A `Contract`
says of every call what it needs (`needs`), how it may move the stage (`moves`) and what it comes to
(`gives`), and names an invariant that every move keeps. `Flow.Meets C R f Q s` says that the flow
`f`, begun on `s`, only makes `R`-moves, calls nothing whose need is not met, and ends with `Q`,
provided that its calls keep to `C`. It is computed from the flow like a weakest precondition:
`meets_bind`, `meets_ask`, `meets_edit`, `meets_invoke`.

That bodies keep to the contract (`Honours`) is shown one body at a time, each relying on what the
calls in it give (`Honours.ends`). Why this is enough is said where flows are carried out step by
step (`Advances.meets`).

Headlines:
* **`Flow.Meets.mono`**, **`Flow.Meets.and`**: weaker ends, wider moves, and two ends at once.
* **`Flow.Meets.within`**, **`Flow.Meets.inv`**: what is known at the end besides.
-/

namespace Troupe

variable {κ : App} {α β : Type}

/-- What calls need, how they may move the stage and what they come to (`Call.Answer`). -/
structure Contract (κ : App) where
  inv : Stage κ → Prop
  moves : Call κ → Stage κ → Stage κ → Prop
  needs : Call κ → Stage κ → Prop
  gives : (c : Call κ) → Stage κ → c.Answer → Stage κ → Prop
  moves_refl : ∀ c s, moves c s s
  moves_trans : ∀ c {s t u}, moves c s t → moves c t u → moves c s u
  moves_inv : ∀ c {s t}, moves c s t → inv s → inv t

namespace Flow

variable {C : Contract κ} {R R' : Stage κ → Stage κ → Prop} {Q Q' : α → Stage κ → Prop}

/-- Begun on a stage, the flow makes `R`-moves only and ends with `Q`, if its calls keep to the
contract. -/
def Meets (C : Contract κ) (R : Stage κ → Stage κ → Prop) :
    Flow κ α → (α → Stage κ → Prop) → Stage κ → Prop
  | done a, Q, s => Q a s
  | get next, Q, s => Meets C R (next s) Q s
  | set t next, Q, s => R s t ∧ (C.inv t → Meets C R next Q t)
  | call c next, Q, s => C.needs c s ∧ (∀ t, C.moves c s t → R s t) ∧
      ∀ x t, C.inv t → C.moves c s t → C.gives c s x t → Meets C R (next x) Q t

/-! ## Rules -/

@[simp] theorem meets_done (a : α) (s : Stage κ) : Meets C R (done a) Q s ↔ Q a s := Iff.rfl

@[simp] theorem meets_pure (a : α) (s : Stage κ) :
    Meets C R (pure a : Flow κ α) Q s ↔ Q a s := Iff.rfl

theorem meets_bind' (f : Flow κ α) (g : α → Flow κ β) {Q : β → Stage κ → Prop} (s : Stage κ) :
    Meets C R (f.bind g) Q s ↔ Meets C R f (fun x t => Meets C R (g x) Q t) s := by
  induction f generalizing s with
  | done a => exact Iff.rfl
  | get next ih => exact ih s s
  | set t next ih => exact and_congr_right fun _ => forall_congr' fun _ => ih t
  | call c next ih =>
    refine and_congr_right fun _ => and_congr_right fun _ => ?_
    exact forall_congr' fun x => forall_congr' fun t => forall_congr' fun _ =>
      forall_congr' fun _ => forall_congr' fun _ => ih x t

@[simp] theorem meets_bind (f : Flow κ α) (g : α → Flow κ β) {Q : β → Stage κ → Prop}
    (s : Stage κ) :
    Meets C R (f >>= g) Q s ↔ Meets C R f (fun x t => Meets C R (g x) Q t) s :=
  meets_bind' f g s

@[simp] theorem meets_ask (f : Platform κ → α) (s : Stage κ) :
    Meets C R (ask f) Q s ↔ Q (f s.platform) s := Iff.rfl

@[simp] theorem meets_get_done {Q : Stage κ → Stage κ → Prop} (s : Stage κ) :
    Meets C R (get done) Q s ↔ Q s s := Iff.rfl

@[simp] theorem meets_onStage (f : Stage κ → α × Stage κ) (s : Stage κ) :
    Meets C R (onStage f) Q s ↔ R s (f s).2 ∧ (C.inv (f s).2 → Q (f s).1 (f s).2) := Iff.rfl

@[simp] theorem meets_modify (f : Stage κ → Stage κ) {Q : Unit → Stage κ → Prop} (s : Stage κ) :
    Meets C R (modify f) Q s ↔ R s (f s) ∧ (C.inv (f s) → Q () (f s)) := Iff.rfl

@[simp] theorem meets_edit (f : Platform κ → Platform κ) {Q : Unit → Stage κ → Prop}
    (s : Stage κ) :
    Meets C R (edit f) Q s ↔ R s (s.edit f) ∧ (C.inv (s.edit f) → Q () (s.edit f)) := Iff.rfl

@[simp] theorem meets_invoke (c : Call κ) {Q : c.Answer → Stage κ → Prop} (s : Stage κ) :
    Meets C R (invoke c) Q s ↔ C.needs c s ∧ (∀ t, C.moves c s t → R s t) ∧
      ∀ x t, C.inv t → C.moves c s t → C.gives c s x t → Q x t := Iff.rfl

theorem meets_ite {b : Prop} [Decidable b] {f g : Flow κ α} {s : Stage κ}
    (hf : b → Meets C R f Q s) (hg : ¬ b → Meets C R g Q s) :
    Meets C R (if b then f else g) Q s := by
  split
  · exact hf ‹b›
  · exact hg ‹¬ b›

/-- A weaker end and wider moves (`Contract`). -/
theorem Meets.mono {f : Flow κ α} {s : Stage κ} (h : Meets C R f Q s)
    (hR : ∀ s t, R s t → R' s t) (hQ : ∀ x t, Q x t → Q' x t) : Meets C R' f Q' s := by
  induction f generalizing s with
  | done a => exact hQ a s h
  | get next ih => exact ih s h
  | set t next ih => exact ⟨hR _ _ h.1, fun hi => ih (h.2 hi)⟩
  | call c next ih =>
    obtain ⟨hn, hm, hk⟩ := h
    exact ⟨hn, fun t ht => hR _ _ (hm t ht), fun x t hi ht hg => ih x (hk x t hi ht hg)⟩

/-- Calls may need less (`Contract.needs`). -/
theorem Meets.relax {f : Flow κ α} {s : Stage κ} {needs : Call κ → Stage κ → Prop}
    (h : Meets C R f Q s) (hn : ∀ c s, C.needs c s → needs c s) :
    Meets { C with needs } R f Q s := by
  induction f generalizing s with
  | done a => exact h
  | get next ih => exact ih s h
  | set t next ih => exact ⟨h.1, fun hi => ih (h.2 hi)⟩
  | call c next ih =>
    exact ⟨hn c s h.1, h.2.1, fun x t hi ht hg => ih x (h.2.2 x t hi ht hg)⟩

/-- Two ends at once (`Meets`). It is enough to know of one of them that what calls need is met. -/
theorem Meets.and {f : Flow κ α} {s : Stage κ} {needs : Call κ → Stage κ → Prop}
    (h : Meets C R f Q s) (h' : Meets { C with needs } R f Q' s) :
    Meets C R f (fun x t => Q x t ∧ Q' x t) s := by
  induction f generalizing s with
  | done a => exact ⟨h, h'⟩
  | get next ih => exact ih s h h'
  | set t next ih => exact ⟨h.1, fun hi => ih (h.2 hi) (h'.2 hi)⟩
  | call c next ih =>
    exact ⟨h.1, h.2.1, fun x t hi ht hg => ih x (h.2.2 x t hi ht hg) (h'.2.2 x t hi ht hg)⟩

/-- A flow ends an `R`-move away from where it began; in wider surroundings this is worth
knowing. -/
theorem Meets.within {f : Flow κ α} {s₀ s : Stage κ} (h : Meets C R f Q s)
    (hR : ∀ s t, R s t → R' s t) (trans : ∀ s t u, R s t → R t u → R s u) (hs : R s₀ s) :
    Meets C R' f (fun x t => R s₀ t ∧ Q x t) s := by
  induction f generalizing s with
  | done a => exact ⟨hs, h⟩
  | get next ih => exact ih s h hs
  | set t next ih => exact ⟨hR _ _ h.1, fun hi => ih (h.2 hi) (trans _ _ _ hs h.1)⟩
  | call c next ih =>
    obtain ⟨hn, hm, hk⟩ := h
    exact ⟨hn, fun t ht => hR _ _ (hm t ht),
      fun x t hi ht hg => ih x (hk x t hi ht hg) (trans _ _ _ hs (hm t ht))⟩

/-- The invariant is known at the end (`Meets`). -/
theorem Meets.inv {f : Flow κ α} {s : Stage κ} (h : Meets C R f Q s) (hi : C.inv s) :
    Meets C R f (fun x t => C.inv t ∧ Q x t) s := by
  induction f generalizing s with
  | done a => exact ⟨hi, h⟩
  | get next ih => exact ih s h hi
  | set t next ih => exact ⟨h.1, fun ht => ih (h.2 ht) ht⟩
  | call c next ih => exact ⟨h.1, h.2.1, fun x t ht hm hg => ih x (h.2.2 x t ht hm hg) ht⟩

/-- Every body does what the contract says of its call (`Meets`). -/
def Honours (C : Contract κ) (body : (c : Call κ) → Flow κ c.Answer) : Prop :=
  ∀ c s, C.inv s → C.needs c s → Meets C (C.moves c) (body c) (C.gives c s) s

/-- At the end of a body (`Meets`) all is known that a caller may rely on. -/
theorem Honours.ends {body : (c : Call κ) → Flow κ c.Answer} {c : Call κ} {s : Stage κ}
    (h : Honours C body) (hi : C.inv s) (hn : C.needs c s) : Meets C (C.moves c) (body c)
      (fun x t => C.moves c s t ∧ C.inv t ∧ C.gives c s x t) s :=
  ((h c s hi hn).inv hi).within (fun _ _ h => h) (fun _ _ _ => C.moves_trans c)
    (C.moves_refl c s)

end Flow

end Troupe
