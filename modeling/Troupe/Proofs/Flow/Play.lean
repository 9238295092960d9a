import Troupe.Flow.Basic

/-!
# Flows carried out as far as it goes

A flow whose calls nest too deep has no result, and `Flow.perform` says no more of it. `Flow.play`
goes on to the first call that is too deep and keeps the stage reached there (`playCall`,
`resumeWith`), with no answer. So of work that never ends, too, it can be told what it does: the
deeper it is played, the more of it.

This is what is compared where two platforms are to do the same (`Flow.Blind`): it is not enough
that one of them comes to the result of the other, since neither may come to any.

* `play` follows `performWith` step by step; `playWith` is the same for any way of answering calls.
* `ending` forgets how far an unfinished flow has come.

Headlines:
* **`perform_eq_play`**: whatever is performed is played to its end (`ending`), and what has no
  result has none when it is played.
* `playWith_bind`: a flow is played in front of another as it is alone.
-/

namespace Troupe.Flow

variable {κ : App} {α β : Type}

/-- Goes on with a result (`playWith`), if there is one. -/
def resumeWith (x : Option α × Stage κ) (k : α → Stage κ → Option β × Stage κ) :
    Option β × Stage κ :=
  match x with
  | (some a, s) => k a s
  | (none, s) => (none, s)

/-- Carries a flow out to the first call without a result (`Flow.call`). -/
def playWith (answer : (c : Call κ) → Stage κ → Option c.Answer × Stage κ) :
    Flow κ α → Stage κ → Option α × Stage κ
  | done a, s => (some a, s)
  | get next, s => playWith answer (next s) s
  | set s next, _ => playWith answer next s
  | call c next, s => resumeWith (answer c s) fun x s => playWith answer (next x) s

/-- Carries a call out (`body`) to the first one that is nested too deep. -/
def playCall (body : (c : Call κ) → Flow κ c.Answer) :
    (depth : Nat) → (c : Call κ) → Stage κ → Option c.Answer × Stage κ
  | 0, _, s => (none, s)
  | n + 1, c, s => playWith (playCall body n) (body c) s

/-- Carries a flow out to the first call that is nested more than `depth` deep: what it comes to, if
there is none, and the stage that is reached. -/
def play (body : (c : Call κ) → Flow κ c.Answer) (depth : Nat) (f : Flow κ α) (s : Stage κ) :
    Option α × Stage κ :=
  playWith (playCall body depth) f s

/-- What comes of playing a flow to its end (`playWith`). -/
def ending (x : Option α × Stage κ) : Option (α × Stage κ) :=
  x.1.map fun a => (a, x.2)

variable {answer : (c : Call κ) → Stage κ → Option c.Answer × Stage κ} {f : Flow κ α} {s : Stage κ}

theorem resumeWith_assoc {γ : Type} (x : Option α × Stage κ)
    (k : α → Stage κ → Option β × Stage κ) (l : β → Stage κ → Option γ × Stage κ) :
    resumeWith (resumeWith x k) l = resumeWith x fun a s => resumeWith (k a s) l := by
  obtain ⟨_ | a, s⟩ := x <;> rfl

theorem playWith_bind (f : Flow κ α) (k : α → Flow κ β) (s : Stage κ) :
    playWith answer (f.bind k) s =
      resumeWith (playWith answer f s) fun x s => playWith answer (k x) s := by
  induction f generalizing s with
  | done x => rfl
  | get next ih => exact ih s s
  | set t next ih => exact ih t
  | call c next ih =>
    rw [bind, playWith, playWith, resumeWith_assoc]
    exact congrArg (resumeWith _) (funext fun x => funext fun s => ih x s)

/-- If calls end in the same way, the flow does (`performWith`). -/
theorem performWith_eq {full : (c : Call κ) → Stage κ → Option (c.Answer × Stage κ)}
    (h : ∀ c s, full c s = ending (answer c s)) :
    performWith full f s = ending (playWith answer f s) := by
  induction f generalizing s with
  | done x => rfl
  | get next ih => exact ih s
  | set t next ih => exact ih
  | call c next ih =>
    rw [performWith, playWith, h]
    obtain ⟨_ | x, t⟩ := answer c s
    · rfl
    · exact ih x

theorem performCall_eq (body : (c : Call κ) → Flow κ c.Answer) (depth : Nat) (c : Call κ)
    (s : Stage κ) : performCall body depth c s = ending (playCall body depth c s) := by
  induction depth generalizing c s with
  | zero => rfl
  | succ n ih => exact performWith_eq ih

/-- **Whatever is performed** (`perform`) is played to its end. -/
theorem perform_eq_play (body : (c : Call κ) → Flow κ c.Answer) (depth : Nat) (f : Flow κ α)
    (s : Stage κ) : perform body depth f s = ending (play body depth f s) :=
  performWith_eq (performCall_eq body depth)

end Troupe.Flow
