import Troupe.Proofs.Flow.Activities
import Troupe.Proofs.Flow.Stepwise

/-!
# What flows call

A flow makes its calls one after the other, each when those before it have returned (`Flow.Makes`,
`Flow.Returns`). What it meets says of every call it makes that its need is met.

The turns of a script are calls: the body of `Call.resume` carries out one instruction and then
calls `Call.resume` for the rest, or calls it for another script while a demand is met. So where a
script is (`Point`), and where scripts are next (`Point.Follows`), is said by what bodies call, and
how the machines of the two differ is `Machine.Onward`.

Headlines:
* **`Flow.Returns.kept`**: a call that returns has kept to the discipline.
* **`Flow.Makes.needed`**: the calls that a flow makes get what it says they need.
* **`Point.Follows.onward`**: from one turn of a script to the next.
-/

namespace Troupe

variable {κ : App} {α : Type}

namespace Flow

open Platform

variable {code : Code κ} {f : Flow κ α} {c : Call κ} {s t : Stage κ} {Q : α → Stage κ → Prop}
  {N : Machine κ → Nat → Prop}

/-- Begun on `s`, the call returns `x` on `t`. -/
def Returns (body : (c : Call κ) → Flow κ c.Answer) (c : Call κ) (s : Stage κ) (x : c.Answer)
    (t : Stage κ) : Prop :=
  Advances body (body c, s) (.done x, t)

/-- Begun on a stage, the flow makes a call on another. Calls within calls are not its own
(`Flow.call`). -/
inductive Makes (body : (c : Call κ) → Flow κ c.Answer) :
    Flow κ α → Stage κ → Call κ → Stage κ → Prop
  | here {c : Call κ} {next : c.Answer → Flow κ α} {s : Stage κ} : Makes body (.call c next) s c s
  | get {next : Stage κ → Flow κ α} {s t : Stage κ} {c : Call κ} :
      Makes body (next s) s c t → Makes body (.get next) s c t
  | set {next : Flow κ α} {s t u : Stage κ} {c : Call κ} :
      Makes body next u c t → Makes body (.set u next) s c t
  | past {d c : Call κ} {next : d.Answer → Flow κ α} {s t u : Stage κ} {x : d.Answer} :
      Returns body d s x u → Makes body (next x) u c t → Makes body (.call d next) s c t

/-- A flow advances to the calls it makes (`Advances`). -/
theorem Makes.advances {body : (c : Call κ) → Flow κ c.Answer} (h : Makes body f s c t) :
    ∃ next, Advances body (f, s) (.call c next, t) := by
  induction h with
  | here => exact ⟨_, .refl⟩
  | get _ ih => exact ih.imp fun _ h => .head .get h
  | set _ ih => exact ih.imp fun _ h => .head .set h
  | past hr _ ih =>
    exact ih.imp fun _ h => .head .call (Relation.ReflTransGen.trans (hr.bind _) h)

/-- **A call that returns** has kept to the discipline (`discipline`). -/
theorem Returns.kept {x : c.Answer} (h : Returns (body code) c s x t) (hi : s.platform.Inv)
    (hn : (discipline Event.Any).needs c s) :
    t.platform.Inv ∧ (discipline Event.Any).moves c s t ∧ (discipline Event.Any).gives c s x t := by
  have hkept : Honours (discipline Event.Any) (body code) := honours_discipline code.publishes_any
  have hbody : Meets (discipline Event.Any) (WithinOuter Event.Any) (body code c) _ s :=
    (hkept.ends hi hn).mono (fun _ _ => withinOuter_of_moves) fun _ _ h => h
  obtain ⟨-, -, hmoves, hi', hgives⟩ := Advances.meets h (R := WithinOuter Event.Any) hkept
    (fun _ => Outer.refl _) (fun _ _ _ => Outer.trans) (fun _ _ => Inv.outer)
    (fun _ _ _ => withinOuter_of_moves) hi hbody
  exact ⟨hi', hmoves, hgives⟩

/-- **The calls that a flow makes** get what it says they need (`needsOf`). -/
theorem Makes.needed {R : Stage κ → Stage κ → Prop} (h : Makes (body code) f s c t)
    (hN : ∀ m b, N m b → m.Sound) (hR : ∀ s t, R s t → s.platform.Inv → t.platform.Inv)
    (hi : s.platform.Inv) (hf : Meets (rules N Event.Any) R f Q s) :
    t.platform.Inv ∧ needsOf N c t.platform := by
  induction h with
  | here => exact ⟨hi, hf.1⟩
  | get _ ih => exact ih hi hf
  | set _ ih =>
    have hu := hR _ _ hf.1 hi
    exact ih hu (hf.2 hu)
  | @past d c next s t u x hr _ ih =>
    obtain ⟨hn, -, hnext⟩ := hf
    have hneeds : (discipline Event.Any).needs d s := by
      cases d with
      | resume m b => exact hN m b hn
      | start | flush | drain | await | run => exact hn
    obtain ⟨hu, hmoves, hgives⟩ := hr.kept hi hneeds
    exact ih hu (hnext x u hu hmoves hgives)

end Flow

open Troupe.Flow

/-- Where a script is: its machine, the number of frames below it, and the stage. -/
structure Point (κ : App) where
  machine : Machine κ
  base : Nat
  stage : Stage κ

namespace Point

variable {code : Code κ} {x y : Point κ}

/-- The rest of the script (`Call.resume`). -/
def rest (x : Point κ) : Call κ :=
  .resume x.machine x.base

/-- A turn of the script at `x` leads to `y`, or lets the script there begin. -/
def Follows (code : Code κ) (x y : Point κ) : Prop :=
  Makes (body code) (body code x.rest) x.stage y.rest y.stage

/-- **From one turn to the next** (`Machine.Onward`). -/
theorem Follows.onward (h : Follows code x y) (hi : x.stage.platform.Inv)
    (hs : x.machine.Sound) : y.stage.platform.Inv ∧
      Machine.Onward x.base x.machine y.machine y.base :=
  Makes.needed h (fun _ _ hon => hon.sound hs) (fun _ _ => Platform.Inv.nested) hi
    (runMachine_resumed code.publishes_any x.machine x.base x.stage hi)

end Point

end Troupe
