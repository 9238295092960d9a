import Troupe.Error
import Troupe.Script.Basic

/-!
# Frames

A `Frame` is one activation of a script or of one of its functions: a position in the code
(`CodeRef`, `Frame.ip`), an operand stack, local variables, and the heap cells that go away with it
(`Frame.owned`). `Frame.main` and `Frame.call` make one; the arguments of a function are its first
variables.

* An operand is a `Datum`; a `Datum.ref` names a cell of the heap, a `Datum.fn` a function by its
  number among those of the script.
* Taking operands fails when there are too few (`Frame.pop`, `Frame.peek`, `Frame.popMany`), or when
  they are of another kind (`Frame.popInt`). A failed `Frame.popInt` has taken the operand.
* A variable that was never set is an error to read (`Frame.load`), unless one behind it was set:
  `Frame.store` fills what is between with nil.
* `Frame.fetch` answers the instruction at the position. Behind the end of the code there is none,
  which is a return (`Flow.leaveFrame`).
* `Frame.give` hands a cell over to another frame, if this one owns it, which is how a result
  outlives the frame that made it. Cells that stay are not kept in order (`swapRemove`), but nobody
  asks for their order.
-/

namespace Troupe

/-- What stands on an operand stack or in a variable (`Datum`). A reference names a heap cell. -/
inductive Datum
  | nil
  | int (n : Int)
  | ref (cell : Nat)
  | fn (index : Nat)
  deriving DecidableEq, Inhabited

/-- Which code of a script a frame runs (`CodeRef`). -/
inductive CodeRef
  | main
  | fn (index : Nat)
  deriving DecidableEq

/-- An activation (`Frame`). -/
structure Frame (κ : App) where
  name : String
  script : Script κ
  code : CodeRef
  ip : Nat := 0
  /-- The operands, the top first. -/
  stack : List Datum := []
  locals : List Datum := []
  owned : List Nat := []

namespace Frame

variable {κ : App}

/-- An activation of a whole script (`Frame::main`). -/
def main (script : Script κ) : Frame κ :=
  { name := "main", script, code := .main }

/-- An activation of a function, whose variables start with the arguments (`Frame::call`). -/
def call (script : Script κ) (name : String) (index : Nat) (args : List Datum) : Frame κ :=
  { name, script, code := .fn index, locals := args }

/-- The instruction at the position, unless the code has ended (`Frame::fetch`). -/
def fetch (f : Frame κ) : Option Instr :=
  match f.code with
  | .main => f.script.code[f.ip]?
  | .fn i =>
    match f.script.functions[i]? with
    | some ⟨_, _, .code instrs⟩ => instrs[f.ip]?
    | _ => none

/-- Puts an operand on the stack (`Frame::push`). -/
def push (f : Frame κ) (d : Datum) : Frame κ :=
  { f with stack := d :: f.stack }

/-- Takes the top operand (`Frame::pop`). -/
def pop (f : Frame κ) (op : String) : Except ScriptError (Datum × Frame κ) :=
  match f.stack with
  | d :: rest => .ok (d, { f with stack := rest })
  | [] => .error (.stackUnderflow op)

/-- The top operand (`Frame::peek`). -/
def peek (f : Frame κ) (op : String) : Except ScriptError Datum :=
  match f.stack with
  | d :: _ => .ok d
  | [] => .error (.stackUnderflow op)

/-- Takes the top operand, which should be a number (`pop_int`). It is gone even if it is none. -/
def popInt (f : Frame κ) (op : String) : Except ScriptError Int × Frame κ :=
  match f.stack with
  | .int n :: rest => (.ok n, { f with stack := rest })
  | _ :: rest => (.error (.typeMismatch op "int"), { f with stack := rest })
  | [] => (.error (.stackUnderflow op), f)

/-- Takes the top `n` operands (`pop_n`); answers them in the order in which they were pushed. -/
def popMany (f : Frame κ) (n : Nat) (op : String) : Except ScriptError (List Datum × Frame κ) :=
  if f.stack.length < n then .error (.stackUnderflow op)
  else .ok ((f.stack.take n).reverse, { f with stack := f.stack.drop n })

/-- The value of a variable (`Frame::load`). -/
def load (f : Frame κ) (i : Nat) : Except ScriptError Datum :=
  match f.locals[i]? with
  | some d => .ok d
  | none => .error (.missingConstant "local" i)

/-- Sets a variable (`Frame::store`); variables before it that are not there yet become nil. -/
def store (f : Frame κ) (i : Nat) (d : Datum) : Frame κ :=
  let padded := f.locals ++ List.replicate (i + 1 - f.locals.length) .nil
  { f with locals := padded.set i d }

/-- The list without the item at position `i`, whose place the last item takes (`swap_remove`). -/
def swapRemove (xs : List Nat) (i : Nat) : List Nat :=
  match xs.getLast? with
  | some last => (xs.set i last).dropLast
  | none => []

/-- Hands a cell over to another frame, if it is this frame's (`Frame::give`). -/
def give (f : Frame κ) (cell : Nat) (other : Frame κ) : Frame κ × Frame κ :=
  match f.owned.findIdx? (· == cell) with
  | some i =>
    ({ f with owned := swapRemove f.owned i }, { other with owned := other.owned ++ [cell] })
  | none => (f, other)

end Frame

end Troupe
