import Troupe.Decimal.Shortest

/-!
# Messages

What actors send one another: null, booleans, numbers, strings, arrays and objects (`Message`, which
stands for `serde_json::Value`).

* A whole number (`Number.whole`) and a fractional one (`Number.fractional`) are different numbers
  even when their values agree. The two zeros of binary arithmetic are one (`Number.same`), so
  `Message.same` is coarser than equality.
* The fields of an object stand in ascending order of their names, each name once.
  `Message.ofFields` brings them into that form, with `Message.putField` for each: a name that is
  given twice has the last value. `Message.get?` looks one up, and finds none in anything but an
  object.

Whole numbers are not bounded here. Where one has to fit a machine word, that is asked for
(`Message.toCount`).
-/

namespace Troupe

open Decimal

/-- A number in a message: a whole number, or one with a fractional part written out (`Double`). -/
inductive Number
  | whole (n : Int)
  | fractional (x : Double)
  deriving DecidableEq, Inhabited

/-- Equality of numbers (`Double.same`). -/
def Number.same : Number → Number → Bool
  | .whole m, .whole n => m == n
  | .fractional x, .fractional y => x.same y
  | _, _ => false

/-- A message, the source's `serde_json::Value`. -/
inductive Message
  | null
  | bool (b : Bool)
  | number (n : Number)
  | string (s : String)
  | array (items : List Message)
  | object (fields : List (String × Message))
  deriving Inhabited

namespace Message

/-- A whole number as a message. -/
def ofInt (n : Int) : Message :=
  .number (.whole n)

/-- Puts one field into an ascending list of fields, for `ofFields`; a field of that name is
replaced. -/
def putField (name : String) (value : Message) : List (String × Message) → List (String × Message)
  | [] => [(name, value)]
  | (n, v) :: rest =>
    match compare name n with
    | .lt => (name, value) :: (n, v) :: rest
    | .eq => (name, value) :: rest
    | .gt => (n, v) :: putField name value rest

/-- The object with these fields (`putField`); of two fields of one name the later wins. -/
def ofFields (fields : List (String × Message)) : Message :=
  .object (fields.foldl (fun acc f => putField f.1 f.2 acc) [])

/-- The field of an object, if the message is an object that has it. -/
def get? (m : Message) (name : String) : Option Message :=
  match m with
  | .object fields => fields.lookup name
  | _ => none

mutual

/-- Equality of messages (`Number.same`). -/
def same : Message → Message → Bool
  | .null, .null => true
  | .bool a, .bool b => a == b
  | .number a, .number b => a.same b
  | .string a, .string b => a == b
  | .array a, .array b => sameItems a b
  | .object a, .object b => sameFields a b
  | _, _ => false

/-- Equality of arrays: item by item (`same`). -/
def sameItems : List Message → List Message → Bool
  | [], [] => true
  | a :: as, b :: bs => same a b && sameItems as bs
  | _, _ => false

/-- Equality of objects: field by field (`same`). -/
def sameFields : List (String × Message) → List (String × Message) → Bool
  | [], [] => true
  | (n, a) :: as, (m, b) :: bs => n == m && same a b && sameFields as bs
  | _, _ => false

end

end Message

end Troupe
