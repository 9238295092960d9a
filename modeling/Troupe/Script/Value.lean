import Troupe.App

/-!
# Values

What scripts compute with, as seen from outside (`Value`): nothing, a whole number, a text, a
message or a template. Foreign functions get values and answer one (`Code.foreign`), and a script
that was run answers one (`Operation.eval`, `Request.exec`). Inside a machine a value is an operand
(`Datum`) that may refer to the heap; `Machine.resolve` and `Machine.pushValue` go from one to the
other.

* `Value.asInt?`, `Value.asStr?` and `Value.toMessage` say what a value is good for. A template has
  no form as a message: it becomes null, as nothing does.
* `Value.same` says when two values are equal. Templates hold code, so no template equals another,
  and none equals itself.

Numbers are not bounded here. No instruction computes with them, so a number is one that somebody
wrote down, or a count.
-/

namespace Troupe

/-- A value of a script (`Value`). -/
inductive Value (κ : App)
  | nil
  | int (n : Int)
  | str (s : String)
  | message (m : Message)
  | template (t : Template κ)

namespace Value

variable {κ : App}

instance : Inhabited (Value κ) := ⟨nil⟩

/-- The number, if the value is one (`as_int`). -/
def asInt? : Value κ → Option Int
  | int n => some n
  | _ => none

/-- The text, if the value is one (`Value::as_str`). -/
def asStr? : Value κ → Option String
  | str s => some s
  | _ => none

/-- The value as a message (`into_message`); a template has no form as a message. -/
def toMessage : Value κ → Message
  | nil => .null
  | template _ => .null
  | int n => .ofInt n
  | str s => .string s
  | message m => m

/-- The name of the type of a value (`type_name`). -/
def typeName : Value κ → String
  | nil => "nil"
  | int _ => "int"
  | str _ => "str"
  | message _ => "message"
  | template _ => "template"

/-- Equality of values (`Value::eq`). Templates hold code and never equal one another. -/
def same : Value κ → Value κ → Bool
  | nil, nil => true
  | int a, int b => a == b
  | str a, str b => a == b
  | message a, message b => a.same b
  | _, _ => false

end Value

end Troupe
