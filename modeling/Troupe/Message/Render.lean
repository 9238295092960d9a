import Troupe.Message.Basic
import Troupe.Text.Quoted

/-!
# The texts of a message

Two texts are made of a message:

* `Message.render` is the compact text in which messages are logged and raised (`Display`): no
  blanks, fields in order (`renderFields`), strings escaped as little as the format allows
  (`renderString`, `escapeChar`), other characters as they are.
* `Message.inspect` is the text for diagnostics (`Debug`), in which every part names its kind
  (`inspectItems`, `inspectFields`) and strings are quoted (`Text.quoted`).

A fractional number is written with the fewest digits that still read back, in both
(`Number.render`: `Number.layout` says how, `Double.render` does it). It shows a point or an
exponent even if its value is whole, so the kind of a number shows in its text.
-/

namespace Troupe

open Decimal Text

/-- Fractional numbers are written positionally (`Layout`) up to sixteen digits before the point and
four zeros after it, and always show a point or an exponent with its sign. -/
def Number.layout : Layout :=
  ⟨16, 4, ".0", "e", "e+"⟩

/-- The text of a number (`Double.render`). -/
def Number.render : Number → String
  | .whole n => toString n
  | .fractional x => x.render layout

namespace Message

/-- Four hexadecimal digits. -/
def hex4 (n : Nat) : List Char :=
  let ds := hex n
  List.replicate (4 - ds.length) '0' ++ ds

/-- How a character stands in the text of a string: quotes, backslashes and controls are escaped
(`hex4`). -/
def escapeChar (c : Char) : List Char :=
  if c = '"' || c = '\\' then ['\\', c]
  else if c = '\n' then ['\\', 'n']
  else if c = '\t' then ['\\', 't']
  else if c = '\r' then ['\\', 'r']
  else if c = '\x08' then ['\\', 'b']
  else if c = '\x0c' then ['\\', 'f']
  else if c.toNat < 0x20 then '\\' :: 'u' :: hex4 c.toNat
  else [c]

/-- A string between quotes (`escapeChar`). -/
def renderString (s : String) : String :=
  String.ofList ('"' :: s.toList.flatMap escapeChar ++ ['"'])

mutual

/-- The compact text of a message (`to_string`). -/
def render : Message → String
  | .null => "null"
  | .bool b => if b then "true" else "false"
  | .number n => n.render
  | .string s => renderString s
  | .array items => "[" ++ ",".intercalate (renderItems items) ++ "]"
  | .object fields => "\x7b" ++ ",".intercalate (renderFields fields) ++ "\x7d"

/-- The texts of the items of an array (`render`). -/
def renderItems : List Message → List String
  | [] => []
  | m :: rest => render m :: renderItems rest

/-- The texts of the fields of an object (`render`). -/
def renderFields : List (String × Message) → List String
  | [] => []
  | (name, m) :: rest => (renderString name ++ ":" ++ render m) :: renderFields rest

end

mutual

/-- The text of a message for diagnostics (`Debug`). -/
def inspect : Message → String
  | .null => "Null"
  | .bool b => "Bool(" ++ (if b then "true" else "false") ++ ")"
  | .number n => "Number(" ++ n.render ++ ")"
  | .string s => "String(" ++ quoted s ++ ")"
  | .array items => "Array [" ++ ", ".intercalate (inspectItems items) ++ "]"
  | .object fields => "Object \x7b" ++ ", ".intercalate (inspectFields fields) ++ "\x7d"

/-- The texts of the items of an array for diagnostics (`inspect`). -/
def inspectItems : List Message → List String
  | [] => []
  | m :: rest => inspect m :: inspectItems rest

/-- The texts of the fields of an object for diagnostics (`inspect`). -/
def inspectFields : List (String × Message) → List String
  | [] => []
  | (name, m) :: rest => (quoted name ++ ": " ++ inspect m) :: inspectFields rest

end

end Message

end Troupe
