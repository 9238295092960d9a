import Troupe.Config
import Troupe.Error
import Troupe.Message.Envelope
import Troupe.Message.Render

/-!
# Reading records from messages

Addresses, envelopes and configurations can be read from a message (`Deserialize`):
`Message.toAddress`, `Envelope.ofMessage`, `Config.ofMessage`. The way back of an envelope is
`Envelope.toMessage`, and that of an address its text.

* A record is an object with its fields by name, or an array with its fields in order
  (`Config.fieldNames`). Names that the record does not have are passed over; an array that is too
  long is an error.
* A configuration has no missing fields: what is not given keeps its default. The fields of an
  envelope are all required (`Envelope.Draft`, `Draft.finish`).
* `DecodeError` says what is wrong with a message that is no such record, and `DecodeError.message`
  words it (`Message.describe` for what was found). The first fault in the order of the message
  wins; missing fields are reported last.
* An address is parsed as any other (`Address.parse`), so a text that is none is refused with the
  same words (`PlatformError.message`).

Out of scope: a field that is given twice. A message has each name once (`Message.ofFields`).
-/

namespace Troupe

/-- Why a message is not the record that was asked for (`Config`, `Envelope`). -/
inductive DecodeError
  | wrongType (found : Message) (expected : String)
  | wrongValue (found : Message) (expected : String)
  | wrongLength (found : Nat) (expected : String)
  | missingField (name : String)
  | invalidAddress (error : PlatformError)

/-- How a message is named where another was expected (`DecodeError.message`). -/
def Message.describe : Message → String
  | .null => "null"
  | .bool b => "boolean `" ++ (if b then "true" else "false") ++ "`"
  | .number (.whole n) => "integer `" ++ toString n ++ "`"
  | .number (.fractional x) => "floating point `" ++ x.render Number.layout ++ "`"
  | .string s => "string " ++ Text.quoted s
  | .array _ => "sequence"
  | .object _ => "map"

/-- The text of an error. -/
def DecodeError.message : DecodeError → String
  | wrongType found expected => "invalid type: " ++ found.describe ++ ", expected " ++ expected
  | wrongValue found expected => "invalid value: " ++ found.describe ++ ", expected " ++ expected
  | wrongLength found expected =>
    "invalid length " ++ toString found ++ ", expected " ++ expected
  | missingField name => "missing field `" ++ name ++ "`"
  | invalidAddress error => error.message

/-- The largest number of a machine word. -/
def maxWord : Nat := (1 <<< 64) - 1

namespace Message

/-- Reads a count, which fits a machine word (`maxWord`). -/
def toCount : Message → Except DecodeError Nat
  | .number (.whole (.ofNat n)) =>
    if n ≤ maxWord then .ok n else .error (.wrongValue (ofInt n) "usize")
  | .number (.whole n) => .error (.wrongValue (ofInt n) "usize")
  | m => .error (.wrongType m "usize")

/-- Reads a boolean. -/
def toBool : Message → Except DecodeError Bool
  | .bool b => .ok b
  | m => .error (.wrongType m "a boolean")

/-- Reads an address (`Address.parse`). -/
def toAddress : Message → Except DecodeError Address
  | .string s => (Address.parse s).mapError .invalidAddress
  | m => .error (.wrongType m "a string")

end Message

namespace Config

/-- Reads the field of a name into a `Config`; unknown names are passed over. -/
def readField (c : Config) (name : String) (m : Message) : Except DecodeError Config :=
  if name = "bus_capacity" then m.toCount.map fun n => { c with busCapacity := n }
  else if name = "max_frames" then m.toCount.map fun n => { c with maxFrames := n }
  else if name = "log_ops" then m.toBool.map fun b => { c with logOps := b }
  else if name = "handle_signals" then m.toBool.map fun b => { c with handleSignals := b }
  else .ok c

/-- The fields of a `Config` in the order in which an array gives them. -/
def fieldNames : List String :=
  ["bus_capacity", "max_frames", "log_ops", "handle_signals"]

/-- Reads a configuration (`readField`); what is not given keeps its default. -/
def ofMessage : Message → Except DecodeError Config
  | .object fields => fields.foldlM (fun c f => c.readField f.1 f.2) {}
  | .array items => do
    let c ← (fieldNames.zip items).foldlM (fun c f => c.readField f.1 f.2) {}
    if items.length ≤ fieldNames.length then .ok c
    else .error (.wrongLength items.length "fewer elements in array")
  | m => .error (.wrongType m "struct Config")

end Config

namespace Envelope

/-- The fields of an `Envelope` that have been read so far. -/
structure Draft where
  target : Option Address := none
  source : Option Address := none
  message : Option Message := none

/-- Reads the field of a name into a `Draft`; unknown names are passed over. -/
def Draft.readField (d : Draft) (name : String) (m : Message) : Except DecodeError Draft :=
  if name = "to" then m.toAddress.map fun a => { d with target := some a }
  else if name = "from" then m.toAddress.map fun a => { d with source := some a }
  else if name = "message" then .ok { d with message := some m }
  else .ok d

/-- The `Envelope` of a draft that has all its fields. -/
def Draft.finish (d : Draft) : Except DecodeError Envelope :=
  match d.target, d.source, d.message with
  | none, _, _ => .error (.missingField "to")
  | _, none, _ => .error (.missingField "from")
  | _, _, none => .error (.missingField "message")
  | some target, some source, some message => .ok ⟨target, source, message⟩

/-- Reads an envelope (`Draft.readField`, `Draft.finish`). -/
def ofMessage : Message → Except DecodeError Envelope
  | .object fields => do
    (← fields.foldlM (fun d f => d.readField f.1 f.2) ({} : Draft)).finish
  | .array items =>
    match items with
    | target :: source :: message :: rest => do
      let e : Envelope := ⟨← target.toAddress, ← source.toAddress, message⟩
      if rest.isEmpty then .ok e
      else .error (.wrongLength items.length "fewer elements in array")
    | [target, source] => do
      discard target.toAddress
      discard source.toAddress
      .error (.wrongLength 2 "struct Envelope with 3 elements")
    | [target] => do
      discard target.toAddress
      .error (.wrongLength 1 "struct Envelope with 3 elements")
    | [] => .error (.wrongLength 0 "struct Envelope with 3 elements")
  | m => .error (.wrongType m "struct Envelope")

/-- The envelope as a message, as its `Serialize` form. -/
def toMessage (e : Envelope) : Message :=
  .ofFields
    [("from", .string e.source.text), ("message", e.message), ("to", .string e.target.text)]

end Envelope

end Troupe
