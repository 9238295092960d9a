import Troupe.Message.Render

/-!
# Matchers

A `Matcher` sorts messages: its cases are tried in order, and the first that admits the message
answers with its tag (`Matcher.select`). A receiver is armed with one (`Platform.armReceiver`), and
gets the head of the mailbox if the matcher selects it (`Platform.takeMatch`); the tag is what the
actor is told (`Hook.receive`).

* A `Case` looks at the kind of the message (`MessageKind.admits`) and, if it has one, at a guard.
  `Case.withGuard` puts a guard in place of the one that was there (`when`).
* `Case.equals` and `Case.field` are cases with guards of a certain form: the message is a given
  one, or an object in which a field has a given value (`Message.same`).
* `Matcher.any` is the matcher that takes everything, with one tag.

A guard is a function here and cannot look at anything but the message. `Case.inspect` and
`Matcher.inspect` show only whether there is one.
-/

namespace Troupe

/-- What a case asks of the form of a message (`Kind`). -/
inductive MessageKind
  | any
  | null
  | bool
  | number
  | string
  | array
  | object
  deriving DecidableEq

namespace MessageKind

/-- The name of a kind, as its `Debug` form has it. -/
def name : MessageKind → String
  | any => "Any"
  | null => "Null"
  | bool => "Bool"
  | number => "Number"
  | string => "String"
  | array => "Array"
  | object => "Object"

/-- Whether a message is of a kind (`Kind::admits`). -/
def admits : MessageKind → Message → Bool
  | any, _ => true
  | null, .null => true
  | bool, .bool _ => true
  | number, .number _ => true
  | string, .string _ => true
  | array, .array _ => true
  | object, .object _ => true
  | _, _ => false

end MessageKind

/-- One case of a matcher (`Case`). -/
structure Case where
  tag : String
  kind : MessageKind
  guard? : Option (Message → Bool)

namespace Case

/-- The case of all messages of a kind (`Case::new`). -/
def ofKind (tag : String) (kind : MessageKind) : Case :=
  ⟨tag, kind, none⟩

/-- The case of all messages (`Case::any`). -/
def any (tag : String) : Case :=
  ofKind tag .any

/-- The case with a guard, in place of the guard it had (`Case::when`). -/
def withGuard (c : Case) (g : Message → Bool) : Case :=
  { c with guard? := some g }

/-- The case of one message (`Case::equals`). -/
def equals (tag : String) (value : Message) : Case :=
  (any tag).withGuard fun m => m.same value

/-- The case of the objects in which a field has a given value (`Case::field`). -/
def field (tag name : String) (value : Message) : Case :=
  (ofKind tag .object).withGuard fun m => (m.get? name).any fun v => v.same value

/-- Whether a case admits a message (`Case::admits`). -/
def admits (c : Case) (m : Message) : Bool :=
  c.kind.admits m && c.guard?.all fun g => g m

/-- The text of a case for diagnostics (`Debug`). -/
def inspect (c : Case) : String :=
  "Case \x7b tag: " ++ Text.quoted c.tag ++ ", kind: " ++ c.kind.name ++ ", guarded: " ++
    toString c.guard?.isSome ++ " \x7d"

end Case

/-- Cases in the order in which they are tried (`Matcher`). -/
structure Matcher where
  cases : List Case

namespace Matcher

/-- The matcher with one case, of all messages (`Matcher::any`). -/
def any (tag : String) : Matcher :=
  ⟨[.any tag]⟩

/-- The tag of the first case that admits a message (`Matcher::select`). -/
def select (t : Matcher) (m : Message) : Option String :=
  (t.cases.find? fun c => c.admits m).map Case.tag

/-- The text of a matcher for diagnostics (`Debug`). -/
def inspect (t : Matcher) : String :=
  "Matcher \x7b cases: [" ++ ", ".intercalate (t.cases.map Case.inspect) ++ "] \x7d"

end Matcher

end Troupe
