import Troupe.Address.Basic

/-!
# Errors

Three families:

* A `PlatformError` (`RuntimeError`) says why a request to the platform failed, or why it stopped.
* A `ScriptError` (`VmError`) says why a script could not go on.
* An `ActorError` is what actors raise: an error of their own, one of the other two, or the failure
  of a task. Errors of the first two families turn into it where a script runs into them
  (`Machine.step`, `Flow.meet`).

Each error has a label for machines (`as_label`: `PlatformError.label`, `ScriptError.label`,
`ActorError.label`), a text (`PlatformError.message` and the others), and, but for those of scripts,
a detail line for logs (`as_message`: `PlatformError.detail`, `ActorError.detail`). An `ActorError`
that wraps another has a label of its own, and its text is that of the other behind a word that says
where it is from.

`Address.parse` and `Address.make` are reading an address and forming one, with these errors as
answers. They are here because the answers are.
-/

namespace Troupe

/-- Why the platform refuses a request, or stopped (`RuntimeError`). -/
inductive PlatformError
  | duplicateAddress (address : Address)
  | invalidId (id reason : String)
  | invalidAddress (text : String)
  | notFound (address : Address)
  | blocked (address : Address)
  | illegalKill (target caller : Address)
  | unhandledEscalation (source : Address) (error : String)
  deriving DecidableEq

namespace PlatformError

/-- The label of an error (`RuntimeError::as_label`). -/
def label : PlatformError → String
  | duplicateAddress _ => "runtime_duplicate_address"
  | invalidId _ _ => "runtime_invalid_id"
  | invalidAddress _ => "runtime_invalid_address"
  | notFound _ => "runtime_not_found"
  | blocked _ => "runtime_blocked"
  | illegalKill _ _ => "runtime_illegal_kill_signal"
  | unhandledEscalation _ _ => "runtime_unhandled_escalation"

/-- The text of an error (`RuntimeError`). -/
def message : PlatformError → String
  | duplicateAddress a => "address " ++ a.text ++ " is already allocated"
  | invalidId id reason => "invalid actor id " ++ Text.quoted id ++ ": " ++ reason
  | invalidAddress raw => "invalid address " ++ Text.quoted raw
  | notFound a => "no actor at " ++ a.text
  | blocked a => "actor " ++ a.text ++ " is blocked on a pending task"
  | illegalKill target caller => caller.text ++ " may not kill " ++ target.text
  | unhandledEscalation source error =>
    "unhandled escalation from " ++ source.text ++ ": " ++ error

/-- The detail line of an error (`RuntimeError::as_message`). -/
def detail : PlatformError → String
  | duplicateAddress a => "duplicate address: " ++ a.text
  | invalidId id reason => "invalid id " ++ Text.quoted id ++ ": " ++ reason
  | invalidAddress raw => "invalid address: " ++ Text.quoted raw
  | notFound a => "not found: " ++ a.text
  | blocked a => "blocked on task: " ++ a.text
  | illegalKill target caller =>
    "illegal kill: caller=" ++ caller.text ++ " target=" ++ target.text
  | unhandledEscalation source error =>
    "unhandled escalation: source=" ++ source.text ++ " error=" ++ error

end PlatformError

/-- Why a script cannot go on (`VmError`). -/
inductive ScriptError
  | stackUnderflow (op : String)
  | typeMismatch (op expected : String)
  | missingConstant (kind : String) (index : Nat)
  | frameOverflow (limit : Nat)
  deriving DecidableEq

namespace ScriptError

/-- The label of an error (`VmError::as_label`). -/
def label : ScriptError → String
  | stackUnderflow _ => "vm_stack_underflow"
  | typeMismatch _ _ => "vm_type_mismatch"
  | missingConstant _ _ => "vm_missing_constant"
  | frameOverflow _ => "vm_frame_overflow"

/-- The text of an error (`ScriptError`). -/
def message : ScriptError → String
  | stackUnderflow op => "stack underflow in " ++ op
  | typeMismatch op expected => "type mismatch in " ++ op ++ ": expected " ++ expected
  | missingConstant kind index => "missing " ++ kind ++ " #" ++ toString index
  | frameOverflow limit => "frame stack overflow (limit " ++ toString limit ++ ")"

end ScriptError

/-- What an actor raises (`ActorError`). -/
inductive ActorError
  | application (text : String)
  | script (error : ScriptError)
  | platform (error : PlatformError)
  | task (text : String)
  deriving DecidableEq

namespace ActorError

/-- The label of an error (`ActorError::as_label`). -/
def label : ActorError → String
  | application _ => "actor_application"
  | script _ => "actor_vm"
  | platform _ => "actor_runtime"
  | task _ => "actor_task"

/-- The text of an error (`ActorError`). -/
def message : ActorError → String
  | application text => text
  | script error => "vm: " ++ error.message
  | platform error => "runtime: " ++ error.message
  | task text => "task failed: " ++ text

/-- The detail line of an error (`ActorError::as_message`). -/
def detail : ActorError → String
  | application text => "error: " ++ text
  | script error => "vm fault (" ++ error.label ++ "): " ++ error.message
  | platform error => error.detail
  | task text => "task: " ++ text

end ActorError

instance : Coe ScriptError ActorError := ⟨.script⟩

instance : Coe PlatformError ActorError := ⟨.platform⟩

/-- A script's failure is an error of the actor that runs it. -/
instance : MonadLift (Except ScriptError) (Except ActorError) := ⟨Except.mapError .script⟩

namespace Address

/-- Reads a written address, or says that it is none (`Address::parse`). -/
def parse (s : String) : Except PlatformError Address :=
  match parse? s with
  | some a => .ok a
  | none => .error (.invalidAddress s)

/-- The address of a child, or what is wrong with its identifier (`Address::make`). -/
def make (parent : Address) (id : String) : Except PlatformError Address :=
  match parent.child id with
  | .ok a => .ok a
  | .error flaw => .error (.invalidId id flaw.reason)

end Address

end Troupe
