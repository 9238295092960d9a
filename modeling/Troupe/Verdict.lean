import Troupe.Error

/-!
# Verdicts

A `Verdict` is what a trap says about an error (`TrapAction`): hand it to the parent (`escalate`),
`ignore` it, `restart` the actor that raised it or `stop` that actor. Whoever is asked, it is the
actor that raised the error that is restarted or stopped (`Flow.supervise`).

Without a trap an error goes to the parent (`Stage.judge`), so `escalate` is the default.

* A trap is code of the application (`App.Trap`, `Code.judge`) and may look at anything. A `Policy`
  is a trap that only looks at the error: `Policy.always` has one verdict for all, and
  `Policy.restartOnApplication` restarts after errors of the application and hands on all others.
* A verdict has a label (`Verdict.label`).

Headline:
* **`Verdict.ofLabel?_label`**: a verdict is read back from its label.
-/

namespace Troupe

/-- What is to be done about an error (`TrapAction`). -/
inductive Verdict
  | escalate
  | ignore
  | restart
  | stop
  deriving DecidableEq

instance : Inhabited Verdict := ⟨.escalate⟩

/-- The label of a verdict (`TrapAction::as_label`). -/
def Verdict.label : Verdict → String
  | escalate => "raise"
  | ignore => "ignore"
  | restart => "restart"
  | stop => "stop"

/-- The verdict of a label (`Verdict.label`). -/
def Verdict.ofLabel? (s : String) : Option Verdict :=
  [escalate, ignore, restart, stop].find? fun v => v.label = s

theorem Verdict.ofLabel?_label (v : Verdict) : ofLabel? v.label = some v := by
  cases v <;> rfl

/-- A trap that only looks at the error (`Trap`). -/
abbrev Policy := ActorError → Verdict

namespace Policy

/-- One verdict for every error (`Trap::always`). -/
def always (v : Verdict) : Policy :=
  fun _ => v

/-- Restarts after errors of the application and hands on all others
(`Trap::restart_on_application`). -/
def restartOnApplication : Policy
  | .application _ => .restart
  | _ => .escalate

end Policy

end Troupe
