import Troupe.Stage.Basic

/-!
# Judging errors

A raised error is judged before anything is done about it (`supervise`). `Stage.judge` asks the
traps of the source and of the actors above it (`Address.ancestry`), up to the root trap, until one
says something other than `Verdict.escalate`; a trap that is missing says just that, and so does one
of an actor that is missing.

* The source answers with the template that lives at its address now. If nobody lives there, it
  answers with the one that was there when the error was raised (`Raised.template`), so that an
  actor that is gone by then still has a trap. All others answer with what lives there now
  (`Platform.trapAt?`).
* On the way `Stage.judge` publishes who handed the error on (`EventKind.errorEscalated`) or ignored
  it (`EventKind.errorIgnored`). Traps are code of the application and may change its state
  (`Code.judge`).
* The outcome is a `Decision`. What is done about it is up to `Flow.supervise`; the source is who it
  is done to, whoever decided.

What is published and which traps are asked, for every platform and every trap, is said in
`Troupe.Proofs.Guarantee.Traps`.
-/

namespace Troupe

variable {κ : App}

/-- What an error comes to (`TrapAction`). -/
inductive Decision
  | unhandled
  | ignored
  | restart
  | stop
  deriving DecidableEq

/-- The trap that answers for a level of the judgement (`supervise`). -/
def Platform.trapAt? (p : Platform κ) (r : Raised κ) (level : Address) : Option κ.Trap :=
  if level.isRoot then p.rootTrap
  else if level = r.source then ((p.template? level) <|> r.template).bind Template.trap
  else (p.template? level).bind Template.trap

namespace Stage

/-- Asks the traps of some levels in order, and publishes what they say (`supervise`). -/
def judge (code : Code κ) (r : Raised κ) : List Address → Stage κ → Decision × Stage κ
  | [], s => (.unhandled, s)
  | level :: above, s =>
    let (verdict, world) := match s.platform.trapAt? r level with
      | some trap => code.judge trap r.error s.world
      | none => (.escalate, s.world)
    let s := { s with world }
    match verdict with
    | .restart => (.restart, s)
    | .stop => (.stop, s)
    | .ignore =>
      (.ignored, s.edit (·.publish
        { kind := .errorIgnored, address := some level, source := some r.source
          reason := some r.error.message }))
    | .escalate =>
      if level.isRoot then (.unhandled, s)
      else
        judge code r above (s.edit (·.publish
          { kind := .errorEscalated, address := some level, target := some level.parent
            source := some r.source, reason := some r.error.message }))

end Stage

end Troupe
