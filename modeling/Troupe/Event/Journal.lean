import Troupe.Event.Basic
import Troupe.Message.Render

/-!
# The journal of events

`LogWriter` is a subscriber that writes a line of every event it is given (`on_event`). What it
writes is `Journal.entry`: an `Entry` with a `Level`, a text, and named fields in a fixed order.

* A kind of event has one level and one text, whatever its parts are; `Level.name` names the level.
* An address or a reason that the event lacks shows as a dash (`Journal.place`), and a message as
  nothing. A subscriber, a task or an instruction that it lacks is left out with its field.
* `Journal.name` is the name under which the journal subscribes (`Subscriber.name`).

Out of scope: where the lines go and what they look like there. That is up to whoever installed
something that collects them.
-/

namespace Troupe.Journal

/-- How much an entry matters (`Level.name`). -/
inductive Level
  | trace
  | debug
  | info
  | warn
  | error
  deriving DecidableEq

/-- The name of a level. -/
def Level.name : Level → String
  | trace => "TRACE"
  | debug => "DEBUG"
  | info => "INFO"
  | warn => "WARN"
  | error => "ERROR"

/-- A line of the journal: its `Level`, its text and its fields. -/
structure Entry where
  level : Level
  text : String
  fields : List (String × Message)

/-- The name under which the journal subscribes (`LogWriter::name`). -/
def name : String := "LogWriter"

/-- An address, or a dash (`addr`). -/
def place (a : Option Address) : Message :=
  .string ((a.map Address.text).getD "-")

/-- The line of an event (`LogWriter::on_event`). -/
def entry (e : Event) : Entry :=
  let address := ("address", place e.address)
  let recipient := ("to", place e.target)
  let source := ("from", place e.source)
  let reason := ("reason", Message.string (e.reason.getD "-"))
  let message := ("message", Message.string ((e.message.map Message.render).getD ""))
  let router := ("router", place e.address)
  let routed := ("target", place e.target)
  let origin := ("source", place e.source)
  let subscriber := (e.subscriber.map fun s => ("subscriber", Message.string s)).toList
  let task := (e.task.map fun n => ("task", Message.ofInt n)).toList
  match e.kind with
  | .actorAllocated => ⟨.info, "actor allocated", [address]⟩
  | .actorStarted => ⟨.info, "actor started", [address]⟩
  | .actorRestarted => ⟨.info, "actor restarted", [address, reason]⟩
  | .actorRemoved => ⟨.info, "actor removed", [address]⟩
  | .messageAccepted => ⟨.debug, "message accepted", [address, recipient, source, message]⟩
  | .messageReceived => ⟨.debug, "message received", [address, recipient, source, message]⟩
  | .messageTransferred => ⟨.debug, "message transferred", [router, recipient, source]⟩
  | .messageDropped => ⟨.warn, "message dropped", [recipient, source, message]⟩
  | .errorRaised => ⟨.warn, "error raised", [address, reason]⟩
  | .errorEscalated =>
    ⟨.info, "error escalated", [address, ("parent", place e.target), origin, reason]⟩
  | .errorIgnored => ⟨.info, "error ignored", [address, origin, reason]⟩
  | .unhandledEscalation => ⟨.error, "unhandled escalation", [source, reason]⟩
  | .routeAdded => ⟨.debug, "route added", [router, routed]⟩
  | .routeRemoved => ⟨.debug, "route removed", [routed]⟩
  | .memberAdded =>
    ⟨.debug, "member added", [address, ("group", Message.string (e.reason.getD "-"))]⟩
  | .taskRegistered => ⟨.debug, "task registered", address :: task ++ [reason]⟩
  | .taskSettled => ⟨.debug, "task settled", address :: task ++ [reason]⟩
  | .opExecuted =>
    ⟨.trace, "op", address :: (e.op.map fun o => ("op", Message.string o)).toList⟩
  | .platformStopped => ⟨.info, "platform stopped", [reason]⟩
  | .subscriberOverflow => ⟨.warn, "subscriber overflow", subscriber ++ [reason]⟩
  | .subscriberPanicked => ⟨.error, "subscriber panicked", subscriber ++ [reason]⟩

end Troupe.Journal
