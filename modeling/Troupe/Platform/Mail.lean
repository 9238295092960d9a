import Troupe.Platform.Schedule

/-!
# Mail

What happens to messages in a context, each a small change of the platform:

* A mailbox takes messages at its end (`Platform.putMail`) and gives them from its head
  (`Platform.takeMail`, `dequeue`).
* Receivers decide about the head. The one armed last is asked first (`Platform.armReceiver`), and
  only that one: `Platform.takeMatch` takes the head for it if it wants it (`take_match`), and
  `Platform.discardMail` drops the head (`discard_head`). A receiver is gone when it got a message,
  unless it is a standing one.
* An actor that takes messages in its own hands keeps those that it cannot take at once in its
  backlog (`Platform.putBacklog`), and takes the oldest when it is idle (`Platform.takeBacklog`,
  `flush_backlog`).

Arming a receiver may bring mail within reach, so it schedules a look at the mailbox
(`Platform.scheduleMail`), as delivery does. What is taken is not published here: `Flow.readMail`
tells of a message that was received. That no message is lost, doubled or overtaken between these
steps is shown in `Troupe.Proofs.Guarantee.Mailboxes` and `Troupe.Proofs.Guarantee.Hands`.
-/

namespace Troupe.Platform

variable {κ : App}

/-- A message that a receiver took (`Match`). -/
structure Match where
  tag : String
  envelope : Envelope
  /-- Whether the actor goes away after it. -/
  temporary : Bool

/-- Puts a message into a mailbox (`deliver_at`). -/
def putMail (p : Platform κ) (a : Address) (env : Envelope) : Platform κ :=
  p.modifyContext a fun c => c.mapMailbox (· ++ [env])

/-- Keeps a message for the actor's own hands (`accept_direct`). -/
def putBacklog (p : Platform κ) (a : Address) (env : Envelope) : Platform κ :=
  p.modifyContext a fun c => { c with backlog := c.backlog ++ [env] }

/-- Takes the oldest message from an idle actor's backlog (`flush_backlog`). -/
def takeBacklog (p : Platform κ) (a : Address) : Option (Envelope × Platform κ) :=
  match p.context? a with
  | some c =>
    match c.isIdle, c.backlog with
    | true, env :: rest => some (env, p.modifyContext a fun c => { c with backlog := rest })
    | _, _ => none
  | none => none

/-- Arms a receiver for one message (`arm_receiver`). -/
def armReceiver (p : Platform κ) (a : Address) (matcher : Matcher) : Platform κ :=
  let p := p.modifyContext a fun c => { c with receivers := ⟨matcher, false⟩ :: c.receivers }
  p.scheduleMail a

/-- Takes the head of a mailbox if the first receiver wants it (`take_match`). The receiver is gone
then, unless it is a standing one. -/
def takeMatch (p : Platform κ) (a : Address) : Option (Match × Platform κ) := do
  let c ← p.context? a
  let receiver ← c.receivers.head?
  let head ← (← c.mailbox).head?
  let tag ← receiver.matcher.select head.message
  let receivers := if receiver.standing then c.receivers else c.receivers.tail
  return (⟨tag, head, c.flags.temporary⟩,
    p.modifyContext a fun c => { c.mapMailbox List.tail with receivers })

/-- Takes the head of a mailbox (`dequeue`). -/
def takeMail (p : Platform κ) (a : Address) : Option Envelope × Platform κ :=
  ((p.context? a).bind fun c => c.mailbox.bind List.head?,
    p.modifyContext a fun c => c.mapMailbox List.tail)

/-- Drops the head of a mailbox (`discard_head`). -/
def discardMail (p : Platform κ) (a : Address) : Platform κ :=
  match p.takeMail a with
  | (some env, p) => p.dropMessage env
  | (none, p) => p

end Troupe.Platform
