import Troupe.Flow.Basic

/-!
# Delivering messages

What becomes of a message that is sent (`route_message`), as far as its place:

* A message to the discard address is absorbed. Any other goes to the router responsible for its
  address (`Platform.router?`), or else to the actor there (`Flow.route`, `Flow.deliver`).
* A router gets the message whether or not anybody lives at its `target` (`Flow.transfer`). If the
  router is gone, the message is recorded as dropped but counts as taken. It is not routed again, so
  routes make no cycles.
* A buffered actor gets it in its mailbox, and a look at the mailbox is scheduled; any other, and a
  flagged router (`Flags.router`) that gets a transferred message, takes it in its own hands as soon
  as it is idle (`Flow.deliverAt`, `accept_direct`). The message is put into the backlog first, so
  it waits behind those that came before it.
* Delivery answers whether the message was taken. Who sends it decides what to do if it was not:
  `Operation.tellFrom` records a drop, `Operation.send` and a broadcast do not.
* A broadcast (`tell_members`) is a message to each member of a group in turn. The members are those
  of the group when it begins (`Flow.routeToMembers`).

That every message comes to one of these ends, and what each changes, is `Dispatch` with
`Dispatch.settles_route`.
-/

namespace Troupe.Flow

variable {κ : App}

/-- Delivers a message to the actor at an address, from a router or not (`deliver_at`). -/
def deliverAt (a : Address) (env : Envelope) (transferred : Bool) : Flow κ Bool := do
  match ← ask (·.context? a) with
  | none => pure false
  | some c =>
    edit (·.publish (Event.withEnvelope (.about .messageAccepted a) env))
    if c.isBuffered && !(transferred && c.flags.router) then
      edit fun p => (p.putMail a env).scheduleMail a
    else
      edit (·.putBacklog a env)
      invoke (.flush a)
    pure true

/-- Delivers a message to the actor it is meant for (`Platform::deliver`). -/
def deliver (env : Envelope) : Flow κ Bool :=
  deliverAt env.target env false

/-- Hands a message to a router (`transfer`). If the router is gone the message is lost, but counts
as taken. -/
def transfer (router : Address) (env : Envelope) : Flow κ Bool := do
  edit (·.publish (Event.withEnvelope (.about .messageTransferred router) env))
  if ← ask (·.isLive router) then deliverAt router env true
  else
    edit (·.dropMessage env)
    pure true

/-- Sends a message on its way (`route_message`). -/
def route (env : Envelope) : Flow κ Bool := do
  if env.target.isDiscard then pure true
  else match ← ask (·.router? env.target) with
    | some router => transfer router env
    | none => deliver env

/-- Sends a message to every member of a group (`tell_members`); answers how many took it. -/
def routeToMembers (group : String) (source : Address) (message : Message) : Flow κ Nat := do
  countM (fun target => route ⟨target, source, message⟩) (← ask (·.members group))

end Troupe.Flow
