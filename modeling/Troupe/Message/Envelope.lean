import Troupe.Address.Order
import Troupe.Message.Basic

/-!
# Envelopes

An `Envelope` is a message on its way (`Envelope`, with `to` as `target` and `from` as `source`).

It is made where a message is sent: `Flow.route` is given one, and so is everything below it
(`Flow.transfer`, `Flow.deliver`, `Flow.deliverAt`). It stays as it is until an actor takes it
(`Hook.accept`, `Hook.receive`) or it is dropped (`Platform.dropMessage`). In particular a router
gets it with the `target` that it was sent to, so it can hand it on (`Request.forward`). What is
published about a message shows all three parts (`Event.withEnvelope`).
-/

namespace Troupe

/-- A message on its way (`Envelope`). -/
structure Envelope where
  target : Address
  source : Address
  message : Message
  deriving Inhabited

end Troupe
