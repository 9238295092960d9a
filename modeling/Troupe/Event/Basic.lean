import Troupe.Message.Envelope

/-!
# Events

What a platform publishes about itself (`Event`): a kind (`EventKind`), and the parts that matter
for it. Every event of the source is made from `Event::new` and its `with_` methods, and here from
`Event.about`, which makes an event about an actor, `Event.withEnvelope`, which adds the parts of an
envelope, or by naming the parts.

* `Event.overflow` and `Event.panicked` are the reports of an audience (`subscriber_overflow`,
  `subscriber_panicked`), which `Event.isOverflow` and `Event.isPanic` recognise. An audience never
  reports that a report of an overflow overflowed (`Channel.offer`).
* A kind has a name (`EventKind.name`) that is read back (`EventKind.ofName?`); `EventKind.all` has
  them in their order.
* Events are numbered in the order in which they are made (`Event.Clock`, `seq`). Two events that
  differ in their number alone are one here: on a bus an event is known by its place.

Out of scope: the time at which an event was made.
-/

namespace Troupe

/-- What an event tells of (`EventKind`). -/
inductive EventKind
  | subscriberPanicked
  | subscriberOverflow
  | actorAllocated
  | actorStarted
  | actorRestarted
  | actorRemoved
  | messageAccepted
  | messageReceived
  | messageDropped
  | messageTransferred
  | errorRaised
  | errorEscalated
  | errorIgnored
  | unhandledEscalation
  | routeAdded
  | routeRemoved
  | memberAdded
  | taskRegistered
  | taskSettled
  | opExecuted
  | platformStopped
  deriving DecidableEq

namespace EventKind

/-- Every kind, in the order of `EventKind`. -/
def all : List EventKind :=
  [subscriberPanicked, subscriberOverflow, actorAllocated, actorStarted, actorRestarted,
    actorRemoved, messageAccepted, messageReceived, messageDropped, messageTransferred,
    errorRaised, errorEscalated, errorIgnored, unhandledEscalation, routeAdded, routeRemoved,
    memberAdded, taskRegistered, taskSettled, opExecuted, platformStopped]

/-- The name of a kind, as its `Debug` form has it. -/
def name : EventKind → String
  | subscriberPanicked => "SubscriberPanicked"
  | subscriberOverflow => "SubscriberOverflow"
  | actorAllocated => "ActorAllocated"
  | actorStarted => "ActorStarted"
  | actorRestarted => "ActorRestarted"
  | actorRemoved => "ActorRemoved"
  | messageAccepted => "MessageAccepted"
  | messageReceived => "MessageReceived"
  | messageDropped => "MessageDropped"
  | messageTransferred => "MessageTransferred"
  | errorRaised => "ErrorRaised"
  | errorEscalated => "ErrorEscalated"
  | errorIgnored => "ErrorIgnored"
  | unhandledEscalation => "UnhandledEscalation"
  | routeAdded => "RouteAdded"
  | routeRemoved => "RouteRemoved"
  | memberAdded => "MemberAdded"
  | taskRegistered => "TaskRegistered"
  | taskSettled => "TaskSettled"
  | opExecuted => "OpExecuted"
  | platformStopped => "PlatformStopped"

/-- The kind of a name (`EventKind.name`). -/
def ofName? (s : String) : Option EventKind :=
  all.find? fun k => k.name = s

end EventKind

/-- Something that happened (`Event`). -/
structure Event where
  kind : EventKind
  address : Option Address := none
  target : Option Address := none
  source : Option Address := none
  message : Option Message := none
  reason : Option String := none
  op : Option String := none
  task : Option Nat := none
  subscriber : Option String := none

instance : Inhabited Event := ⟨{ kind := .platformStopped }⟩

namespace Event

/-- The event with the parts of an envelope (`with_envelope`). -/
def withEnvelope (e : Event) (env : Envelope) : Event :=
  { e with target := some env.target, source := some env.source, message := some env.message }

/-- An event of a kind about an actor (`with_address`). -/
def about (kind : EventKind) (address : Address) : Event :=
  { kind, address := some address }

/-- An event found no room in a subscriber's queue (`subscriber_overflow`). -/
def overflow (subscriber reason : String) : Event :=
  { kind := .subscriberOverflow
    reason := some ("subscriber=" ++ subscriber ++ " reason=" ++ reason)
    subscriber := some subscriber }

/-- A subscriber panicked (`subscriber_panicked`). -/
def panicked (subscriber info : String) : Event :=
  { kind := .subscriberPanicked, reason := some info, subscriber := some subscriber }

/-- Whether the event reports an overflow (`is_subscriber_overflow`). -/
def isOverflow (e : Event) : Bool :=
  e.kind == .subscriberOverflow

/-- Whether the event reports a panic (`is_subscriber_panic`). -/
def isPanic (e : Event) : Bool :=
  e.kind == .subscriberPanicked

end Event

/-- Gives numbers to events in the order in which they are made. -/
structure Event.Clock where
  next : Nat := 0

/-- The number of an event that is made now (`Event::new`). -/
def Event.Clock.tick (c : Event.Clock) : Nat × Event.Clock :=
  (c.next, ⟨c.next + 1⟩)

end Troupe
