import Troupe.Event.Bus

/-!
# The audience of a bus

Subscribers handle events away from the platform. Each has a bounded queue of its own (`Channel`):
`offer` puts an event into every open queue with room and reports the others (`emit`). A subscriber
takes an event from its queue (`Channel.take`), has it in its hands for a while (`Channel.inHand`),
and is done with it at some time (`Channel.finish`, with the `Reaction` it shows); that is what
`worker` does in its loop. `work` lets all subscribers handle their queues, each in order, and
reports panics. A panic while an event is handled costs nothing else; a panic before that ends the
subscriber and closes its queue. A report of an overflow is never reported itself, a report of a
panic is.

Work is shared in turns: nobody handles or passes on more than `turnLength` events before the others
had their turn (`Audience.turn`).

A `Listener` connects an audience to a bus. In a `round` it passes on what the bus published
(`Listener.relay`) and the audience works; the reports go back to the bus, where the audience hears
them in a later round. A `pause` of the platform is over as soon as the listener waits for another
turn; `settle` goes on until nothing is left.

The order of turns is one among many. What holds for any order is said of single occurrences
(`Occurrence`, `Course`).
-/

namespace Troupe

/-- How a subscriber takes an event (`on_event`). -/
inductive Reaction
  | handled
  | panicked (info : String)
  | died

/-- Someone who handles events (`Subscribe`). -/
structure Subscriber where
  name : String
  capacity : Nat := 1024
  react : Event → Reaction

/-- How many events one turn takes at most. -/
def turnLength : Nat := 128

/-- A subscriber with its queue, and the events it has handled since it was last asked
(`SubscriberChannel`). -/
structure Channel where
  subscriber : Subscriber
  queue : List Event := []
  /-- The event that the subscriber has taken from its queue and is handling. -/
  inHand : Option Event := none
  isOpen : Bool := true
  handled : List Event := []

namespace Channel

/-- The room in the queue of a channel (`queue_capacity`). -/
def capacity (c : Channel) : Nat :=
  max c.subscriber.capacity 1

/-- Why an event cannot be queued, if it cannot (`try_send`). -/
def refusal? (c : Channel) : Option String :=
  if !c.isOpen then some "closed"
  else if c.capacity ≤ c.queue.length then some "full"
  else none

/-- Queues an event, or reports why not (`emit_arc`). -/
def offer (c : Channel) (e : Event) : List Event × Channel :=
  match c.refusal? with
  | none => ([], { c with queue := c.queue ++ [e] })
  | some reason => (if e.isOverflow then [] else [.overflow c.subscriber.name reason], c)

/-- How many events the subscriber has before it (`queue`), the one in its hands (`inHand`)
included. -/
def waiting (c : Channel) : Nat :=
  c.inHand.toList.length + c.queue.length

/-- The event that the subscriber handles now (`worker`): the one in its hands, or the first of its
queue, which it takes. -/
def take (c : Channel) : Option (Event × Channel) :=
  match c.inHand, c.queue with
  | some e, _ => some (e, c)
  | none, e :: rest => some (e, { c with queue := rest, inHand := some e })
  | none, [] => none

/-- The subscriber is done with the event in its hands (`worker`); answers the report of a panic. -/
def finish (c : Channel) (e : Event) : Reaction → List Event × Channel
  | .handled => ([], { c with inHand := none, handled := c.handled ++ [e] })
  | .panicked info =>
    ([.panicked c.subscriber.name info], { c with inHand := none, handled := c.handled ++ [e] })
  | .died => ([], { c with queue := [], inHand := none, isOpen := false })

/-- Handles at most `n` events (`worker`); answers the panic reports. -/
def handle (c : Channel) : Nat → List Event × Channel
  | 0 => ([], c)
  | n + 1 =>
    match c.take with
    | none => ([], c)
    | some (e, c) =>
      let (reports, c) := c.finish e (c.subscriber.react e)
      let (more, c) := c.handle n
      (reports ++ more, c)

end Channel

/-- The subscribers of a bus, in order (`SubscriberSet`). -/
structure Audience where
  channels : List Channel

namespace Audience

/-- The audience of these subscribers (`SubscriberSet::new`). -/
def ofSubscribers (subs : List Subscriber) : Audience :=
  ⟨subs.map fun s => { subscriber := s }⟩

/-- The number of subscribers (`SubscriberSet::len`). -/
def size (a : Audience) : Nat :=
  a.channels.length

/-- Whether there is no subscriber (`SubscriberSet::is_empty`). -/
def isEmpty (a : Audience) : Bool :=
  a.channels.isEmpty

/-- Does something on every channel in order and collects the reports, as `emit_arc` does. -/
def onEach (a : Audience) (f : Channel → List Event × Channel) : List Event × Audience :=
  let done := a.channels.map f
  (done.flatMap Prod.fst, ⟨done.map Prod.snd⟩)

/-- Offers an event to every subscriber (`SubscriberSet::emit`); answers the overflow reports. -/
def offer (a : Audience) (e : Event) : List Event × Audience :=
  a.onEach fun c => c.offer e

/-- Whether nobody has an event before it (`Channel.waiting`). -/
def isQuiet (a : Audience) : Bool :=
  a.channels.all fun c => c.waiting == 0

/-- The number of events that are still to be handled (`Channel.waiting`). -/
def waiting (a : Audience) : Nat :=
  a.channels.foldr (fun c n => c.waiting + n) 0

/-- The same channels in the opposite order. -/
def reversed (a : Audience) : Audience :=
  ⟨a.channels.reverse⟩

/-- Gives every subscriber a turn of `turnLength` events (`Channel.handle`); answers the panic
reports. -/
def turn (a : Audience) : List Event × Audience :=
  a.onEach fun c => c.handle turnLength

/-- At most `n` turns of everybody, each in the opposite order of the one before. -/
def workFor (a : Audience) : Nat → List Event × Audience
  | 0 => ([], a)
  | n + 1 =>
    if a.isQuiet then ([], a)
    else
      let (reports, a) := a.turn
      let (more, a) := a.reversed.workFor n
      (reports ++ more, a.reversed)

/-- Lets the subscribers handle all that is queued (`workFor`); answers the panic reports. Every
turn takes at least one event. -/
def work (a : Audience) : List Event × Audience :=
  a.workFor a.waiting

/-- What each subscriber has handled (`Channel.handled`) since it was last asked. -/
def takeHandled (a : Audience) : List (String × List Event) × Audience :=
  (a.channels.map fun c => (c.subscriber.name, c.handled),
    ⟨a.channels.map fun c => { c with handled := [] }⟩)

end Audience

/-- An audience that listens to a bus (`PlatformBuilder::build`). -/
structure Listener where
  receiver : Nat
  audience : Audience

/-- What a round leaves to do: `unread` if the listener's turn was over before it came to the end of
the bus, `reports` if it came there and the audience published something after that. -/
inductive Remainder
  | nothing
  | reports
  | unread
  deriving DecidableEq

namespace Listener

/-- Passes on what the bus holds, reports on the way included, in at most `n` reads. Answers whether
the end of the bus was seen. -/
def relay (l : Listener) (b : Bus) : Nat → Bool × Bus × Listener
  | 0 => (false, b, l)
  | n + 1 =>
    match b.receive l.receiver with
    | (.empty, b) => (true, b, l)
    | (.lagged _, b) => l.relay b n
    | (.event e, b) =>
      let (reports, audience) := l.audience.offer e
      { l with audience }.relay (b.publishAll reports) n

/-- A turn of the listener (`relay`), then the work of the audience (`Audience.work`). -/
def round (l : Listener) (b : Bus) : Remainder × Bus × Listener :=
  let (atEnd, b, l) := l.relay b turnLength
  let (reports, audience) := l.audience.work
  let remainder :=
    if !atEnd then .unread else if reports.isEmpty then .nothing else .reports
  (remainder, b.publishAll reports, { l with audience })

/-- At most `n` rounds, as long as they leave something of this kind. -/
def rounds (l : Listener) (b : Bus) (more : Remainder → Bool) : Nat → Bus × Listener
  | 0 => (b, l)
  | n + 1 =>
    let (remainder, b, l) := l.round b
    if more remainder then l.rounds b more n else (b, l)

/-- How many rounds a pause of the platform leaves to the audience at most (`pause`). -/
def roundsPerPause : Nat := 64

/-- The rounds in a pause of the platform (`roundsPerPause`). -/
def pause (l : Listener) (b : Bus) : Bus × Listener :=
  l.rounds b (· = .reports) roundsPerPause

/-- Lets the audience take in all that the bus holds, and what is published about that: a round for
each unread event (`backlog`) is enough, and the reports get as many as in a pause. -/
def settle (l : Listener) (b : Bus) : Bus × Listener :=
  l.rounds b (· ≠ .nothing) (b.backlog l.receiver + roundsPerPause)

end Listener

end Troupe
