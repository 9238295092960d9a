import Troupe.Event.Basic
import Troupe.Table.Basic

/-!
# The event bus

`Bus` is a channel on which everything is published that a platform, its machines and the workers of
its subscribers have to tell (`Bus::publish`). Publishing never fails and asks nobody.

* A receiver gets the events published after it subscribed (`Bus.subscribe`), in order
  (`Bus.receive`), each once.
* The bus keeps a window of the latest events. Its size is the capacity, rounded up to a power of
  two (`windowSize`), as the channel of the source rounds it. A receiver that fell behind the window
  is told how many events it lost (`Received.lagged`) and goes on with the oldest one kept.
* `Bus.unsubscribe` gives a receiver up, and `Bus.receiverCount` counts them.

`Bus.published` keeps all events so far, though the channel forgets them, so that what was ever told
can be spoken of. What a receiver can read of it is computed from where it is (`Bus.backlog`), and
nothing else looks at it: `Bus.receive` is the one way to read. `Bus.receiveUpTo` and
`Bus.receiveAll` read several.
-/

namespace Troupe

/-- What a receiver gets (`RecvError`). -/
inductive Received
  | event (e : Event)
  | empty
  | lagged (lost : Nat)

/-- The smallest power of two that is at least `n`. -/
def windowSize (n : Nat) : Nat :=
  if n ≤ 1 then 1 else 1 <<< (Nat.log2 (n - 1) + 1)

/-- The event bus (`Bus`): all events so far, and how many of them each receiver is past. -/
structure Bus where
  window : Nat
  published : Array Event
  receivers : Table Nat Nat
  nextReceiver : Nat

namespace Bus

/-- A bus that keeps at least `capacity` events (`Bus::new`). -/
def ofCapacity (capacity : Nat) : Bus :=
  ⟨windowSize capacity, #[], ∅, 0⟩

/-- Publishes an event (`Bus::publish`). -/
def publish (b : Bus) (e : Event) : Bus :=
  { b with published := b.published.push e }

/-- Publishes events in order (`publish`). -/
def publishAll (b : Bus) (es : List Event) : Bus :=
  es.foldl publish b

/-- A new receiver, which gets the events from now on (`Bus::subscribe`). -/
def subscribe (b : Bus) : Nat × Bus :=
  (b.nextReceiver,
    { b with
      receivers := b.receivers.insert b.nextReceiver b.published.size
      nextReceiver := b.nextReceiver + 1 })

/-- Gives a receiver up, as dropping a `broadcast::Receiver` does. -/
def unsubscribe (b : Bus) (r : Nat) : Bus :=
  { b with receivers := b.receivers.erase r }

/-- The number of receivers (`receiver_count`). -/
def receiverCount (b : Bus) : Nat :=
  b.receivers.size

/-- The events that a receiver has not read (`published`), lost ones included. -/
def backlog (b : Bus) (r : Nat) : Nat :=
  b.published.size - (b.receivers.get? r).getD b.published.size

/-- Reads the next event of a receiver (`recv`). -/
def receive (b : Bus) (r : Nat) : Received × Bus :=
  match b.receivers.get? r with
  | none => (.empty, b)
  | some seen =>
    let oldest := b.published.size - b.window
    if seen < oldest then
      (.lagged (oldest - seen), { b with receivers := b.receivers.insert r oldest })
    else match b.published[seen]? with
      | some e => (.event e, { b with receivers := b.receivers.insert r (seen + 1) })
      | none => (.empty, b)

/-- At most `n` reads of a receiver, up to the end of the bus. -/
def receiveUpTo (b : Bus) (r : Nat) : Nat → List Received × Bus
  | 0 => ([], b)
  | n + 1 =>
    match b.receive r with
    | (.empty, b) => ([], b)
    | (got, b) =>
      let (rest, b) := b.receiveUpTo r n
      (got :: rest, b)

/-- All that a receiver has not read (`receive`). Every read takes an event or passes lost ones
over. -/
def receiveAll (b : Bus) (r : Nat) : List Received × Bus :=
  b.receiveUpTo r (b.backlog r)

end Bus

end Troupe
