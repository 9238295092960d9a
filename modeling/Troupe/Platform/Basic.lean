import Troupe.Address.Order
import Troupe.Behaviour
import Troupe.Config
import Troupe.Event.Bus
import Troupe.Machine.Basic

/-!
# The platform

A `Platform` holds one `Context` for every live actor, keyed by address (`Platform.contexts`), and
all that concerns more than one of them: routes, groups, the bus, the queues of the scheduler,
tasks, and errors that wait for a verdict (`Raised`). While an actor's code or script runs, the
actor or its machine is checked out of the context (`Context.actor`, `Context.machine` are `none`;
`Context.isIdle` says that neither is).

Each time an actor is built anew, at an old address or a new one, it gets a fresh generation;
address and generation together name an incarnation (`Platform.isCurrent`).

* Asked: `Platform.context?`, `Platform.generation?`, `Platform.template?`, `Platform.isBlocked`,
  `Platform.mailboxLength?`; `Platform.descendants` and `Platform.directChildren` scan the table;
  `Platform.members` and `Platform.router?` look up groups and routes.
* Told: `Platform.publish` publishes, `Platform.raiseAt` queues an error, `Platform.dropMessage`
  records a drop, `Platform.stop` and `Platform.fail` stop the platform.

The table of addresses and what is kept for each is said to be in order by `Platform.TableInv`.
-/

namespace Troupe

variable {κ : App}

/-- A matcher that waits for a message (`Receiver`); a standing one stays when it has got it. -/
structure Receiver where
  matcher : Matcher
  standing : Bool

/-- The state of a live actor (`Context`). -/
structure Context (κ : App) where
  address : Address
  generation : Nat
  /-- The actor, unless its code is running (`instance`). -/
  actor : Option κ.Actor
  /-- The machine, unless it is in use (`runtime`). -/
  machine : Option (Machine κ)
  flags : Flags
  /-- The messages that wait for a receiver, for buffered actors (`BUFFERED`). -/
  mailbox : Option (List Envelope)
  /-- The receivers, the one that is asked first. -/
  receivers : List Receiver
  /-- Messages for the actor's own hands that came while it was busy (`accept_direct`). -/
  backlog : List Envelope
  template : Template κ

namespace Context

/-- The context of a new incarnation (`Context::new`). -/
def new (address : Address) (generation maxFrames : Nat) (actor : κ.Actor) (b : Behaviour)
    (template : Template κ) : Context κ where
  address
  generation
  actor := some actor
  machine := some (.new address generation maxFrames)
  flags := b.flags
  mailbox := if b.flags.buffered then some [] else none
  receivers := (b.matcher.map fun matcher => ⟨matcher, b.flags.immutable⟩).toList
  backlog := []
  template

/-- Whether messages go to a mailbox (`Context::is_buffered`). -/
def isBuffered (c : Context κ) : Bool :=
  c.mailbox.isSome

/-- Whether the actor and its machine are both at hand (`is_idle`). -/
def isIdle (c : Context κ) : Bool :=
  c.actor.isSome && c.machine.isSome

/-- Whether there is mail (`mailbox`). -/
def hasMail (c : Context κ) : Bool :=
  c.mailbox.any fun box => !box.isEmpty

/-- Changes the `mailbox`, if there is one. -/
def mapMailbox (c : Context κ) (f : List Envelope → List Envelope) : Context κ :=
  { c with mailbox := c.mailbox.map f }

end Context

/-- What a slot does when its turn comes (`Slot`): look after the mailbox, or run a script. -/
inductive Work (κ : App)
  | mail
  | script (s : Script κ)

/-- The script of a piece of work, `Script.notify` for the mailbox. -/
def Work.toScript : Work κ → Script κ
  | mail => .notify
  | script s => s

/-- Whether the work is the mailbox (`Work.mail`). -/
def Work.isMail : Work κ → Bool
  | mail => true
  | script _ => false

/-- Work scheduled for one incarnation (`Slot`). -/
structure Slot (κ : App) where
  generation : Nat
  work : Work κ

/-- What a task comes to (`TaskState`): a message for its owner, nothing, or an error. -/
abbrev Outcome := Except ActorError (Option Message)

/-- A task that somebody registered, and its outcome once it is settled (`TaskEntry`). -/
structure TaskEntry where
  owner : Address
  generation : Nat
  outcome : Option Outcome

/-- An error that waits for a verdict, with the template of its source at the time (`Raised`). -/
structure Raised (κ : App) where
  source : Address
  error : ActorError
  template : Option (Template κ)

/-- A platform (`Platform` and `State`). -/
structure Platform (κ : App) where
  config : Config
  contexts : Table Address (Context κ)
  /-- The router of everything at and below an address (`put_route`). -/
  routes : Table Address Address
  groups : Table String AddressSet
  bus : Bus
  rootTrap : Option κ.Trap
  raised : List (Raised κ)
  /-- The addresses whose turn comes next, in order (`run_q`). -/
  runQueue : List Address
  /-- The addresses with slots that are blocked on tasks, in order (`wait_q`). -/
  waitQueue : List Address
  /-- The addresses in one of the two queues. -/
  queued : AddressSet
  /-- The slot that is running, for each address that has one. -/
  running : Table Address (Slot κ)
  /-- The slots of each address, in order (`pending`). -/
  pending : Table Address (List (Slot κ))
  /-- The tasks that each address waits for (`blocked`). -/
  blocked : Table Address (KeySet Nat)
  /-- The tasks that are not finished, in the order in which they are asked. -/
  tasks : List (Nat × κ.Task)
  entries : Table Nat TaskEntry
  stopped : Bool
  /-- The error that stopped the platform (`set_fatal`). -/
  fatal : Option PlatformError
  nextGeneration : Nat
  nextTask : Nat

namespace Platform

/-- A platform without actors (`new_internal`). -/
def new (config : Config) (rootTrap : Option κ.Trap) : Platform κ where
  config
  contexts := ∅
  routes := ∅
  groups := ∅
  bus := .ofCapacity config.busCapacityClamped
  rootTrap
  raised := []
  runQueue := []
  waitQueue := []
  queued := ∅
  running := ∅
  pending := ∅
  blocked := ∅
  tasks := []
  entries := ∅
  stopped := false
  fatal := none
  nextGeneration := 1
  nextTask := 1

/-! ## Questions -/

/-- The context at an address (`State::get`). -/
def context? (p : Platform κ) (a : Address) : Option (Context κ) :=
  p.contexts.get? a

/-- Whether an actor lives at an address (`State::get`). -/
def isLive (p : Platform κ) (a : Address) : Bool :=
  p.contexts.contains a

/-- Whether something can live below an address (`Platform::contains`): an actor lives there, or it
is the root. -/
def contains (p : Platform κ) (a : Address) : Bool :=
  a.isRoot || p.isLive a

/-- The number of live actors (`Platform::len`). -/
def size (p : Platform κ) : Nat :=
  p.contexts.size

/-- The generation of the incarnation at an address (`Platform::generation`). -/
def generation? (p : Platform κ) (a : Address) : Option Nat :=
  (p.context? a).map Context.generation

/-- Whether an incarnation is alive (`is_current`). -/
def isCurrent (p : Platform κ) (a : Address) (generation : Nat) : Bool :=
  p.generation? a == some generation

/-- The flags of an actor (`Platform::flags`). -/
def flags? (p : Platform κ) (a : Address) : Option Flags :=
  (p.context? a).map Context.flags

/-- The template of an actor, with its identifier (`Platform::template`). -/
def template? (p : Platform κ) (a : Address) : Option (Template κ) :=
  (p.context? a).map Context.template

/-- The live actors below an address, in order (`get_children`). The table is in the order of the
written forms, so everything below stands in one stretch of it. -/
def descendants (p : Platform κ) (a : Address) : List Address :=
  let start := a.subtreeStart
  (p.contexts.keys.dropWhile fun k => compare k.chars start == .lt).takeWhile fun k =>
    start.isPrefixOf k.chars

/-- The live actors one step below an address, in order (`direct_children`). -/
def directChildren (p : Platform κ) (a : Address) : List Address :=
  (p.descendants a).filter fun k => k.depth == a.depth + 1

/-- The number of slots that wait (`pending_slots`). -/
def pendingSlots (p : Platform κ) : Nat :=
  p.pending.entries.foldr (fun e n => e.2.length + n) 0

/-- Whether an address waits for a task (`is_blocked`). -/
def isBlocked (p : Platform κ) (a : Address) : Bool :=
  p.blocked.contains a

/-- The number of unfinished tasks (`pending_tasks`). -/
def pendingTasks (p : Platform κ) : Nat :=
  p.tasks.length

/-- The number of messages in a mailbox (`mailbox_len`). -/
def mailboxLength? (p : Platform κ) (a : Address) : Option Nat :=
  (p.context? a).bind fun c => c.mailbox.map List.length

/-- The number of receivers of an actor (`receiver_count`). -/
def receiverCount (p : Platform κ) (a : Address) : Nat :=
  ((p.context? a).map fun c => c.receivers.length).getD 0

/-- The members of a group, in order (`get_group`). -/
def members (p : Platform κ) (group : String) : List Address :=
  ((p.groups.get? group).map Table.keys).getD []

/-- The router that is responsible for an address (`get_router`): the nearest route at or above it
whose router is neither the address itself nor above it. -/
def router? (p : Platform κ) (target : Address) : Option Address :=
  (target.ancestry.filterMap fun level => p.routes.get? level).find? fun router =>
    router != target && !target.isBelow router

/-! ## Small changes -/

/-- Publishes an event (`trigger`). -/
def publish (p : Platform κ) (e : Event) : Platform κ :=
  { p with bus := p.bus.publish e }

/-- Changes the context at an address, if there is one (`State::get_mut`). -/
def modifyContext (p : Platform κ) (a : Address) (f : Context κ → Context κ) : Platform κ :=
  { p with contexts := p.contexts.modify a f }

/-- Stops the platform (`Platform::stop`). -/
def stop (p : Platform κ) : Platform κ :=
  { p with stopped := true }

/-- Stops the platform because of an error (`set_fatal`); the first such error is kept. -/
def fail (p : Platform κ) (e : PlatformError) : Platform κ :=
  { p with fatal := some (p.fatal.getD e), stopped := true }

/-- Raises an error on an address (`queue_raise`): it will be judged before any further slot runs.
-/
def raiseAt (p : Platform κ) (source : Address) (error : ActorError) : Platform κ :=
  let p := p.publish
    { kind := .errorRaised, address := some source, reason := some error.message }
  { p with raised := p.raised ++ [⟨source, error, p.template? source⟩] }

/-- Records that a message was dropped (`drop_message`). -/
def dropMessage (p : Platform κ) (env : Envelope) : Platform κ :=
  p.publish (Event.withEnvelope { kind := .messageDropped } env)

/-! ## Routes and groups -/

/-- Routes everything at and below `target` to `router` (`put_route`). -/
def putRoute (p : Platform κ) (target router : Address) : Platform κ :=
  let p := p.publish { kind := .routeAdded, address := some router, target := some target }
  { p with routes := p.routes.insert target router }

/-- Removes the route of `target` (`remove_route`). -/
def removeRoute (p : Platform κ) (target : Address) : Platform κ :=
  if p.routes.contains target then
    { p with routes := p.routes.erase target }.publish
      { kind := .routeRemoved, target := some target }
  else p

/-- Puts a live actor into a group (`put_member`); answers whether it is new there. -/
def putMember (p : Platform κ) (group : String) (a : Address) : Bool × Platform κ :=
  let set := (p.groups.get? group).getD ∅
  if !p.isLive a || set.contains a then (false, p)
  else
    let p := { p with groups := p.groups.insert group (set.put a) }
    (true, p.publish { kind := .memberAdded, address := some a, reason := some group })

/-- Takes an address out of a group (`remove_member`); answers whether it was there. -/
def removeMember (p : Platform κ) (group : String) (a : Address) : Bool × Platform κ :=
  match p.groups.get? group with
  | none => (false, p)
  | some set =>
    let rest := set.erase a
    let groups := if rest.isEmpty then p.groups.erase group else p.groups.insert group rest
    (set.contains a, { p with groups })

end Platform

end Troupe
