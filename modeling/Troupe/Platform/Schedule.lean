import Troupe.Platform.Basic

/-!
# Scheduling

Scripts run in slots. Every address has a queue of slots (`Platform.pending`), and the addresses
that have slots take turns: `runQueue` holds those that may run, `waitQueue` those that wait for a
task. An address stands in at most one of the two, at most once (`Platform.queued`). `turn` takes
the next address and its oldest slot, and `endTurn` lets it queue again.

Mail is looked after in a slot too (`scheduleMail`): one is scheduled when there is mail and a
receiver, unless one is waiting already.

Tasks are registered (`registerTask`) and settled (`settle`). An owner with an unfinished task is
blocked, and `unblock` lets it queue again when the last one is settled. `unschedule` clears away
what was kept for an actor that is gone.

That this keeps the queues in order is `Platform.QueueInv`, that no mail is left waiting is
`Platform.Awake`, and that tasks are on record is `Platform.TaskInv`.
-/

namespace Troupe.Platform

variable {κ : App}

/-- Whether an address has slots (`pending`). -/
def hasSlots (p : Platform κ) (a : Address) : Bool :=
  (p.pending.get? a).any fun slots => !slots.isEmpty

/-- Gives an address with slots a place in a queue, unless it has one or is running (`enqueue`). -/
def enqueue (p : Platform κ) (a : Address) : Platform κ :=
  if p.running.contains a || p.queued.contains a || !p.hasSlots a then p
  else if p.isBlocked a then
    { p with queued := p.queued.put a, waitQueue := p.waitQueue ++ [a] }
  else
    { p with queued := p.queued.put a, runQueue := p.runQueue ++ [a] }

/-- Schedules work for an incarnation (`schedule`). -/
def schedule (p : Platform κ) (a : Address) (generation : Nat) (work : Work κ) : Platform κ :=
  let slots := (p.pending.get? a).getD []
  let slot : Slot κ := ⟨generation, work⟩
  { p with pending := p.pending.insert a (slots ++ [slot]) }.enqueue a

/-- Schedules a look at the mailbox, unless one is waiting or nothing would come of it
(`schedule_notify`). -/
def scheduleMail (p : Platform κ) (a : Address) : Platform κ :=
  match p.context? a with
  | none => p
  | some c =>
    let waiting := (p.pending.get? a).any fun slots =>
      slots.any fun s => s.generation == c.generation && s.work.isMail
    if !c.hasMail || c.receivers.isEmpty || waiting then p
    else p.schedule a c.generation .mail

/-- Takes the oldest slot of an address (`pop_slot`). -/
def popSlot (p : Platform κ) (a : Address) : Option (Slot κ × Platform κ) :=
  match p.pending.get? a with
  | some (slot :: rest) =>
    let pending := if rest.isEmpty then p.pending.erase a else p.pending.insert a rest
    some (slot, { p with pending })
  | _ => none

/-- Puts a slot back in front of the others (`run_slot`). -/
def putBackSlot (p : Platform κ) (a : Address) (slot : Slot κ) : Platform κ :=
  { p with pending := p.pending.insert a (slot :: (p.pending.get? a).getD []) }

/-- What the next turn brings, one round of `drain`. -/
inductive Turn (κ : App)
  /-- No address is waiting for its turn (`runQueue`). -/
  | idle
  /-- An address gave its turn up: it has no slots left, or has to wait for a task (`isBlocked`). -/
  | skipped (p : Platform κ)
  /-- The oldest slot of an address runs (`running`). -/
  | slot (a : Address) (s : Slot κ) (p : Platform κ)

/-- The next turn (`drain`). -/
def turn (p : Platform κ) : Turn κ :=
  match p.runQueue with
  | [] => .idle
  | a :: rest =>
    let p := { p with runQueue := rest, queued := p.queued.erase a }
    if p.isBlocked a then
      .skipped { p with queued := p.queued.put a, waitQueue := p.waitQueue ++ [a] }
    else match p.popSlot a with
      | none => .skipped p
      | some (s, p) => .slot a s { p with running := p.running.insert a s }

/-- Ends a turn (`drain`). If the slot was put back, its address queues again when its machine is
checked in. -/
def endTurn (p : Platform κ) (a : Address) (deferred : Bool) : Platform κ :=
  let p := { p with running := p.running.erase a }
  if deferred then p else p.enqueue a

/-- Forgets what was scheduled for a removed actor, and its settled tasks (`unschedule`). Its
unfinished tasks stay until they are finished. -/
def unschedule (p : Platform κ) (a : Address) : Platform κ :=
  let p := { p with
    pending := p.pending.erase a
    blocked := p.blocked.erase a
    entries := p.entries.retain fun _ e => e.owner != a || e.outcome.isNone }
  if a ∈ p.waitQueue then
    { p with waitQueue := p.waitQueue.erase a, queued := p.queued.erase a }
  else p

/-! ## Tasks -/

/-- Registers a task (`register_task`): its owner runs no slot until the task is settled. What
earlier tasks of the owner came to is forgotten. -/
def registerTask (p : Platform κ) (owner : Address) (task : κ.Task) : Nat × Platform κ :=
  let id := p.nextTask
  let entry : TaskEntry := ⟨owner, (p.generation? owner).getD 0, none⟩
  let kept := p.entries.retain fun _ e => e.owner != owner || e.outcome.isNone
  let ids := (p.blocked.get? owner).getD ∅
  let p := { p with
    nextTask := id + 1
    blocked := p.blocked.insert owner (ids.put id)
    entries := kept.insert id entry
    tasks := p.tasks ++ [(id, task)] }
  (id, p.publish { kind := .taskRegistered, address := some owner, task := some id })

/-- A task no longer holds its owner up (`unblock`). When none does, the owner queues for its turn.
-/
def unblock (p : Platform κ) (owner : Address) (id : Nat) : Platform κ :=
  match p.blocked.get? owner with
  | none => p
  | some ids =>
    let rest := ids.erase id
    if !rest.isEmpty then { p with blocked := p.blocked.insert owner rest }
    else
      let p := { p with blocked := p.blocked.erase owner }
      if owner ∈ p.waitQueue then
        { p with waitQueue := p.waitQueue.erase owner, runQueue := p.runQueue ++ [owner] }
      else p

/-- Settles a task (`Platform::settle`): notes and publishes what it came to, and unblocks its
owner. Answers the owner if the incarnation that registered the task is still alive; if it is not,
the outcome is forgotten. -/
def settle (p : Platform κ) (id : Nat) (outcome : Outcome) : Option Address × Platform κ :=
  match p.entries.get? id with
  | none => (none, p)
  | some entry =>
    let p := { p with entries := p.entries.insert id { entry with outcome := some outcome } }
    let reason := match outcome with
      | .error e => some e.message
      | .ok _ => none
    let p := p.publish
      { kind := .taskSettled, address := some entry.owner, task := some id, reason }
    let p := p.unblock entry.owner id
    if p.isCurrent entry.owner entry.generation then (some entry.owner, p)
    else (none, { p with entries := p.entries.erase id })

end Troupe.Platform
