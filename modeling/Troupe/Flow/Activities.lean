import Troupe.Flow.Requests
import Troupe.Stage.Judgement

/-!
# The activities of a platform

What the calls of flows do, one definition for each method that can come back to itself: running a
script (`runMachine`, for the loop of `Runtime::exec`), starting an actor (`startActor`), giving it
the messages it could not take before (`flushBacklog`), working off raised errors and slots
(`drainQueues`, for `drain`), polling tasks (`awaitTask`) and the main loop (`runLoop`, for `run`).
Each does one step and calls itself for the rest. `body` puts them together.

* A script goes on line by line (`goOn`, `carryOut`) until its frames are left (`leaveFrame`), or is
  given up (`failScript`). Before every line the machine's incarnation has to be alive; if it is
  not, the script ends and has no result.
* `startActor` tells that an actor is started before it looks whether the actor is at hand. If it is
  not, its code does not run.
* An error is judged and the verdict carried out on its source (`supervise`). A restart removes what
  is left, builds anew from the template that lives there, or else from the one that came with the
  error, and starts the family (`restart`).
* A slot runs on the machine of its incarnation (`runSlot`), or is put back if that is in use, or is
  skipped if the incarnation has gone. Errors come before slots (`drainQueues`).
* The main loop drains, waits for a task and settles it (`settleTask`, `applyOutcome`), and ends
  when nothing is left to do, when the platform is stopped, or when something interrupts the wait
  (`finishRun`).

`drain` is not re-entrant, and needs no guard here: hooks and scripts have no way to call it
(`Request`, `Demand`). Tasks are polled in turn, and one that is ready answers when it is asked; the
order in which the source polls the ones that woke up is that of some `Code.poll`.

Out of scope: a token that is cancelled by another thread while the platform drains. It is looked at
before each round (`Platform.stopped`), and nobody but the application's own code can set it
meanwhile (`Request.stop`).
-/

namespace Troupe.Flow

variable {κ : App}

/-! ## Scripts -/

/-- Ends the running frame (`ret`); if it was the one above `base`, its result is the script's. -/
def leaveFrame (m : Machine κ) (base : Nat) : Flow κ (Option (Value κ) × Machine κ) :=
  let (result, m') := m.leave base
  if m.depth = base + 1 then pure (result, m') else invoke (.resume m' base)

/-- Gives a script up because of an error (`Runtime::exec`). -/
def failScript (m : Machine κ) (base : Nat) (e : ActorError) :
    Flow κ (Option (Value κ) × Machine κ) := do
  edit (·.raiseAt m.address e)
  pure (none, m.unwind base)

/-- Goes on with a script when a demand has been met (`Met`). A script that halts has no result. -/
def goOn (m : Machine κ) (base : Nat) : Met κ → Flow κ (Option (Value κ) × Machine κ)
  | .nothing => invoke (.resume m base)
  | .halt => pure (none, m.unwind base)
  | .failed e => failScript m base e
  | .push v =>
    match m.pushValue v with
    | .ok m => invoke (.resume m base)
    | .error e => failScript m base e

/-- Carries an instruction out (`Machine.step`) and goes on with the script. -/
def carryOut (code : Code κ) (m : Machine κ) (base : Nat) (i : Instr) :
    Flow κ (Option (Value κ) × Machine κ) :=
  match m.step i with
  | .error e => failScript m base e
  | .ok (.next m) => invoke (.resume m base)
  | .ok (.demand d m) => do
    let (met, m) ← meet code m d
    goOn m base met

/-- Runs a machine until `base` frames are left (`Runtime::exec`). The script ends early if its
incarnation has gone, if it fails, or if it halts; it has no result then. -/
def runMachine (code : Code κ) (m : Machine κ) (base : Nat) :
    Flow κ (Option (Value κ) × Machine κ) := do
  let p ← ask id
  if m.depth ≤ base then pure (none, m)
  else if !p.isCurrent m.address m.generation then pure (none, m.unwind base)
  else match m.fetch with
    | none => leaveFrame m base
    | some (i, m) =>
      when p.config.logOps
        (edit (·.publish { kind := .opExecuted, address := some m.address, op := some i.name }))
      if i = .ret then leaveFrame m base else carryOut code m base i

/-! ## Actors -/

/-- Starts a live actor (`start_actor`): it acts on being started, unless it is busy, and then takes
its backlog. -/
def startActor (code : Code κ) (a : Address) : Flow κ (Except PlatformError Unit) := do
  if !(← ask (·.isLive a)) then pure (.error (.notFound a))
  else
    edit (·.publish (.about .actorStarted a))
    let result ← actAt code a .run
    invoke (.flush a)
    match result with
    | some (.error e) => edit (·.raiseAt a e)
    | _ => pure ()
    pure (.ok ())

/-- Gives an idle actor the oldest message of its backlog, and then the others (`flush_backlog`). -/
def flushBacklog (code : Code κ) (a : Address) : Flow κ Unit := do
  let p ← ask id
  match p.takeBacklog a with
  | none => pure ()
  | some (env, p) =>
    edit fun _ => p
    match ← actAt code a (.accept env) with
    | some (.error e) => edit (·.raiseAt a e)
    | _ => pure ()
    invoke (.flush a)

/-! ## Supervision -/

/-- Builds an actor anew from its template, in place of what is left of it, and starts it
(`Platform::restart`). -/
def restart (code : Code κ) (r : Raised κ) : Flow κ Unit := do
  let p ← ask id
  match p.template? r.source <|> r.template with
  | none => pure ()
  | some template =>
    modify (Stage.terminate code r.source)
    match ← onStage (Stage.allocate code r.source.parent template) with
    | .error _ => pure ()
    | .ok a =>
      edit (·.publish
        { kind := .actorRestarted, address := some a, reason := some r.error.message })
      let _ ← startTree a

/-- Judges an error and does what the verdict asks for (`Platform::supervise`). -/
def supervise (code : Code κ) (r : Raised κ) : Flow κ Unit := do
  match ← onStage (Stage.judge code r r.source.ancestry) with
  | .ignored => pure ()
  | .restart => restart code r
  | .stop => modify (Stage.terminate code r.source)
  | .unhandled =>
    edit fun p =>
      (p.publish { kind := .unhandledEscalation, source := some r.source
                   reason := some r.error.message }).fail
        (.unhandledEscalation r.source r.error.message)

/-! ## Slots -/

/-- Runs a slot (`run_slot`); answers whether it was put back because its machine is in use. A slot
whose incarnation has gone does nothing. -/
def runSlot (a : Address) (slot : Slot κ) : Flow κ Bool := do
  if !(← ask (·.isCurrent a slot.generation)) then pure false
  else match ← checkOut a with
    | none =>
      edit (·.putBackSlot a slot)
      pure true
    | some m =>
      let (_, m) ← exec m slot.work.toScript
      checkIn m
      invoke (.flush a)
      pure false

/-- Judges the oldest raised error, or runs the next slot if there is none, and goes on until there
is neither or the platform is stopped (`drain`). -/
def drainQueues (code : Code κ) : Flow κ Unit := do
  let p ← ask id
  if p.stopped then pure ()
  else match p.raised with
    | r :: rest =>
      edit fun p => { p with raised := rest }
      supervise code r
      invoke .drain
    | [] =>
      match p.turn with
      | .idle => pure ()
      | .skipped p =>
        edit fun _ => p
        invoke .drain
      | .slot a slot p =>
        edit fun _ => p
        let deferred ← runSlot a slot
        edit (·.endTurn a deferred)
        invoke .drain

/-! ## Tasks -/

/-- Polls tasks in turn until one is finished, unless something comes up first (`Platform::run`).
After two polls in vain, or one of each task, the audience gets its turn. -/
def awaitTask (code : Code κ) (polled : Nat) : Flow κ Waited := do
  let s ← get done
  match s.platform.tasks with
  | [] => pure .idle
  | (id, task) :: rest =>
    match s.interrupt? code with
    | some i => pure (.interrupted i)
    | none =>
      let (answer, world) := code.poll task s.world
      modify fun s => { s with world }
      match answer with
      | .ready outcome =>
        edit fun p => { p with tasks := rest }
        pure (.finished id outcome)
      | .pending task =>
        edit fun p => { p with tasks := rest ++ [(id, task)] }
        let polled := polled + 1
        if polled = 2 || polled = s.platform.tasks.length then
          modify Stage.pause
          invoke (.await 0)
        else invoke (.await polled)

/-- Settles a task (`Platform::settle`): its owner gets the message, or the error is raised there.
-/
def settleTask (id : Nat) (outcome : Outcome) : Flow κ Unit := do
  match ← onPlatform (·.settle id outcome) with
  | none => pure ()
  | some owner =>
    match outcome with
    | .ok none => pure ()
    | .ok (some message) =>
      let _ ← route ⟨owner, owner, message⟩
    | .error e => edit (·.raiseAt owner e)

/-- Publishes why the platform's run ended and answers the error that stopped it, if one did
(`Platform::run`). -/
def finishRun (reason : String) : Flow κ (Except PlatformError Unit) := do
  edit (·.publish { kind := .platformStopped, reason := some reason })
  match ← ask (·.fatal) with
  | some e => pure (.error e)
  | none => pure (.ok ())

/-- Runs the platform (`Platform::run`): drains, settles the next task to finish, and goes on until
nothing is left to do or the platform is stopped, be it by something that comes up while it waits.
-/
def runLoop : Flow κ (Except PlatformError Unit) := do
  invoke .drain
  let p ← ask id
  if p.fatal.isSome then finishRun "fatal"
  else if p.stopped then finishRun "stopped"
  else match ← invoke (.await 0) with
    | .idle => finishRun "idle"
    | .interrupted i =>
      edit Platform.stop
      finishRun i.reason
    | .finished id outcome =>
      settleTask id outcome
      invoke .run

/-- What each call does, the source's methods of `Platform` and `Runtime` that call one another. -/
def body (code : Code κ) : (c : Call κ) → Flow κ c.Answer
  | .resume m base => runMachine code m base
  | .start a => startActor code a
  | .flush a => flushBacklog code a
  | .drain => drainQueues code
  | .await polled => awaitTask code polled
  | .run => runLoop

end Troupe.Flow
