import Troupe.Flow.Activities

/-!
# Operations of a platform

What a platform can be asked for from outside, the public methods of the source's `Platform` that
change something. Each is a `Flow` to be carried out on a stage (`Flow.perform`).

* Most operations drain the platform before they return (`Operation.thenDrain`): raised errors are
  judged and slots run until none are left.
* Those that only record something do not: `Operation.allocate`, `Operation.putRoute`,
  `Operation.putMember` and their like, `Operation.dropMessage`, `Operation.trigger`,
  `Operation.stop`.
* `Operation.tell` and `Operation.broadcast` send from the discard address, which nobody answers to.
  `Operation.tellFrom` records a message that was not taken as dropped; `Operation.send` does not.
* `Operation.eval` runs a script past the queues and answers its result. It is refused while the
  actor waits for a task (`PlatformError.blocked`), and while its machine is in use.
* `Operation.run` is the main loop, which alone waits for tasks.

`Operation.Public` lists them all as the ways in which an operation may begin. Questions change
nothing and are functions of the platform (`Troupe.Platform.Basic`).
-/

namespace Troupe.Operation

variable {κ : App}

/-- Does something and drains the platform (`drain`). -/
def thenDrain {α : Type} (f : Flow κ α) : Flow κ α := do
  let x ← f
  Flow.invoke .drain
  pure x

/-- Allocates an actor and starts it and the actors below it (`spawn_under`). -/
def spawnUnder (code : Code κ) (parent : Address) (template : Template κ) :
    Flow κ (Except PlatformError Address) := do
  match ← Flow.onStage (Stage.allocate code parent template) with
  | .error e => pure (.error e)
  | .ok a => thenDrain do
    match ← Flow.startTree a with
    | .ok () => pure (.ok a)
    | .error e => pure (.error e)

/-- Allocates an actor at the top and starts it and the actors below it (`Platform::spawn`). -/
def spawn (code : Code κ) (template : Template κ) : Flow κ (Except PlatformError Address) :=
  spawnUnder code .root template

/-- Allocates an actor (`Platform::allocate`). -/
def allocate (code : Code κ) (parent : Address) (template : Template κ) :
    Flow κ (Except PlatformError Address) :=
  Flow.onStage (Stage.allocate code parent template)

/-- Starts an allocated actor (`run_actor`). -/
def runActor (a : Address) : Flow κ (Except PlatformError Unit) :=
  thenDrain (Flow.invoke (.start a))

/-- Schedules a script (`Platform::exec`). -/
def exec (a : Address) (script : Script κ) : Flow κ (Except PlatformError Unit) := do
  match ← Flow.ask (·.generation? a) with
  | none => pure (.error (.notFound a))
  | some generation => thenDrain do
    Flow.edit (·.schedule a generation (.script script))
    pure (.ok ())

/-- Runs a script at once, past the queues, and answers its result (`Platform::eval`). -/
def eval (a : Address) (script : Script κ) : Flow κ (Except PlatformError (Option (Value κ))) := do
  if ← Flow.ask (·.isBlocked a) then pure (.error (.blocked a))
  else match ← Flow.checkOut a with
    | none => pure (.error (.notFound a))
    | some m => thenDrain do
      let (result, m) ← Flow.exec m script
      Flow.checkIn m
      Flow.invoke (.flush a)
      pure (.ok result)

/-- Sends a message (`send_message`). -/
def send (target source : Address) (message : Message) : Flow κ Bool :=
  thenDrain (Flow.route ⟨target, source, message⟩)

/-- Sends a message (`tell_from`); if it is not taken, it is recorded as dropped. -/
def tellFrom (target source : Address) (message : Message) : Flow κ Bool :=
  thenDrain do
    let sent ← Flow.route ⟨target, source, message⟩
    Flow.when (!sent) (Flow.edit (·.dropMessage ⟨target, source, message⟩))
    pure sent

/-- Sends a message from nowhere (`Platform::tell`). -/
def tell (target : Address) (message : Message) : Flow κ Bool :=
  tellFrom target .discard message

/-- Sends a message to the members of a group (`broadcast_from`); answers how many took it. -/
def broadcastFrom (group : String) (source : Address) (message : Message) : Flow κ Nat :=
  thenDrain (Flow.routeToMembers group source message)

/-- Sends a message from nowhere to the members of a group (`Platform::broadcast`). -/
def broadcast (group : String) (message : Message) : Flow κ Nat :=
  broadcastFrom group .discard message

/-- Records that a message was dropped (`Platform::drop_message`). -/
def dropMessage (env : Envelope) : Flow κ Unit :=
  Flow.edit (·.dropMessage env)

/-- Removes an actor and those below it (`Platform::kill`). -/
def kill (code : Code κ) (target : Address) : Flow κ Unit :=
  thenDrain (Flow.modify (Stage.terminate code target))

/-- Raises an error on an address (`Platform::raise`). -/
def raise (a : Address) (e : ActorError) : Flow κ Unit :=
  thenDrain (Flow.edit (·.raiseAt a e))

/-- Routes everything at and below an address to a router (`Platform::put_route`). -/
def putRoute (target router : Address) : Flow κ Unit :=
  Flow.edit (·.putRoute target router)

/-- Removes a route (`Platform::remove_route`). -/
def removeRoute (target : Address) : Flow κ Unit :=
  Flow.edit (·.removeRoute target)

/-- Puts a live actor into a group (`Platform::put_member`). -/
def putMember (group : String) (a : Address) : Flow κ Bool :=
  Flow.onPlatform (·.putMember group a)

/-- Takes an actor out of a group (`Platform::remove_member`). -/
def removeMember (group : String) (a : Address) : Flow κ Bool :=
  Flow.onPlatform (·.removeMember group a)

/-- Publishes an event (`Platform::trigger`). -/
def trigger (e : Event) : Flow κ Unit :=
  Flow.edit (·.publish e)

/-- Stops the platform (`Platform::stop`): what is scheduled stays so, and tasks are not polled any
more. -/
def stop : Flow κ Unit :=
  Flow.edit Platform.stop

/-- Runs the platform until it is idle, stopped or fails (`Platform::run`). -/
def run : Flow κ (Except PlatformError Unit) :=
  Flow.invoke .run

end Troupe.Operation
