import Troupe.Platform.Basic
import Troupe.Verdict

/-!
# What application code does

Code of the application runs on behalf of an actor and reaches the platform through a capability
bound to that actor (`Cx`). An `Act` is such a piece of code as data: it looks at the platform,
changes the application's own state, and asks for things (`Request`), each answered before the act
goes on (`Request.Answer`). So an act stands for code that does anything whatever between its
requests, and that may ask for anything depending on the answers it got. How requests are met is
said by `Flow.answer`.

`Code` says what the values of an application do:

* how actors are built and ended (`Code.build`, `Code.init`, `Code.stop`), what they do on each
  `Hook` (`Code.hook`), and what foreign functions do (`Code.foreign`). Hooks and foreign functions
  have the capability, the others have not, as in the source;
* what traps answer (`Code.judge`), how far tasks are (`Code.poll`), and which identifier an actor
  without one gets (`Code.freshId`, a random one in the source);
* what comes up while the platform waits for tasks (`Code.interrupt`, an `Interrupt`).

All of it may depend on the application's state (`App.World`) and change it. So a task may be
finished at any time, tasks in any order, and an interrupt may come at any wait: what is shown for
every `Code` and every `App.World` is shown for all of these.

Two premises are built into the types: application code ends, and it does not unwind. A hook that
panics takes the platform's thread with it, and nothing is said about that.
-/

namespace Troupe

/-- What the capability of an actor can be asked for (`Cx`). -/
inductive Request (κ : App)
  /-- Send a message; a message that is not taken is dropped (`tell`). -/
  | tell (target : Address) (message : Message)
  /-- Send a message to every member of a group (`broadcast`). -/
  | broadcast (group : String) (message : Message)
  /-- Hand a message to the actor it was meant for, past all routes (`forward`). -/
  | forward (env : Envelope)
  /-- Decline a message (`drop_message`). -/
  | drop (env : Envelope)
  /-- Arm a receiver for one message (`receive`). -/
  | receive (matcher : Matcher)
  /-- Remove this actor or one below it (`kill`). -/
  | kill (target : Address)
  /-- Start an allocated actor (`run`). -/
  | start (target : Address)
  /-- Remove this actor (`exit`). -/
  | exit
  /-- Raise an error on this actor (`raise`). -/
  | raise (error : ActorError)
  /-- Run a task; this actor runs no slot until it is settled (`run_task`). -/
  | runTask (task : κ.Task)
  /-- Route everything at and below `target` to this actor (`route`, taken back by `unroute`). -/
  | route (target : Address)
  | unroute (target : Address)
  /-- Join a group (`join`). -/
  | join (group : String)
  /-- Run a script on this actor's machine (`exec`). -/
  | exec (script : Script κ)
  /-- Allocate a child and start it with the actors below it (`spawn`). -/
  | spawn (template : Template κ)
  /-- Allocate a child (`alloc`). -/
  | alloc (template : Template κ)
  /-- Publish an event (`Platform::trigger`). -/
  | trigger (e : Event)
  /-- Stop the platform, by its `cancellation_token`. -/
  | stop

/-- What a request is answered with, the result of the method of `Cx` that makes it. -/
def Request.Answer {κ : App} : Request κ → Type
  | tell _ _ => Bool
  | broadcast _ _ => Nat
  | forward _ => Bool
  | drop _ => Unit
  | receive _ => Unit
  | kill _ => Except PlatformError Unit
  | start _ => Except PlatformError Unit
  | exit => Unit
  | raise _ => Unit
  | runTask _ => Nat
  | route _ => Unit
  | unroute _ => Unit
  | join _ => Bool
  | exec _ => Option (Value κ)
  | spawn _ => Except PlatformError Address
  | alloc _ => Except PlatformError Address
  | trigger _ => Unit
  | stop => Unit

/-- A piece of application code that ends in an `α`. -/
inductive Act (κ : App) (α : Type)
  /-- Ends. -/
  | done (a : α)
  /-- Asks for something and goes on with the answer. -/
  | ask (r : Request κ) (next : r.Answer → Act κ α)
  /-- Looks at the platform and at the application's state. -/
  | look (next : Platform κ → κ.World → Act κ α)
  /-- Changes the application's state. -/
  | put (w : κ.World) (next : Act κ α)

namespace Act

variable {κ : App} {α β : Type}

/-- One piece of code after another, for the `Monad` instance of `Act`. -/
def bind : Act κ α → (α → Act κ β) → Act κ β
  | done a, f => f a
  | ask r next, f => ask r fun x => (next x).bind f
  | look next, f => look fun p w => (next p w).bind f
  | put w next, f => put w (next.bind f)

instance : Monad (Act κ) where
  pure := done
  bind := bind

/-- Asks for something (`Act.ask`). -/
def request (r : Request κ) : Act κ r.Answer :=
  ask r done

/-- The platform as it is (`Act.look`, the source's `Cx::platform`). -/
def platform : Act κ (Platform κ) :=
  look fun p _ => done p

/-- The application's state (`Act.look`). -/
def world : Act κ κ.World :=
  look fun _ w => done w

/-- Changes the application's state (`Act.put`). -/
def modifyWorld (f : κ.World → κ.World) : Act κ Unit :=
  look fun _ w => put (f w) (done ())

/-- What an actor does with a message in its hands if it does not say otherwise (`Actor::accept`):
decline it. -/
def decline (env : Envelope) : Act κ (Except ActorError Unit) :=
  ask (.drop env) fun _ => done (.ok ())

end Act

/-- The occasions on which an actor's code runs (`Actor`). -/
inductive Hook
  /-- The actor is started (`run`). -/
  | run
  /-- A message comes into the actor's own hands (`accept`). -/
  | accept (env : Envelope)
  /-- A receiver took a message, with the tag of its case (`receive`). -/
  | receive (tag : String) (env : Envelope)

/-- What a task answers when it is asked how far it is (`TaskFuture`). -/
inductive Poll (κ : App)
  /-- Not finished: it asks to be polled again. -/
  | pending (t : κ.Task)
  | ready (o : Outcome)

/-- What can end the wait of a platform for its tasks (`shutdown_requested`). -/
inductive Interrupt
  /-- The cancellation token of the platform was pulled. -/
  | cancelled
  /-- The operating system asks the process to end. -/
  | signal
  deriving DecidableEq

/-- Why a platform stopped that was interrupted, as `run` publishes it. -/
def Interrupt.reason : Interrupt → String
  | cancelled => "stopped"
  | signal => "signal"

/-- What the values of an application do. Actors are the source's `Actor` trait, with `build` for
`instantiate`. -/
structure Code (κ : App) where
  /-- An identifier for an actor whose template names none. -/
  freshId : κ.World → String × κ.World
  /-- Builds an actor (`instantiate`). -/
  build : κ.Factory → List Message → κ.World → κ.Actor × κ.World
  /-- The behaviour of an actor that was just built (`init`). -/
  init : κ.Actor → κ.World → Behaviour × κ.World
  /-- What an actor does at its end (`stop`). -/
  stop : κ.Actor → κ.World → κ.World
  /-- The verdict of a trap (`Trap`). -/
  judge : κ.Trap → ActorError → κ.World → Verdict × κ.World
  /-- What an actor, living at an address, does on an occasion (`Hook`). -/
  hook : κ.Actor → Hook → Address → Act κ (Except ActorError Unit)
  /-- What a foreign function, called by a script of an address, does (`FunKind`). -/
  foreign : κ.Foreign → List (Value κ) → Address → Act κ (Except ActorError (Value κ))
  /-- How far a task is (`Poll`). -/
  poll : κ.Task → κ.World → Poll κ × κ.World
  /-- What comes up while the platform waits for its tasks, if anything does (`Interrupt`). -/
  interrupt : κ.World → Option Interrupt := fun _ => none

end Troupe
