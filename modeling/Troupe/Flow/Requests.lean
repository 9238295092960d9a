import Troupe.Flow.Delivery
import Troupe.Stage.Allocation

/-!
# Requests of actors

How the requests of application code (`Flow.answer`, the methods of `Cx`) and the demands of scripts
(`Flow.meet`, the rest of `Runtime::step`) are met. Both act for one machine: the capability of an
actor is the machine that is checked out for it.

* `Flow.serve` carries an `Act` out, and `Flow.act` does so for the incarnation that a machine
  belongs to, taking the actor out of its context meanwhile (`Runtime::invoke`,
  `checkout_instance`). If that incarnation has gone when its code ends, the actor gets its last
  call (`checkin_instance`). If the actor is not there, nothing happens.
* `Flow.actAt` takes the machine out as well (`Flow.checkOut`, `Flow.checkIn`). A machine that comes
  back lets the slots queue that had to wait for it; one whose incarnation has gone is dropped.
* `Flow.exec` runs a script on the machine, on top of what it is doing. A request to run one, or to
  tell a message, therefore nests (`Request.exec`, `Request.tell`).
* `Flow.startTree` starts an actor and those that were below it before (`start_tree`);
  `Flow.killFor` removes one for another, which has to be that one or above it; `Flow.readMail`
  reads the mailbox for a script (`Runtime::read`), or leaves that to a later slot if the actor is
  busy.

Requests and demands differ where the source does: `Request.spawn` starts the whole family,
`Demand.start` one actor; `Request.tell` records a message that was not taken as dropped, since
`Script.tell` does, and `Request.broadcast` does not.
-/

namespace Troupe.Flow

variable {κ : App}

/-- Starts actors in order, those that are still there (`start_tree`). -/
def startAll : List Address → Flow κ (Except PlatformError Unit)
  | [] => pure (.ok ())
  | a :: rest => do
    if ← ask (·.isLive a) then
      match ← invoke (.start a) with
      | .ok () => startAll rest
      | .error e => pure (.error e)
    else startAll rest

/-- Starts an actor, and then the actors that were below it before (`start_tree`). -/
def startTree (a : Address) : Flow κ (Except PlatformError Unit) := do
  let below ← ask (·.descendants a)
  match ← invoke (.start a) with
  | .ok () => startAll below
  | .error e => pure (.error e)

/-- Removes an actor at the request of another, which has to live there or above (`Runtime::kill`).
-/
def killFor (code : Code κ) (caller target : Address) : Flow κ (Except PlatformError Unit) := do
  if target = caller ∨ target.isBelow caller then
    modify (Stage.terminate code target)
    pure (.ok ())
  else pure (.error (.illegalKill target caller))

/-- Runs a script on a machine (`Runtime::exec`). A machine whose frames are at their limit raises
that instead. -/
def exec (m : Machine κ) (script : Script κ) : Flow κ (Option (Value κ) × Machine κ) := do
  match m.pushFrame (.main script) with
  | .ok m' => invoke (.resume m' m.depth)
  | .error e =>
    edit (·.raiseAt m.address e)
    pure (none, m)

/-- Meets a request that leaves the machine alone (`Request`). -/
def onBehalf {α : Type} (m : Machine κ) (f : Flow κ α) : Flow κ (α × Machine κ) :=
  f.bind fun x => pure (x, m)

/-- Meets a request (`Cx`). -/
def answer (code : Code κ) (m : Machine κ) : (r : Request κ) → Flow κ (r.Answer × Machine κ)
  | .tell target message => do
    let (v, m) ← exec m (.tell target message)
    let sent : Bool := match v with
      | some (.int 1) => true
      | _ => false
    pure (sent, m)
  | .broadcast group message => onBehalf m (routeToMembers group m.address message)
  | .forward env => onBehalf m do
    if env.target.isRoot || !(← ask (·.contains env.target)) then
      edit (·.dropMessage env)
      pure false
    else deliver env
  | .drop env => onBehalf m (edit (·.dropMessage env))
  | .receive matcher => onBehalf m (edit (·.armReceiver m.address matcher))
  | .kill target => onBehalf m (killFor code m.address target)
  | .start target => onBehalf m (invoke (.start target))
  | .exit => onBehalf m (modify (Stage.terminate code m.address))
  | .raise error => onBehalf m (edit (·.raiseAt m.address error))
  | .runTask task => onBehalf m (onPlatform (·.registerTask m.address task))
  | .route target => onBehalf m (edit (·.putRoute target m.address))
  | .unroute target => onBehalf m (edit (·.removeRoute target))
  | .join group => onBehalf m (onPlatform (·.putMember group m.address))
  | .exec script => exec m script
  | .spawn template => onBehalf m do
    match ← onStage (Stage.allocate code m.address template) with
    | .error e => pure (.error e)
    | .ok a =>
      match ← startTree a with
      | .ok () => pure (.ok a)
      | .error e => pure (.error e)
  | .alloc template => onBehalf m (onStage (Stage.allocate code m.address template))
  | .trigger e => onBehalf m (edit (·.publish e))
  | .stop => onBehalf m (edit Platform.stop)

/-- Carries out application code for a machine: its requests are met by `answer`. -/
def serve {α : Type} (code : Code κ) : Act κ α → Machine κ → Flow κ (α × Machine κ)
  | .done a, m => pure (a, m)
  | .look next, m => get fun s => serve code (next s.platform s.world) m
  | .put w next, m => (modify fun s => { s with world := w }).bind fun _ => serve code next m
  | .ask r next, m => (answer code m r).bind fun (x, m) => serve code (next x) m

/-- Lets the actor of a machine's incarnation act on an occasion, if it is at hand
(`Runtime::invoke`). -/
def act (code : Code κ) (m : Machine κ) (hook : Hook) :
    Flow κ (Option (Except ActorError Unit) × Machine κ) := do
  let s ← get done
  match s.platform.context? m.address with
  | some ⟨_, generation, some actor, _, _, _, _, _, _⟩ =>
    if generation ≠ m.generation then pure (none, m)
    else
      edit (·.modifyContext m.address fun c => { c with actor := none })
      let (result, m) ← serve code (code.hook actor hook m.address) m
      modify fun s =>
        if s.platform.isCurrent m.address m.generation then
          s.edit (·.modifyContext m.address fun c => { c with actor := some actor })
        else { s with world := code.stop actor s.world }
      pure (some result, m)
  | _ => pure (none, m)

/-- Takes the machine out of a context (`checkout_runtime`). -/
def checkOut (a : Address) : Flow κ (Option (Machine κ)) :=
  onPlatform fun p =>
    ((p.context? a).bind Context.machine, p.modifyContext a fun c => { c with machine := none })

/-- Puts a machine back, if its incarnation is alive (`checkin_runtime`); slots may wait for it. -/
def checkIn (m : Machine κ) : Flow κ Unit :=
  edit fun p =>
    if p.isCurrent m.address m.generation then
      (p.modifyContext m.address fun c => { c with machine := some m }).enqueue m.address
    else p

/-- Lets the actor at an address act on an occasion, if its machine is at hand and it is too
(`with_actor`). -/
def actAt (code : Code κ) (a : Address) (hook : Hook) :
    Flow κ (Option (Except ActorError Unit)) := do
  match ← checkOut a with
  | none => pure none
  | some m =>
    let (result, m) ← act code m hook
    checkIn m
    pure result

/-- What a demand (`Demand`) comes to: something to push, nothing, the end of the script, or an
error. -/
inductive Met (κ : App)
  | push (v : Value κ)
  | nothing
  | halt
  | failed (e : ActorError)

/-- What comes of a request without a result (`PlatformError`). -/
def Met.ofExcept : Except PlatformError Unit → Met κ
  | .ok () => .nothing
  | .error e => .failed e

/-- Reads the mailbox (`Runtime::read`): the head goes to the first receiver, if it wants it. If the
actor is busy, that is left to a later slot. -/
def readMail (code : Code κ) (m : Machine κ) : Flow κ (Met κ × Machine κ) := do
  let p ← ask id
  if !(p.context? m.address).any fun c => c.actor.isSome then
    edit (·.scheduleMail m.address)
    pure (.halt, m)
  else match p.takeMatch m.address with
    | none => pure (.push (.int 0), m)
    | some (hit, p) =>
      edit fun _ => p.publish (Event.withEnvelope
        { kind := .messageReceived, address := some m.address, reason := some hit.tag }
        hit.envelope)
      let (result, m) ← act code m (.receive hit.tag hit.envelope)
      match result with
      | some (.error e) => edit (·.raiseAt m.address e)
      | _ => pure ()
      when hit.temporary (modify (Stage.terminate code m.address))
      pure (.push (.int 1), m)

/-- Meets a demand (`Runtime::step`). -/
def meet (code : Code κ) (m : Machine κ) : Demand κ → Flow κ (Met κ × Machine κ)
  | .allocate template => onBehalf m do
    match ← onStage (Stage.allocate code m.address template) with
    | .ok a => pure (.push (.str a.text))
    | .error e => pure (.failed e)
  | .start target => onBehalf m do
    return .ofExcept (← invoke (.start target))
  | .send target message => onBehalf m do
    let sent ← route ⟨target, m.address, message⟩
    pure (.push (.int (if sent then 1 else 0)))
  | .drop target message => onBehalf m do
    edit (·.dropMessage ⟨target, m.address, message⟩)
    pure .nothing
  | .arm matcher => onBehalf m do
    edit (·.armReceiver m.address matcher)
    pure .nothing
  | .countReceivers => onBehalf m do
    return .push (.int (← ask (·.receiverCount m.address)))
  | .countMail => onBehalf m do
    return .push (.int ((← ask (·.mailboxLength? m.address)).getD 0))
  | .takeMail => onBehalf m do
    match ← onPlatform (·.takeMail m.address) with
    | some env => pure (.push (.message env.message))
    | none => pure (.push .nil)
  | .read => readMail code m
  | .discardMail => onBehalf m do
    edit (·.discardMail m.address)
    pure .nothing
  | .kill target => onBehalf m do
    return .ofExcept (← killFor code m.address target)
  | .route target => onBehalf m do
    edit (·.putRoute target m.address)
    pure .nothing
  | .unroute target => onBehalf m do
    edit (·.removeRoute target)
    pure .nothing
  | .foreign f args => do
    let (result, m) ← serve code (code.foreign f args m.address) m
    match result with
    | .ok v => pure (.push v, m)
    | .error e => pure (.failed e, m)

end Troupe.Flow
