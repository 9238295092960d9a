import Troupe.Stage.Basic

/-!
# Flows

The work of a platform is re-entrant: a script sends a message, the receiver's code runs at once,
sends in turn, starts an actor, runs a script of its own, and so on to any depth. In the source
these are methods of `Platform` and `Runtime` that call one another. A `Flow` is such work as data.
It reads and replaces the stage (`Flow.get`, `Flow.set`) and *calls* one of the few activities that
may nest (`Call`); what a call does is a flow again, its *body* (`Flow.body`).

* Only what can come back to itself is a `Call`: running a script (`Runtime::exec`), starting an
  actor (`start_actor`), handing out a backlog (`flush_backlog`), `drain`, and `run` with its wait
  for tasks. Loops are calls as well: a body does one step and calls itself for the rest. All other
  methods are plain definitions, in this file's namespace or on stages and platforms.
* `Flow.perform` carries a flow out, with calls nested to a bounded depth. A flow that goes deeper
  has no result; with more depth a result stays what it was. So the depth is a bound on the work and
  not part of it: that a flow ends is that some depth is enough.
* A flow can also be carried out step by step, with nested calls spelled out (`Flow.Advance`), which
  is how what happens in the middle of an operation is spoken of. The two agree
  (`Flow.perform_advances`).

Nothing else happens between two steps of a flow: a platform works on one thread. What others do
meanwhile, the audience and whoever else has the bus, is `Moment.Next.meanwhile`, and it happens
between operations. The one time a platform waits is for its tasks (`Call.await`), and what comes of
that is a `Waited`.
-/

namespace Troupe

/-- The activities that may nest, each a method of the source's `Platform` or `Runtime`. -/
inductive Call (κ : App)
  /-- Let a machine run until `base` frames are left. -/
  | resume (m : Machine κ) (base : Nat)
  /-- Start an actor (`start_actor`). -/
  | start (a : Address)
  /-- Give an idle actor the messages of its backlog (`flush_backlog`). -/
  | flush (a : Address)
  /-- Judge raised errors and run slots until none are left (`drain`). -/
  | drain
  /-- Poll tasks until one is finished; `polled` of them were polled since the last pause. -/
  | await (polled : Nat)
  /-- Run the platform until it is idle or stopped (`run`). -/
  | run

/-- What a wait for tasks comes to (`select!` in `run`). -/
inductive Waited
  /-- There is no task to wait for. -/
  | idle
  /-- A task is finished, with its `Outcome`. -/
  | finished (id : Nat) (o : Outcome)
  /-- Something else came first (`Interrupt`). -/
  | interrupted (i : Interrupt)

/-- What a call comes to, the result of the method. -/
def Call.Answer {κ : App} : Call κ → Type
  | resume _ _ => Option (Value κ) × Machine κ
  | start _ => Except PlatformError Unit
  | flush _ => Unit
  | drain => Unit
  | await _ => Waited
  | run => Except PlatformError Unit

/-- Work of a platform that ends in an `α`. -/
inductive Flow (κ : App) (α : Type)
  /-- Ends. -/
  | done (a : α)
  /-- Reads the `Stage`. -/
  | get (next : Stage κ → Flow κ α)
  /-- Replaces the `Stage`. -/
  | set (s : Stage κ) (next : Flow κ α)
  /-- Calls an activity and goes on with what it comes to (`Call.Answer`). -/
  | call (c : Call κ) (next : c.Answer → Flow κ α)

namespace Flow

variable {κ : App} {α β : Type}

/-- One flow after another, for the `Monad` instance of `Flow`. -/
def bind : Flow κ α → (α → Flow κ β) → Flow κ β
  | done a, f => f a
  | get next, f => get fun s => (next s).bind f
  | set s next, f => set s (next.bind f)
  | call c next, f => call c fun x => (next x).bind f

instance : Monad (Flow κ) where
  pure := done
  bind := bind

/-- Calls an activity (`Flow.call`). -/
def invoke (c : Call κ) : Flow κ c.Answer :=
  call c done

/-- Does something to the stage and answers what comes of it (`Flow.set`). -/
def onStage (f : Stage κ → α × Stage κ) : Flow κ α :=
  get fun s => set (f s).2 (done (f s).1)

/-- Changes the stage (`Flow.set`). -/
def modify (f : Stage κ → Stage κ) : Flow κ Unit :=
  get fun s => set (f s) (done ())

/-- Changes the platform (`Stage.edit`). -/
def edit (f : Platform κ → Platform κ) : Flow κ Unit :=
  modify fun s => s.edit f

/-- Does something to the platform and answers what comes of it (`onStage`). -/
def onPlatform (f : Platform κ → α × Platform κ) : Flow κ α :=
  onStage fun s => ((f s.platform).1, { s with platform := (f s.platform).2 })

/-- Asks the platform something (`Flow.get`). -/
def ask (f : Platform κ → α) : Flow κ α :=
  get fun s => done (f s.platform)

/-- Does something if a condition holds. -/
def when (b : Bool) (f : Flow κ Unit) : Flow κ Unit :=
  if b then f else done ()

/-- Counts the items for which something succeeds, in order (`tell_members`). -/
def countM {γ : Type} (f : γ → Flow κ Bool) : List γ → Flow κ Nat
  | [] => done 0
  | x :: xs =>
    (f x).bind fun b => (countM f xs).bind fun n => done (if b then n + 1 else n)

/-! ## Carrying flows out -/

/-- Carries a flow out on a stage, given what calls come to (`Call.Answer`). -/
def performWith (answer : (c : Call κ) → Stage κ → Option (c.Answer × Stage κ)) :
    Flow κ α → Stage κ → Option (α × Stage κ)
  | done a, s => some (a, s)
  | get next, s => performWith answer (next s) s
  | set s next, _ => performWith answer next s
  | call c next, s =>
    match answer c s with
    | some (x, s) => performWith answer (next x) s
    | none => none

/-- Carries a call out, with calls nested at most `depth` deep. -/
def performCall (body : (c : Call κ) → Flow κ c.Answer) :
    (depth : Nat) → (c : Call κ) → Stage κ → Option (c.Answer × Stage κ)
  | 0, _, _ => none
  | n + 1, c, s => performWith (performCall body n) (body c) s

/-- Carries a flow out, with calls nested at most `depth` deep. -/
def perform (body : (c : Call κ) → Flow κ c.Answer) (depth : Nat) (f : Flow κ α) (s : Stage κ) :
    Option (α × Stage κ) :=
  performWith (performCall body depth) f s

end Flow

end Troupe
