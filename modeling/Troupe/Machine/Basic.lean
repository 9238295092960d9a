import Troupe.Machine.Frame
import Troupe.Machine.Heap
import Troupe.Message.Envelope
import Troupe.Script.Value

/-!
# The stack machine of an actor

Each actor has a `Machine` (`Runtime`) that runs its scripts: a stack of frames over a heap. The
machine is bound to one incarnation of the actor by address and generation, and it may be out of its
context while the incarnation goes (`Platform.isCurrent`).

One instruction (`Machine.step`) either moves the machine on, fails, or *demands* something from the
platform (`StepResult`): the machine then stands behind the instruction with the operands taken, and
goes on once the answer has been pushed (`Machine.pushValue`). So everything that reaches beyond the
machine is a `Demand`, and is met by `Flow.meet`; everything here is a function of the machine.

* Frames come and go by `Machine.pushFrame`, which refuses one above the limit
  (`ScriptError.frameOverflow`), by `Machine.leave` at a return (`ret`), and by `Machine.unwind`
  when a script is given up. `Machine.leave` hands the result over and releases what else the frame
  owned; `Machine.unwind` releases everything above a given depth.
* Scripts nest: a script that is run while another is under way begins on top of its frames and is
  done when they are on top again, so nobody below notices.
* Composite values live on the heap (`HeapObject`); the frame on top owns what it makes
  (`Machine.pushObject`). `Machine.resolve` reads an operand: a cell that is empty, or a function,
  reads as nothing.
* Operands of a certain kind are taken by `Machine.popAddress`, which knows the token for the actor
  itself, `Machine.popMessage` and `Machine.popTemplate`. A function is called by `Machine.call`,
  with its number on top of the arguments.

A failed step has no machine: the frames of the script are given up anyway (`Flow.failScript`).
-/

namespace Troupe

variable {κ : App}

/-- An object on the heap (`HeapObject`). -/
inductive HeapObject (κ : App)
  | str (s : String)
  | msg (m : Message)
  | template (t : Template κ)

/-- The value that an object stands for (`resolve`). -/
def HeapObject.value : HeapObject κ → Value κ
  | str s => .str s
  | msg m => .message m
  | template t => .template t

/-- A machine (`Runtime`). The running frame comes first. -/
structure Machine (κ : App) where
  address : Address
  generation : Nat
  heap : Heap (HeapObject κ)
  frames : List (Frame κ)
  maxFrames : Nat

/-- What an instruction wants from the platform; `Flow.meet` meets it. -/
inductive Demand (κ : App)
  | allocate (template : Template κ)
  | start (target : Address)
  | send (target : Address) (message : Message)
  | drop (target : Address) (message : Message)
  | arm (matcher : Matcher)
  | countReceivers
  | countMail
  | takeMail
  | read
  | discardMail
  | kill (target : Address)
  | route (target : Address)
  | unroute (target : Address)
  | foreign (f : κ.Foreign) (args : List (Value κ))

/-- How an instruction ends within the machine (`Step`). -/
inductive StepResult (κ : App)
  | next (m : Machine κ)
  | demand (d : Demand κ) (m : Machine κ)

namespace Machine

/-- The machine of a new incarnation (`Runtime::new`). -/
def new (address : Address) (generation maxFrames : Nat) : Machine κ :=
  { address, generation, heap := ∅, frames := [], maxFrames }

/-- The number of frames (`Runtime::depth`). -/
def depth (m : Machine κ) : Nat :=
  m.frames.length

/-- Changes the running frame (`Machine.frames`), and takes something from it. -/
def onTop {α : Type} (m : Machine κ) (f : Frame κ → Except ScriptError (α × Frame κ)) :
    Except ScriptError (α × Machine κ) :=
  match m.frames with
  | [] => .error (.stackUnderflow "frame")
  | top :: rest =>
    match f top with
    | .ok (x, top) => .ok (x, { m with frames := top :: rest })
    | .error e => .error e

/-- Changes the running frame (`top`). -/
def withTop (m : Machine κ) (f : Frame κ → Frame κ) : Except ScriptError (Machine κ) :=
  match m.frames with
  | [] => .error (.stackUnderflow "frame")
  | top :: rest => .ok { m with frames := f top :: rest }

/-- Pushes an operand (`Frame.push`). -/
def push (m : Machine κ) (d : Datum) : Except ScriptError (Machine κ) :=
  m.withTop fun f => f.push d

/-- Pops an operand (`Frame.pop`). -/
def pop (m : Machine κ) (op : String) : Except ScriptError (Datum × Machine κ) :=
  m.onTop fun f => f.pop op

/-- Puts an object on the heap, for the running frame to own, and pushes a reference to it
(`push_obj`). -/
def pushObject (m : Machine κ) (x : HeapObject κ) : Except ScriptError (Machine κ) :=
  let (cell, heap) := m.heap.alloc x
  { m with heap }.withTop fun f => { f with owned := f.owned ++ [cell] }.push (.ref cell)

/-- Pushes a value (`alloc_value`). -/
def pushValue (m : Machine κ) : Value κ → Except ScriptError (Machine κ)
  | .nil => m.push .nil
  | .int n => m.push (.int n)
  | .str s => m.pushObject (.str s)
  | .message msg => m.pushObject (.msg msg)
  | .template t => m.pushObject (.template t)

/-- The value of an operand (`resolve`). -/
def resolve (m : Machine κ) : Datum → Value κ
  | .nil => .nil
  | .fn _ => .nil
  | .int n => .int n
  | .ref cell => ((m.heap.get? cell).map HeapObject.value).getD .nil

/-- Starts a frame, if there is room for it (`push_frame`). -/
def pushFrame (m : Machine κ) (f : Frame κ) : Except ScriptError (Machine κ) :=
  if m.frames.length < m.maxFrames then .ok { m with frames := f :: m.frames }
  else .error (.frameOverflow m.maxFrames)

/-- Ends the running frame (`ret`). Its result is the top of its stack: a value if the frame below
is number `base`, counted from the bottom, else an operand that is pushed there, nil if the stack is
empty. A cell in the result goes to the frame below; the others are released. -/
def leave (m : Machine κ) (base : Nat) : Option (Value κ) × Machine κ :=
  match m.frames with
  | [] => (none, m)
  | top :: rest =>
    if rest.length = base then
      (top.stack.head?.map m.resolve,
        { m with heap := m.heap.releaseAll top.owned, frames := rest })
    else
      match rest with
      | [] => (none, { m with heap := m.heap.releaseAll top.owned, frames := [] })
      | caller :: below =>
        let d := top.stack.head?.getD .nil
        let (top, caller) := match d with
          | .ref cell => top.give cell caller
          | _ => (top, caller)
        (none,
          { m with heap := m.heap.releaseAll top.owned, frames := caller.push d :: below })

/-- Ends frames until `base` are left (`unwind`). -/
def unwind (m : Machine κ) (base : Nat) : Machine κ :=
  let ended := m.frames.take (m.frames.length - base)
  { m with
    heap := ended.foldl (fun h f => h.releaseAll f.owned) m.heap
    frames := m.frames.drop (m.frames.length - base) }

/-- The next instruction, with the machine moved past it (`Frame::fetch`). -/
def fetch (m : Machine κ) : Option (Instr × Machine κ) :=
  match m.frames with
  | [] => none
  | top :: rest =>
    match top.fetch with
    | some i => some (i, { m with frames := { top with ip := top.ip + 1 } :: rest })
    | none => none

/-- A constant of the running script (`constant`). -/
def constant {α : Type} (m : Machine κ) (kind : String) (i : Nat) (pool : Script κ → List α) :
    Except ScriptError α :=
  match m.frames.head?.bind fun f => (pool f.script)[i]? with
  | some x => .ok x
  | none => .error (.missingConstant kind i)

/-- Pops an address (`pop_address`). The self token stands for the machine's own. -/
def popAddress (m : Machine κ) (op : String) : Except ActorError (Address × Machine κ) := do
  let (d, m') ← m.pop op
  let ofText (s : String) : Except ActorError (Address × Machine κ) :=
    if s = selfToken then .ok (m.address, m')
    else match Address.parse s with
      | .ok a => .ok (a, m')
      | .error e => .error e
  match m.resolve d with
  | .str s => ofText s
  | .message (.string s) => ofText s
  | _ => .error (ScriptError.typeMismatch op "address")

/-- Pops a message (`pop_message`). -/
def popMessage (m : Machine κ) (op : String) : Except ActorError (Message × Machine κ) := do
  let (d, m') ← m.pop op
  .ok ((m.resolve d).toMessage, m')

/-- Pops a template (`pop_template`). -/
def popTemplate (m : Machine κ) (op : String) : Except ActorError (Template κ × Machine κ) := do
  let (d, m') ← m.pop op
  match m.resolve d with
  | .template t => .ok (t, m')
  | _ => .error (ScriptError.typeMismatch op "template")

/-- Goes to `target` if the top operand is `n`. -/
def jumpIf (m : Machine κ) (op : String) (n : Int) (target : Nat) :
    Except ScriptError (Machine κ) := do
  let (k, m) ← m.onTop fun f => do
    let (k, f) := f.popInt op
    return (← k, f)
  if k = n then m.withTop fun f => { f with ip := target } else .ok m

/-- Calls the function on top of the stack with the `argc` operands below it (`Runtime::call`). -/
def call (m : Machine κ) (argc : Nat) : Except ScriptError (StepResult κ) := do
  let (d, m) ← m.pop "call"
  let .fn index := d | .error (.typeMismatch "call" "function")
  let (args, m) ← m.onTop fun f => f.popMany argc "call"
  let info ← m.constant "function" index Script.functions
  if info.argc ≠ argc then .error (.typeMismatch "call" "matching arity")
  else match info.body, m.frames.head? with
    | .foreign f, _ => .ok (.demand (.foreign f (args.map m.resolve)) m)
    | .code _, some top =>
      return .next (← m.pushFrame (.call top.script info.name index args))
    | .code _, none => .error (.stackUnderflow "frame")

/-- Carries one instruction out as far as the machine goes (`Runtime::step`). Returns are for the
caller, who knows where the script began. -/
def step (m : Machine κ) (i : Instr) : Except ActorError (StepResult κ) :=
  let op := i.name
  match i with
  | .nop => .ok (.next m)
  | .ret => .ok (.next m)
  | .pushNil => return .next (← m.push .nil)
  | .pushInt n => return .next (← m.push (.int n))
  | .pushStr i => return .next (← m.pushObject (.str (← m.constant "string" i Script.strings)))
  | .pushMsg i => return .next (← m.pushObject (.msg (← m.constant "message" i Script.messages)))
  | .pushTemplate i =>
    return .next (← m.pushObject (.template (← m.constant "template" i Script.templates)))
  | .pushFun i => do
    let _ ← m.constant "function" i Script.functions
    return .next (← m.push (.fn i))
  | .pushSelf => return .next (← m.pushObject (.str m.address.text))
  | .pop => do
    let (_, m) ← m.pop op
    return .next m
  | .dup => do
    let ((), m) ← m.onTop fun f => do return ((), f.push (← f.peek op))
    return .next m
  | .load i => do
    let ((), m) ← m.onTop fun f => do return ((), f.push (← f.load i))
    return .next m
  | .store i => do
    let ((), m) ← m.onTop fun f => do
      let (d, f) ← f.pop op
      return ((), f.store i d)
    return .next m
  | .jump target => return .next (← m.withTop fun f => { f with ip := target })
  | .jumpIfZero target => return .next (← m.jumpIf op 0 target)
  | .jumpIfOne target => return .next (← m.jumpIf op 1 target)
  | .call argc => do m.call argc
  | .alloc => do
    let (t, m) ← m.popTemplate op
    return .demand (.allocate t) m
  | .run => do
    let (target, m) ← m.popAddress op
    return .demand (.start target) m
  | .send => do
    let (target, m) ← m.popAddress op
    let (message, m) ← m.popMessage op
    return .demand (.send target message) m
  | .drop => do
    let (target, m) ← m.popAddress op
    let (message, m) ← m.popMessage op
    return .demand (.drop target message) m
  | .recv i => return .demand (.arm (← m.constant "matcher" i Script.matchers)) m
  | .recvCount => return .demand .countReceivers m
  | .mailCount => return .demand .countMail m
  | .mailDq => return .demand .takeMail m
  | .read => return .demand .read m
  | .discard => return .demand .discardMail m
  | .kill => do
    let (target, m) ← m.popAddress op
    return .demand (.kill target) m
  | .raise => do
    let (message, _) ← m.popMessage op
    .error (.application (match message with
      | .string s => s
      | other => other.render))
  | .route => do
    let (target, m) ← m.popAddress op
    return .demand (.route target) m
  | .unroute => do
    let (target, m) ← m.popAddress op
    return .demand (.unroute target) m

end Machine

end Troupe
