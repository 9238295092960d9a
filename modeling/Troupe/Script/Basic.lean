import Troupe.App
import Troupe.Address.Basic
import Troupe.Message.Matcher

/-!
# Scripts

Every actor can run scripts: lists of instructions (`Instr`) for a stack machine, with the constants
that they name by number (`Script`, with the pools of `Constants`). A function of a script is
written in instructions too, or is foreign, that is, code of the application (`FunBody`).

* What an instruction does is said by `Machine.step`, as far as the machine goes, and by `Flow.meet`
  beyond it. Jumps are absolute (`Instr.jump`).
* An instruction has a mnemonic (`Instr.name`), under which it is published (`Config.logOps`) and
  which its errors name (`ScriptError.stackUnderflow`, `ScriptError.typeMismatch`).
* Five scripts come with the platform: `Script.tell`, `Script.notify`, `Script.spawn`, `Script.kill`
  and `Script.raise`. `Script.notify` is what looks after a mailbox (`Work.mail`): it reads as long
  as there is mail and a receiver, and drops what the receiver does not want.

Headline:
* **`Instr.ofName?_name`**: an instruction is read back from its mnemonic and its operand
  (`Instr.operand?`).
-/

namespace Troupe

/-- An instruction (`Instr`). -/
inductive Instr
  | nop
  | pushNil
  | pushInt (n : Int)
  | pushStr (i : Nat)
  | pushMsg (i : Nat)
  | pushTemplate (i : Nat)
  | pushFun (i : Nat)
  | pushSelf
  | pop
  | dup
  | load (i : Nat)
  | store (i : Nat)
  | jump (target : Nat)
  | jumpIfZero (target : Nat)
  | jumpIfOne (target : Nat)
  | call (argc : Nat)
  | ret
  | alloc
  | run
  | send
  | drop
  | recv (i : Nat)
  | recvCount
  | mailCount
  | mailDq
  | read
  | discard
  | kill
  | raise
  | route
  | unroute
  deriving DecidableEq, Inhabited

/-- The mnemonic of an instruction (`Instr::name`). -/
def Instr.name : Instr → String
  | nop => "nop"
  | pushNil => "push_nil"
  | pushInt _ => "push_int"
  | pushStr _ => "push_str"
  | pushMsg _ => "push_msg"
  | pushTemplate _ => "push_template"
  | pushFun _ => "push_fun"
  | pushSelf => "push_self"
  | pop => "pop"
  | dup => "dup"
  | load _ => "load"
  | store _ => "store"
  | jump _ => "jump"
  | jumpIfZero _ => "jump_if_zero"
  | jumpIfOne _ => "jump_if_one"
  | call _ => "call"
  | ret => "ret"
  | alloc => "alloc"
  | run => "run"
  | send => "send"
  | drop => "drop"
  | recv _ => "recv"
  | recvCount => "recv_count"
  | mailCount => "mail_count"
  | mailDq => "mail_dq"
  | read => "read"
  | discard => "discard"
  | kill => "kill"
  | raise => "raise"
  | route => "route"
  | unroute => "unroute"

/-- The operand of an instruction that has one (`Instr`). -/
def Instr.operand? : Instr → Option Int
  | pushInt n => some n
  | pushStr i | pushMsg i | pushTemplate i | pushFun i | load i | store i | jump i | jumpIfZero i
  | jumpIfOne i | call i | recv i => some i
  | _ => none

/-- The instruction of a mnemonic (`Instr.name`) with an operand, which is passed over if it takes
none. -/
def Instr.ofName? (name : String) (operand : Int) : Option Instr :=
  match name with
  | "nop" => some nop
  | "push_nil" => some pushNil
  | "push_int" => some (pushInt operand)
  | "push_str" => some (pushStr operand.toNat)
  | "push_msg" => some (pushMsg operand.toNat)
  | "push_template" => some (pushTemplate operand.toNat)
  | "push_fun" => some (pushFun operand.toNat)
  | "push_self" => some pushSelf
  | "pop" => some pop
  | "dup" => some dup
  | "load" => some (load operand.toNat)
  | "store" => some (store operand.toNat)
  | "jump" => some (jump operand.toNat)
  | "jump_if_zero" => some (jumpIfZero operand.toNat)
  | "jump_if_one" => some (jumpIfOne operand.toNat)
  | "call" => some (call operand.toNat)
  | "ret" => some ret
  | "alloc" => some alloc
  | "run" => some run
  | "send" => some send
  | "drop" => some drop
  | "recv" => some (recv operand.toNat)
  | "recv_count" => some recvCount
  | "mail_count" => some mailCount
  | "mail_dq" => some mailDq
  | "read" => some read
  | "discard" => some discard
  | "kill" => some kill
  | "raise" => some raise
  | "route" => some route
  | "unroute" => some unroute
  | _ => none

theorem Instr.ofName?_name (i : Instr) : ofName? i.name (i.operand?.getD 0) = some i := by
  cases i <;> rfl

/-- What a function of a script does (`FunKind`). -/
inductive FunBody (κ : App)
  | code (instrs : List Instr)
  | foreign (f : κ.Foreign)

/-- A function of a script (`FunInfo`). -/
structure FunInfo (κ : App) where
  name : String
  argc : Nat
  body : FunBody κ

/-- The text of a function for diagnostics (`Debug`). -/
def FunInfo.inspect {κ : App} (f : FunInfo κ) : String :=
  let kind := match f.body with
    | .code instrs => "vm(" ++ toString instrs.length ++ " ops)"
    | .foreign _ => "foreign"
  "FunInfo \x7b name: " ++ Text.quoted f.name ++ ", argc: " ++ toString f.argc ++
    ", kind: " ++ Text.quoted kind ++ " \x7d"

/-- Instructions and the constants that they name (`Script`). -/
structure Script (κ : App) where
  code : List Instr
  strings : List String := []
  messages : List Message := []
  templates : List (Template κ) := []
  functions : List (FunInfo κ) := []
  matchers : List Matcher := []

namespace Script

variable {κ : App}

instance : Inhabited (Script κ) := ⟨{ code := [] }⟩

/-! ## Scripts of the platform -/

/-- Sends a message (`Script::tell`); if it is not taken, drops it. Answers one or zero. -/
def tell (target : Address) (message : Message) : Script κ where
  strings := [target.text]
  messages := [message]
  code :=
    [.pushMsg 0, .pushStr 0, .send, .jumpIfOne 9,
      .pushMsg 0, .pushStr 0, .drop, .pushInt 0, .ret,
      .pushInt 1]

/-- Reads the mailbox while there is mail and a receiver (`Script::notify`); mail that the receiver
does not take is discarded. -/
def notify : Script κ where
  code :=
    [.mailCount, .jumpIfZero 8, .recvCount, .jumpIfZero 8,
      .read, .jumpIfOne 0, .discard, .jump 0,
      .nop]

/-- Allocates a child and starts it (`Script::spawn`). Answers its address. -/
def spawn (template : Template κ) : Script κ where
  templates := [template]
  code := [.pushTemplate 0, .alloc, .dup, .run]

/-- Removes an actor (`Script::kill`). -/
def kill (target : Address) : Script κ where
  strings := [target.text]
  code := [.pushStr 0, .kill]

/-- Raises an error of the application (`Script::raise`). -/
def raise (text : String) : Script κ where
  messages := [.string text]
  code := [.pushMsg 0, .raise]

end Script

end Troupe
