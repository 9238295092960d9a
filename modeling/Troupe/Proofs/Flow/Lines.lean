import Troupe.Proofs.Address.Parsing
import Troupe.Proofs.Flow.Scripts
import Troupe.Proofs.Flow.Stepwise

/-!
# Scripts carried out line by line

A script is a chain of calls of `Call.resume`, one for each line. So what it comes to is found by
following it: `performCall_next`, `performCall_demand`, `performCall_ret` and `performCall_end` say
how a call that is carried out goes on with the next, for a line that stays within the machine, a
line that demands something, a return, and the end of the code; `performCall_gone` says how a script
ends whose incarnation has gone. Each line takes one from the depth to which calls may nest.

If instructions are logged, the bus is told of each line (`Stage.logged`, `Event.executed`); nothing
else is changed by that (`logged_eq`).

While a script runs that calls no functions, its machine is the one it began on with a frame on top
and another heap (`Machine.running`), and when it has ended the cells of the frame are released
(`Machine.rested`). For such scripts the rules for lines speak of the line's number, the operands
and the heap only.

Headlines:
* **`perform_exec`**, **`perform_exec_full`**: a script that has room is its lines
  (`Runtime::exec`), and a machine without room raises that.
* **`performCall_running_next`**, **`performCall_running_demand`**, **`performCall_running_end`**:
  the rules for scripts without functions.
-/

namespace Troupe

open Troupe.Flow

variable {κ : App} {α β : Type}

/-! ## Logging -/

/-- An instruction was carried out for an actor (`EventKind.opExecuted`). -/
def Event.executed (a : Address) (i : Instr) : Event :=
  { kind := .opExecuted, address := some a, op := some i.name }

/-- The stage after some instructions of an actor, if instructions are logged (`Config.logOps`). -/
def Stage.logged (s : Stage κ) (a : Address) (is : List Instr) : Stage κ :=
  is.foldl (fun s i => if s.platform.config.logOps then s.edit (·.publish (.executed a i)) else s) s

namespace Stage

variable {s : Stage κ} {a : Address} {is : List Instr}

theorem logged_append (s : Stage κ) (a : Address) (is js : List Instr) :
    (s.logged a is).logged a js = s.logged a (is ++ js) :=
  List.foldl_append.symm

/-- Logging changes the bus at most. -/
theorem logged_eq (s : Stage κ) (a : Address) (is : List Instr) :
    ∃ bus, s.logged a is = s.edit fun p => { p with bus } := by
  induction is generalizing s with
  | nil => exact ⟨s.platform.bus, rfl⟩
  | cons i is ih =>
    show ∃ bus, (if s.platform.config.logOps then s.edit (·.publish (.executed a i)) else s).logged
      a is = _
    by_cases hlog : s.platform.config.logOps = true
    · rw [if_pos hlog]
      exact ih (s.edit (·.publish (.executed a i)))
    · rw [if_neg hlog]
      exact ih s

@[simp] theorem isCurrent_logged (b : Address) (g : Nat) :
    (s.logged a is).platform.isCurrent b g = s.platform.isCurrent b g := by
  obtain ⟨bus, h⟩ := s.logged_eq a is
  rw [h]
  rfl

@[simp] theorem logOps_logged :
    (s.logged a is).platform.config.logOps = s.platform.config.logOps := by
  obtain ⟨bus, h⟩ := s.logged_eq a is
  rw [h]
  rfl

/-- If instructions are not logged (`Config.logOps`), nothing is changed. -/
theorem logged_silent (h : s.platform.config.logOps = false) : s.logged a is = s := by
  induction is with
  | nil => rfl
  | cons i is ih =>
    show (if s.platform.config.logOps then s.edit (·.publish (.executed a i)) else s).logged a is = s
    rw [if_neg (by simp [h])]
    exact ih

/-- What logging tells (`Event.executed`). -/
theorem published_logged (s : Stage κ) (a : Address) (is : List Instr) :
    (s.logged a is).platform.bus.published.toList = s.platform.bus.published.toList ++
      if s.platform.config.logOps then is.map (.executed a) else [] := by
  induction is generalizing s with
  | nil => simp [logged]
  | cons i is ih =>
    show ((if s.platform.config.logOps then s.edit (·.publish (.executed a i)) else s).logged
      a is).platform.bus.published.toList = _
    by_cases hlog : s.platform.config.logOps = true
    · rw [if_pos hlog, ih]
      show (s.platform.bus.published.push (.executed a i)).toList ++
        (if s.platform.config.logOps = true then _ else _) = _
      simp [hlog]
    · rw [if_neg hlog, ih, if_neg hlog, if_neg hlog]

end Stage

/-! ## Carrying out -/

namespace Flow

variable {answer : (c : Call κ) → Stage κ → Option (c.Answer × Stage κ)} {code : Code κ}
  {s : Stage κ} {m m' m'' : Machine κ} {base n : Nat} {i : Instr}

theorem performWith_invoke (c : Call κ) (s : Stage κ) :
    performWith answer (invoke c) s = answer c s := by
  show performWith answer (.call c done) s = _
  rw [performWith]
  cases answer c s <;> rfl

/-- A script that has room (`exec`) is its lines. -/
theorem perform_exec (h : m.depth < m.maxFrames) (script : Script κ) (n : Nat) (s : Stage κ) :
    perform (body code) n (exec m script) s = performCall (body code) n
      (.resume { m with frames := .main script :: m.frames } m.depth) s := by
  have hpush : m.pushFrame (.main script) = .ok { m with frames := .main script :: m.frames } :=
    if_pos h
  unfold exec
  rw [hpush]
  exact performWith_invoke _ s

/-- A machine without room for a script raises that (`Platform.raiseAt`). -/
theorem perform_exec_full (h : m.maxFrames ≤ m.depth) (script : Script κ) (n : Nat)
    (s : Stage κ) : perform (body code) n (exec m script) s = some ((none, m),
      s.edit (·.raiseAt m.address (.script (.frameOverflow m.maxFrames)))) := by
  have hpush : m.pushFrame (.main script) = .error (.frameOverflow m.maxFrames) :=
    if_neg (Nat.not_lt.mpr h)
  unfold exec
  rw [hpush]
  rfl

/-- A script whose incarnation has gone ends at once (`Machine.unwind`). -/
theorem performCall_gone (hb : base < m.depth)
    (hgone : s.platform.isCurrent m.address m.generation = false) :
    performCall (body code) (n + 1) (.resume m base) s = some ((none, m.unwind base), s) := by
  show perform (body code) n (runMachine code m base) s = _
  show performWith _ (if m.depth ≤ base then _ else
    if (!s.platform.isCurrent m.address m.generation) = true then _ else _) s = _
  rw [if_neg (Nat.not_le.mpr hb), hgone, if_pos Bool.not_false]
  rfl

/-- Past its last line a frame returns (`leaveFrame`). -/
theorem performCall_past (hb : base < m.depth)
    (hcur : s.platform.isCurrent m.address m.generation = true) (hf : m.fetch = none) :
    performCall (body code) (n + 1) (.resume m base) s =
      perform (body code) n (leaveFrame m base) s := by
  show perform (body code) n (runMachine code m base) s = _
  show performWith _ (if m.depth ≤ base then _ else
    if (!s.platform.isCurrent m.address m.generation) = true then _ else _) s = _
  rw [if_neg (Nat.not_le.mpr hb), hcur, if_neg (by simp), hf]
  rfl

/-- Past the last line the script ends (`Machine.leave`). -/
theorem performCall_end (hb : m.depth = base + 1)
    (hcur : s.platform.isCurrent m.address m.generation = true) (hf : m.fetch = none) :
    performCall (body code) (n + 1) (.resume m base) s = some (m.leave base, s) := by
  rw [performCall_past (by omega) hcur hf, leaveFrame_last hb]
  rfl

/-- A line is logged (`Stage.logged`) before it is carried out (`carryOut`). -/
theorem performCall_line (hb : base < m.depth)
    (hcur : s.platform.isCurrent m.address m.generation = true) (hf : m.fetch = some (i, m')) :
    performCall (body code) (n + 1) (.resume m base) s =
      perform (body code) n (if i = .ret then leaveFrame m' base else carryOut code m' base i)
        (s.logged m.address [i]) := by
  have haddress : m'.address = m.address := (Machine.fetch_atop hf).address
  show perform (body code) n (runMachine code m base) s = _
  show performWith _ (if m.depth ≤ base then _ else
    if (!s.platform.isCurrent m.address m.generation) = true then _ else _) s = _
  rw [if_neg (Nat.not_le.mpr hb), hcur, if_neg (by simp), hf]
  show performWith _ (when s.platform.config.logOps
    (edit (·.publish (.executed m'.address i))) >>= fun _ =>
      if i = .ret then leaveFrame m' base else carryOut code m' base i) s = _
  rw [haddress]
  unfold Stage.logged
  rw [List.foldl_cons, List.foldl_nil]
  by_cases hlog : s.platform.config.logOps = true
  · rw [if_pos hlog, hlog]
    rfl
  · rw [if_neg hlog, Bool.eq_false_iff.mpr hlog]
    rfl

/-- A line that stays within the machine (`StepResult.next`). -/
theorem performCall_next (hb : base < m.depth)
    (hcur : s.platform.isCurrent m.address m.generation = true) (hf : m.fetch = some (i, m'))
    (hi : i ≠ .ret) (hstep : m'.step i = .ok (.next m'')) :
    performCall (body code) (n + 1) (.resume m base) s =
      performCall (body code) n (.resume m'' base) (s.logged m.address [i]) := by
  rw [performCall_line hb hcur hf, if_neg hi, carryOut_next hstep]
  exact performWith_invoke _ _

/-- A line that demands something (`StepResult.demand`). -/
theorem performCall_demand {d : Demand κ} (hb : base < m.depth)
    (hcur : s.platform.isCurrent m.address m.generation = true) (hf : m.fetch = some (i, m'))
    (hi : i ≠ .ret) (hstep : m'.step i = .ok (.demand d m'')) :
    performCall (body code) (n + 1) (.resume m base) s =
      (perform (body code) n (meet code m'' d) (s.logged m.address [i])).bind fun x =>
        perform (body code) n (goOn x.1.2 base x.1.1) x.2 := by
  rw [performCall_line hb hcur hf, if_neg hi, carryOut_demand hstep]
  exact performWith_bind _ _ _

/-- The last frame returns (`Instr.ret`). -/
theorem performCall_ret (hb : m'.depth = base + 1)
    (hcur : s.platform.isCurrent m.address m.generation = true) (hf : m.fetch = some (.ret, m')) :
    performCall (body code) (n + 1) (.resume m base) s =
      some (m'.leave base, s.logged m.address [.ret]) := by
  have hdepth : m'.depth = m.depth := by
    obtain ⟨top, rest, hm, -, rfl⟩ := Machine.fetch_inv hf
    unfold Machine.depth
    rw [hm]
    rfl
  rw [performCall_line (by omega) hcur hf, if_pos rfl, leaveFrame_last hb]
  rfl

end Flow

/-! ## Scripts without functions -/

namespace Machine

variable {m : Machine κ} {script : Script κ} {heap : Heap (HeapObject κ)} {ip : Nat}
  {stack : List Datum} {owned : List Nat} {cell : Nat} {i : Instr} {t : Template κ} {a : Address}

/-- The machine while it runs a script (`Frame.main`), at a line and with a stack. -/
def running (m : Machine κ) (script : Script κ) (heap : Heap (HeapObject κ)) (ip : Nat)
    (stack : List Datum) (owned : List Nat) : Machine κ :=
  { m with
    heap
    frames := { Frame.main script with ip, stack, owned } :: m.frames }

/-- The machine when the script has ended (`Heap.releaseAll`). -/
def rested (m : Machine κ) (heap : Heap (HeapObject κ)) (owned : List Nat) : Machine κ :=
  { m with heap := heap.releaseAll owned }

@[simp] theorem depth_running : (m.running script heap ip stack owned).depth = m.depth + 1 := rfl

theorem fetch_running (h : script.code[ip]? = some i) :
    (m.running script heap ip stack owned).fetch =
      some (i, m.running script heap (ip + 1) stack owned) := by
  unfold fetch running
  dsimp only [Frame.fetch, Frame.main]
  rw [h]

theorem fetch_running_end (h : script.code[ip]? = none) :
    (m.running script heap ip stack owned).fetch = none := by
  unfold fetch running
  dsimp only [Frame.fetch, Frame.main]
  rw [h]

theorem unwind_running :
    (m.running script heap ip stack owned).unwind m.depth = m.rested heap owned := by
  unfold unwind running rested depth
  simp

theorem resolve_running {x : HeapObject κ} (h : heap.get? cell = some x) :
    (m.running script heap ip stack owned).resolve (.ref cell) = x.value := by
  unfold resolve running
  dsimp only
  rw [h]
  rfl

theorem leave_running {x : HeapObject κ} (h : heap.get? cell = some x) :
    (m.running script heap ip (.ref cell :: stack) owned).leave m.depth =
      (some x.value, m.rested heap owned) := by
  have hframes : (m.running script heap ip (.ref cell :: stack) owned).frames =
      { Frame.main script with ip, stack := .ref cell :: stack, owned } :: m.frames := rfl
  unfold depth
  rw [leave_eq_last hframes rfl]
  refine Prod.ext ?_ rfl
  exact congrArg some (resolve_running h)

theorem popTemplate_running {op : String} (h : heap.get? cell = some (.template t)) :
    (m.running script heap ip (.ref cell :: stack) owned).popTemplate op =
      .ok (t, m.running script heap ip stack owned) := by
  have hpop : (liftM ((m.running script heap ip (.ref cell :: stack) owned).pop op) :
      Except ActorError (Datum × Machine κ)) =
        .ok (.ref cell, m.running script heap ip stack owned) := rfl
  unfold popTemplate
  rw [hpop]
  dsimp only [Bind.bind, Except.bind]
  rw [resolve_running h]
  rfl

theorem popAddress_running {op : String} (h : heap.get? cell = some (.str a.text)) :
    (m.running script heap ip (.ref cell :: stack) owned).popAddress op =
      .ok (a, m.running script heap ip stack owned) := by
  have hpop : (liftM ((m.running script heap ip (.ref cell :: stack) owned).pop op) :
      Except ActorError (Datum × Machine κ)) =
        .ok (.ref cell, m.running script heap ip stack owned) := rfl
  unfold popAddress
  rw [hpop]
  dsimp only [Bind.bind, Except.bind]
  rw [resolve_running h]
  dsimp only [HeapObject.value]
  rw [if_neg a.text_ne_selfToken, a.parse_text]

end Machine

namespace Flow

variable {code : Code κ} {m : Machine κ} {s : Stage κ} {n : Nat} {script : Script κ}
  {heap heap' : Heap (HeapObject κ)} {ip ip' : Nat} {stack stack' : List Datum}
  {owned owned' : List Nat} {i : Instr}

/-- A line that stays within the machine (`StepResult.next`). -/
theorem performCall_running_next (hcur : s.platform.isCurrent m.address m.generation = true)
    (hline : script.code[ip]? = some i) (hi : i ≠ .ret)
    (hstep : (m.running script heap (ip + 1) stack owned).step i =
      .ok (.next (m.running script heap' ip' stack' owned'))) :
    performCall (body code) (n + 1) (.resume (m.running script heap ip stack owned) m.depth) s =
      performCall (body code) n (.resume (m.running script heap' ip' stack' owned') m.depth)
        (s.logged m.address [i]) :=
  performCall_next (Nat.lt_succ_self _) hcur (Machine.fetch_running hline) hi hstep

/-- A line that demands something (`StepResult.demand`). -/
theorem performCall_running_demand (hcur : s.platform.isCurrent m.address m.generation = true)
    (hline : script.code[ip]? = some i) (hi : i ≠ .ret) {d : Demand κ}
    (hstep : (m.running script heap (ip + 1) stack owned).step i =
      .ok (.demand d (m.running script heap (ip + 1) stack' owned))) :
    performCall (body code) (n + 1) (.resume (m.running script heap ip stack owned) m.depth) s =
      (perform (body code) n (meet code (m.running script heap (ip + 1) stack' owned) d)
        (s.logged m.address [i])).bind fun x =>
          perform (body code) n (goOn x.1.2 m.depth x.1.1) x.2 :=
  performCall_demand (Nat.lt_succ_self _) hcur (Machine.fetch_running hline) hi hstep

/-- Past its last line a script ends. It has a result if its incarnation is still there
(`Platform.isCurrent`). -/
theorem performCall_running_end (hline : script.code[ip]? = none) {cell : Nat}
    {x : HeapObject κ} (hcell : heap.get? cell = some x) :
    performCall (body code) (n + 1)
        (.resume (m.running script heap ip (.ref cell :: stack) owned) m.depth) s =
      some ((if s.platform.isCurrent m.address m.generation then some x.value else none,
        m.rested heap owned), s) := by
  cases hcur : s.platform.isCurrent m.address m.generation with
  | true =>
    refine (performCall_end (m := m.running script heap ip (.ref cell :: stack) owned) rfl hcur
      (Machine.fetch_running_end hline)).trans ?_
    exact congrArg (fun x => some (x, s)) (Machine.leave_running hcell)
  | false =>
    refine (performCall_gone (m := m.running script heap ip (.ref cell :: stack) owned)
      (Nat.lt_succ_self _) hcur).trans ?_
    exact congrArg (fun m => some ((none, m), s)) Machine.unwind_running

end Flow

end Troupe
