import Troupe.Proofs.Address.Parsing
import Troupe.Proofs.Flow.Lines
import Troupe.Proofs.Flow.Serving
import Troupe.Proofs.Guarantee.Broadcasts

/-!
# What telling answers

An actor's code tells somebody something through a script of ten lines that runs on the actor's own
machine (`Script.tell`, run by the source's `Cx::tell`): it sends the message, and if that is
refused it records a drop and answers no. A script runs for as long as the incarnation it runs for
is there, and only if its machine has room for a frame. So the answer is right when the caller is
there throughout; but a caller that has gone, or that cannot run a script, is answered no although
nothing was sent, and nobody is told of the message. And a caller that the message itself removes is
answered no although the message was taken. `Departed.code` is an application whose actors come to
both (`Departed.child_misled`).

The module first follows the script line by line. `Machine.telling` is the machine in the course of
it, `Machine.told` what the lines after the sending come to, whether the message was taken
(`performCall_taken`) or refused (`performCall_refused`).

Headline:
* **`Moment.tell_accounted`**: what telling comes to, in each of these cases.
-/

namespace Troupe

open Platform Troupe.Flow

section

variable {κ : App} {code : Code κ} {α : Type}

/-! ## The script -/

namespace Machine

variable {m : Machine κ} {target : Address} {message : Message} {heap : Heap (HeapObject κ)}
  {ip : Nat} {stack : List Datum} {owned : List Nat} {cell cell' : Nat} {op : String}

/-- The machine while it runs the script that sends a message (`Script.tell`), at a line and with a
stack. -/
def telling (m : Machine κ) (target : Address) (message : Message) (heap : Heap (HeapObject κ))
    (ip : Nat) (stack : List Datum) (owned : List Nat) : Machine κ :=
  { m with
    heap
    frames := { Frame.main (.tell target message) with ip, stack, owned } :: m.frames }

@[simp] theorem depth_telling :
    (m.telling target message heap ip stack owned).depth = m.depth + 1 := rfl

theorem fetch_telling {i : Instr} (h : (Script.tell (κ := κ) target message).code[ip]? = some i) :
    (m.telling target message heap ip stack owned).fetch =
      some (i, m.telling target message heap (ip + 1) stack owned) :=
  fetch_running h

theorem step_pushMsg : (m.telling target message heap ip stack owned).step (.pushMsg 0) =
    .ok (.next (m.telling target message (heap.alloc (.msg message)).2 ip
      (.ref (heap.alloc (.msg message)).1 :: stack)
      (owned ++ [(heap.alloc (.msg message)).1]))) := rfl

theorem step_pushStr : (m.telling target message heap ip stack owned).step (.pushStr 0) =
    .ok (.next (m.telling target message (heap.alloc (.str target.text)).2 ip
      (.ref (heap.alloc (.str target.text)).1 :: stack)
      (owned ++ [(heap.alloc (.str target.text)).1]))) := rfl

theorem step_pushInt (k : Int) : (m.telling target message heap ip stack owned).step (.pushInt k) =
    .ok (.next (m.telling target message heap ip (.int k :: stack) owned)) := rfl

theorem resolve_telling {x : HeapObject κ} (h : heap.get? cell = some x) :
    (m.telling target message heap ip stack owned).resolve (.ref cell) = x.value :=
  resolve_running h

theorem popAddress_telling (h : heap.get? cell = some (.str target.text)) :
    (m.telling target message heap ip (.ref cell :: stack) owned).popAddress op =
      .ok (target, m.telling target message heap ip stack owned) :=
  popAddress_running h

theorem popMessage_telling (h : heap.get? cell = some (.msg message)) :
    (m.telling target message heap ip (.ref cell :: stack) owned).popMessage op =
      .ok (message, m.telling target message heap ip stack owned) := by
  have hpop : (liftM ((m.telling target message heap ip (.ref cell :: stack) owned).pop op) :
      Except ActorError (Datum × Machine κ)) =
        .ok (.ref cell, m.telling target message heap ip stack owned) := rfl
  unfold popMessage
  rw [hpop]
  dsimp only [Bind.bind, Except.bind]
  rw [resolve_telling h]
  rfl

/-- The operands of a line that takes a message and, above it, its target, as `Instr.send` and
`Instr.drop` do. -/
def Operands (heap : Heap (HeapObject κ)) (target : Address) (message : Message)
    (stack stack' : List Datum) : Prop :=
  ∃ cell cell', stack = .ref cell' :: .ref cell :: stack' ∧
    heap.get? cell' = some (.str target.text) ∧ heap.get? cell = some (.msg message)

theorem step_send {stack' : List Datum} (h : Operands heap target message stack stack') :
    (m.telling target message heap ip stack owned).step .send =
      .ok (.demand (.send target message) (m.telling target message heap ip stack' owned)) := by
  obtain ⟨cell, cell', rfl, htarget, hmessage⟩ := h
  unfold step
  dsimp only
  rw [popAddress_telling htarget]
  dsimp only [Bind.bind, Except.bind]
  rw [popMessage_telling hmessage]
  rfl

theorem step_drop {stack' : List Datum} (h : Operands heap target message stack stack') :
    (m.telling target message heap ip stack owned).step .drop =
      .ok (.demand (.drop target message) (m.telling target message heap ip stack' owned)) := by
  obtain ⟨cell, cell', rfl, htarget, hmessage⟩ := h
  unfold step
  dsimp only
  rw [popAddress_telling htarget]
  dsimp only [Bind.bind, Except.bind]
  rw [popMessage_telling hmessage]
  rfl

theorem step_jump {line : Nat} :
    (m.telling target message heap ip (.int 1 :: stack) owned).step (.jumpIfOne line) =
      .ok (.next (m.telling target message heap line stack owned)) := rfl

theorem step_stay {line : Nat} :
    (m.telling target message heap ip (.int 0 :: stack) owned).step (.jumpIfOne line) =
      .ok (.next (m.telling target message heap ip stack owned)) := rfl

theorem leave_telling (k : Int) :
    (m.telling target message heap ip (.int k :: stack) owned).leave m.depth =
      (some (.int k), { m with heap := heap.releaseAll owned }) := by
  have hframes : (m.telling target message heap ip (.int k :: stack) owned).frames =
      { Frame.main (.tell target message) with ip, stack := .int k :: stack, owned } ::
        m.frames := rfl
  unfold depth
  rw [leave_eq_last hframes rfl]
  rfl

/-- What telling comes to, once it is seen whether the message was taken. The caller is told only if
it is still there; a message that was not taken is dropped (`Platform.dropMessage`). -/
def told (m : Machine κ) (env : Envelope) (taken : Bool) (s : Stage κ) : Bool × Stage κ :=
  if s.platform.isCurrent m.address m.generation then
    if taken then (true, s.logged m.address [.jumpIfOne 9, .pushInt 1])
    else (false, ((s.logged m.address [.jumpIfOne 9, .pushMsg 0, .pushStr 0, .drop]).edit
      (·.dropMessage env)).logged m.address [.pushInt 0, .ret])
  else (false, s)

theorem told_refused (m : Machine κ) (env : Envelope) (s : Stage κ) :
    (m.told env false s).1 = false := by
  unfold told
  split <;> rfl

end Machine

namespace Flow

variable {m : Machine κ} {target : Address} {message : Message} {heap : Heap (HeapObject κ)}
  {ip : Nat} {stack : List Datum} {owned : List Nat} {s t : Stage κ} {n : Nat} {i : Instr}

open Machine

theorem current_logged (hcur : s.platform.isCurrent m.address m.generation = true)
    (is : List Instr) :
    (s.logged m.address is).platform.isCurrent m.address m.generation = true :=
  (Stage.isCurrent_logged _ _).trans hcur

/-- A line that stays within the machine (`StepResult.next`). -/
theorem performCall_line_next (hcur : s.platform.isCurrent m.address m.generation = true)
    (hline : (Script.tell (κ := κ) target message).code[ip]? = some i) (hi : i ≠ .ret)
    {heap' : Heap (HeapObject κ)} {ip' : Nat} {stack' : List Datum} {owned' : List Nat}
    (hstep : (m.telling target message heap (ip + 1) stack owned).step i =
      .ok (.next (m.telling target message heap' ip' stack' owned'))) :
    performCall (body code) (n + 1)
        (.resume (m.telling target message heap ip stack owned) m.depth) s =
      performCall (body code) n
        (.resume (m.telling target message heap' ip' stack' owned') m.depth)
        (s.logged m.address [i]) :=
  performCall_running_next hcur hline hi hstep

/-- A line that demands something (`StepResult.demand`). -/
theorem performCall_line_demand (hcur : s.platform.isCurrent m.address m.generation = true)
    (hline : (Script.tell (κ := κ) target message).code[ip]? = some i) (hi : i ≠ .ret)
    {d : Demand κ} {stack' : List Datum}
    (hstep : (m.telling target message heap (ip + 1) stack owned).step i =
      .ok (.demand d (m.telling target message heap (ip + 1) stack' owned))) :
    performCall (body code) (n + 1)
        (.resume (m.telling target message heap ip stack owned) m.depth) s =
      (perform (body code) n (meet code (m.telling target message heap (ip + 1) stack' owned) d)
        (s.logged m.address [i])).bind fun x =>
          perform (body code) n (goOn x.1.2 m.depth x.1.1) x.2 :=
  performCall_running_demand hcur hline hi hstep

/-- The end of the code. -/
theorem performCall_line_end (hcur : s.platform.isCurrent m.address m.generation = true)
    (hline : (Script.tell (κ := κ) target message).code[ip]? = none) (k : Int) :
    performCall (body code) (n + 1)
        (.resume (m.telling target message heap ip (.int k :: stack) owned) m.depth) s =
      some ((some (.int k), { m with heap := heap.releaseAll owned }), s) := by
  have hfetch : (m.telling target message heap ip (.int k :: stack) owned).fetch = none :=
    fetch_running_end hline
  refine (performCall_end (m := m.telling target message heap ip (.int k :: stack) owned) rfl hcur
    hfetch).trans ?_
  exact congrArg (fun x => some (x, s)) (leave_telling k)

/-- A return (`Instr.ret`). -/
theorem performCall_line_ret (hcur : s.platform.isCurrent m.address m.generation = true)
    (hline : (Script.tell (κ := κ) target message).code[ip]? = some .ret) (k : Int) :
    performCall (body code) (n + 1)
        (.resume (m.telling target message heap ip (.int k :: stack) owned) m.depth) s =
      some ((some (.int k), { m with heap := heap.releaseAll owned }),
        s.logged m.address [.ret]) := by
  refine (performCall_ret (m := m.telling target message heap ip (.int k :: stack) owned) rfl hcur
    (fetch_telling hline)).trans ?_
  exact congrArg (fun x => some (x, s.logged m.address [.ret])) (leave_telling k)

/-- Three lines put the message and its target on the stack (`Machine.Operands`) and demand
something with them. -/
theorem performCall_operands (code : Code κ) (m : Machine κ) (ip : Nat) (stack : List Datum)
    (owned : List Nat) (hheap : heap.Ok) {d : Demand κ} (hi : i ≠ .ret)
    (hmessage : (Script.tell (κ := κ) target message).code[ip]? = some (.pushMsg 0))
    (htarget : (Script.tell (κ := κ) target message).code[ip + 1]? = some (.pushStr 0))
    (hline : (Script.tell (κ := κ) target message).code[ip + 2]? = some i)
    (hstep : ∀ heap ip stack' owned, Operands heap target message stack' stack →
      (m.telling target message heap ip stack' owned).step i =
        .ok (.demand d (m.telling target message heap ip stack owned))) :
    ∃ heap' owned', heap'.Ok ∧ ∀ n s, s.platform.isCurrent m.address m.generation = true →
      performCall (body code) (n + 3)
          (.resume (m.telling target message heap ip stack owned) m.depth) s =
        (perform (body code) n (meet code (m.telling target message heap' (ip + 3) stack owned') d)
          (s.logged m.address [.pushMsg 0, .pushStr 0, i])).bind fun x =>
            perform (body code) n (goOn x.1.2 m.depth x.1.1) x.2 := by
  let first := heap.alloc (.msg message)
  let second := first.2.alloc (.str target.text)
  have hfirst : first.2.Ok := hheap.alloc (.msg message)
  have hcell : first.2.get? first.1 = some (.msg message) :=
    ((hheap.get?_alloc _).2 first.1).trans (if_pos rfl)
  obtain ⟨hempty, hget⟩ := hfirst.get?_alloc (.str target.text)
  have hapart : first.1 ≠ second.1 := by
    intro h
    rw [h, hempty] at hcell
    exact absurd hcell (by simp)
  have hoperands :
      Operands second.2 target message (.ref second.1 :: .ref first.1 :: stack) stack :=
    ⟨first.1, second.1, rfl, (hget _).trans (if_pos rfl),
      (hget _).trans ((if_neg hapart).trans hcell)⟩
  refine ⟨second.2, owned ++ [first.1] ++ [second.1], hfirst.alloc _, fun n s hcur => ?_⟩
  rw [performCall_line_next hcur hmessage (by simp) step_pushMsg,
    performCall_line_next (current_logged hcur _) htarget (by simp) step_pushStr]
  exact performCall_line_demand (current_logged (current_logged hcur _) _) hline hi
    (hstep _ _ _ _ hoperands)

/-- The lines after a message was taken (`Met.push`). -/
theorem performCall_taken (owned : List Nat)
    (hcur : s.platform.isCurrent m.address m.generation = true) :
    performCall (body code) (n + 3)
      (.resume (m.telling target message heap 3 [.int 1] owned) m.depth) s =
        some ((some (.int 1), { m with heap := heap.releaseAll owned }),
          s.logged m.address [.jumpIfOne 9, .pushInt 1]) := by
  rw [performCall_line_next hcur rfl (by simp) step_jump,
    performCall_line_next (current_logged hcur _) rfl (by simp) (step_pushInt 1),
    performCall_line_end (current_logged (current_logged hcur _) _) rfl]
  rfl

/-- The lines after a message was refused, down to its drop (`Demand.drop`). -/
theorem performCall_refused (hheap : heap.Ok) (owned : List Nat)
    (hcur : s.platform.isCurrent m.address m.generation = true) :
    ∃ m', performCall (body code) (n + 6)
      (.resume (m.telling target message heap 3 [.int 0] owned) m.depth) s =
        some ((some (.int 0), m'), ((s.logged m.address
          [.jumpIfOne 9, .pushMsg 0, .pushStr 0, .drop]).edit
            (·.dropMessage ⟨target, m.address, message⟩)).logged m.address [.pushInt 0, .ret]) := by
  obtain ⟨heap', owned', -, hdrop⟩ := performCall_operands code m 4 [] owned hheap (i := .drop)
    (d := .drop target message) (by simp) rfl rfl rfl fun _ _ _ _ => step_drop
  refine ⟨{ m with heap := heap'.releaseAll owned' }, ?_⟩
  rw [performCall_line_next hcur rfl (by simp) step_stay]
  refine (hdrop (n + 2) _ (current_logged hcur _)).trans ?_
  -- the drop has been recorded; two lines are left
  have hdropped : ((s.logged m.address [.jumpIfOne 9, .pushMsg 0, .pushStr 0, .drop]).edit
      (·.dropMessage ⟨target, m.address, message⟩)).platform.isCurrent m.address m.generation =
        true := current_logged hcur _
  show performWith _ (invoke (.resume (m.telling target message heap' 7 [] owned') m.depth))
    ((s.logged m.address [.jumpIfOne 9, .pushMsg 0, .pushStr 0, .drop]).edit
      (·.dropMessage ⟨target, m.address, message⟩)) = _
  rw [performWith_invoke, performCall_line_next hdropped rfl (by simp) (step_pushInt 0),
    performCall_line_ret (current_logged hdropped _) rfl]
  rfl

/-- Sending on demand of a script (`Demand.send`) is `Flow.route`. -/
theorem perform_send (k : Machine κ) (s : Stage κ) (n : Nat) :
    perform (body code) n (meet code k (.send target message)) s =
      (perform (body code) n (route ⟨target, k.address, message⟩) s).bind fun z =>
        some ((.push (.int (if z.1 then 1 else 0)), k), z.2) := by
  show performWith _ (((route ⟨target, k.address, message⟩).bind fun sent =>
    .done (Met.push (.int (if sent then 1 else 0)))).bind fun x => .done (x, k)) s = _
  rw [bind_bind]
  exact performWith_bind _ _ _

/-- Whether the result of the script says that the message was taken. -/
def isSent (v : Option (Value κ)) : Bool :=
  match v with
  | some (.int 1) => true
  | _ => false

theorem perform_answer_tell (n : Nat) (s : Stage κ) :
    perform (body code) n (Flow.answer code m (.tell target message)) s =
      (perform (body code) n (Flow.exec m (.tell target message)) s).map
        fun x => ((isSent x.1.1, x.1.2), x.2) := by
  show performWith _ ((Flow.exec m (.tell target message)).bind fun x =>
    .done (isSent x.1, x.2)) s = _
  rw [performWith_bind, Option.map_eq_bind]
  rfl

/-- The script goes on when it has been seen whether the message was taken (`Machine.told`). -/
theorem perform_goOn (hheap : heap.Ok) (owned : List Nat) (taken : Bool) (s : Stage κ) (n : Nat) :
    (perform (body code) (n + 6) (goOn (m.telling target message heap 3 [] owned) m.depth
        (.push (.int (if taken then 1 else 0)))) s).map (fun x => (isSent x.1.1, x.2)) =
      some (m.told ⟨target, m.address, message⟩ taken s) := by
  let point (k : Int) : Machine κ := m.telling target message heap 3 [.int k] owned
  have hpoint (k : Int) : performWith (performCall (body code) (n + 6))
      (goOn (m.telling target message heap 3 [] owned) m.depth (.push (.int k))) s =
        performCall (body code) (n + 6) (.resume (point k) m.depth) s := performWith_invoke _ s
  unfold perform Machine.told
  by_cases hcur : s.platform.isCurrent m.address m.generation = true
  · rw [if_pos hcur]
    cases taken with
    | true =>
      refine (congrArg _ ((hpoint 1).trans (performCall_taken owned hcur))).trans ?_
      rfl
    | false =>
      obtain ⟨m', hrefused⟩ := performCall_refused hheap owned hcur
      refine (congrArg _ ((hpoint 0).trans hrefused)).trans ?_
      rfl
  · rw [if_neg hcur]
    have hgone : s.platform.isCurrent m.address m.generation = false := Bool.eq_false_iff.mpr hcur
    refine (congrArg _ ((hpoint _).trans (performCall_gone (m := point _) (Nat.lt_succ_self _)
      hgone))).trans ?_
    rfl

/-- **Telling** is sending (`Flow.route`), with a word to the caller if it is still there, and a
drop if the message was not taken. -/
theorem perform_tell (hheap : m.heap.Ok) (hroom : m.depth < m.maxFrames)
    (hcur : s.platform.isCurrent m.address m.generation = true) (n : Nat) :
    (perform (body code) (n + 9) (Flow.answer code m (.tell target message)) s).map
        (fun y => (y.1.1, y.2)) =
      (perform (body code) (n + 6) (route ⟨target, m.address, message⟩)
        (s.logged m.address [.pushMsg 0, .pushStr 0, .send])).map fun z =>
          m.told ⟨target, m.address, message⟩ z.1 z.2 := by
  obtain ⟨heap', owned', hheap', hsend⟩ := performCall_operands code m 0 [] [] hheap (i := .send)
    (d := .send target message) (by simp) rfl rfl rfl fun _ _ _ _ => step_send
  have hexec : perform (body code) (n + 9) (Flow.exec m (.tell target message)) s =
      (perform (body code) (n + 6) (route ⟨target, m.address, message⟩)
        (s.logged m.address [.pushMsg 0, .pushStr 0, .send])).bind fun z =>
          perform (body code) (n + 6) (goOn (m.telling target message heap' 3 [] owned') m.depth
            (.push (.int (if z.1 then 1 else 0)))) z.2 := by
    rw [perform_exec hroom]
    refine (hsend (n + 6) s hcur).trans ?_
    rw [perform_send, Option.bind_assoc]
    rfl
  rw [perform_answer_tell, hexec]
  refine (Option.map_map _ _ _).trans ?_
  rw [Option.map_bind, Option.map_eq_bind]
  exact congrArg _ (funext fun z => perform_goOn hheap' owned' z.1 z.2 n)

/-- A message that is refused leaves no trace (`Dispatch`); whoever sent it goes on. -/
theorem performWith_refused {answer : (c : Call κ) → Stage κ → Option (c.Answer × Stage κ)}
    {env : Envelope} {events : List Event} {place : Option (Address × Nat × Way)}
    (h : Dispatch s.platform env events place false) :
    performWith answer (route env) s = some (false, s) := by
  have hask {β γ : Type} (f : Platform κ → β) (g : β → Flow κ γ) :
      performWith answer (ask f >>= g) s = performWith answer (g (f s.platform)) s := rfl
  cases h with
  | refused hdiscard hr hc =>
    have hnone : s.platform.router? env.target = none :=
      Option.eq_none_iff_forall_ne_some.mpr fun r h => hr r (router?_eq_some.mp h)
    unfold route
    rw [not_isDiscard hdiscard, if_neg Bool.false_ne_true, hask, hnone]
    dsimp only
    unfold deliver deliverAt
    rw [hask, hc]
    rfl

end Flow

/-! ## The contract -/

/-- What a message comes to does not depend on the bus (`Dispatch`). -/
theorem Dispatch.of_bus {p : Platform κ} {env : Envelope} {events : List Event}
    {place : Option (Address × Nat × Way)} {taken : Bool} (h : Dispatch p env events place taken)
    (bus : Bus) : Dispatch { p with bus } env events place taken := by
  cases h with
  | absorbed hdiscard => exact .absorbed hdiscard
  | rerouted hdiscard hr hc => exact .rerouted hdiscard hr hc
  | lost hdiscard hr hc => exact .lost hdiscard hr hc
  | taken hdiscard hr hc => exact .taken hdiscard hr hc
  | refused hdiscard hr hc => exact .refused hdiscard hr hc

theorem Dispatch.logged {s : Stage κ} {env : Envelope} {events : List Event}
    {place : Option (Address × Nat × Way)} {taken : Bool}
    (h : Dispatch s.platform env events place taken) (a : Address) (is : List Instr) :
    Dispatch (s.logged a is).platform env events place taken := by
  obtain ⟨bus, hbus⟩ := s.logged_eq a is
  rw [hbus]
  exact h.of_bus bus

/-- Apart from instructions, telling in vain tells of the drop (`Event.dropped`). -/
theorem Machine.since_told {m : Machine κ} {s : Stage κ} (env : Envelope) (is : List Instr)
    (hcur : s.platform.isCurrent m.address m.generation = true) :
    (s.platform.bus.since (m.told env false (s.logged m.address is)).2.platform.bus).filter
      (fun e => e.kind != .opExecuted) = [.dropped env] := by
  have hnone (b : Prop) [Decidable b] (is : List Instr) :
      (if b then is.map (Event.executed m.address) else []).filter
        (fun e => e.kind != .opExecuted) = [] := by
    split
    · exact List.filter_eq_nil_iff.mpr (by simp [Event.executed])
    · rfl
  have hdropped (t : Stage κ) : (t.edit (·.dropMessage env)).platform.bus.published.toList =
      t.platform.bus.published.toList ++ [.dropped env] := Array.toList_push
  unfold Machine.told Bus.since
  rw [if_pos ((Stage.isCurrent_logged _ _).trans hcur), if_neg Bool.false_ne_true,
    Stage.logged_append, Stage.published_logged, hdropped, Stage.published_logged]
  rw [List.append_assoc, List.append_assoc, List.drop_left' (by simp), List.filter_append, hnone,
    List.filter_append, hnone]
  rfl

namespace Moment

variable {m : Machine κ} {target : Address} {message : Message} {s : Stage κ}
  {k : Bool × Machine κ → Flow κ α}

/-- The heap of a machine on which a script is about to begin is in order (`Heap.Ok`). -/
theorem heap_ok_of_meets {β : Type} {script : Script κ} {R : Stage κ → Stage κ → Prop}
    {Q : β → Stage κ → Prop} {k : Option (Value κ) × Machine κ → Flow κ β}
    (h : Meets (discipline Event.Any) R ((Flow.exec m script).bind k) Q s)
    (hroom : m.depth < m.maxFrames) : m.heap.Ok := by
  have hpush : m.pushFrame (.main script) = .ok { m with frames := .main script :: m.frames } :=
    if_pos hroom
  unfold Flow.exec at h
  rw [hpush] at h
  have hsound : Machine.Sound { m with frames := .main script :: m.frames } := h.1
  exact hsound.heap

/-- **What an actor's code is told** when it tells somebody something. If its machine has no room
for a frame, that is raised and nothing is sent; if its incarnation has gone, nothing is done at
all. In both cases the answer is no, and the bus is told of no drop. Otherwise the message is sent,
and comes to what every message comes to (`Dispatch`): if it is refused, the answer is no, and the
bus is told of one drop; if it is taken, the answer is whether the caller is still there afterwards.
-/
theorem tell_accounted
    (h : Reach code (amid ((Flow.answer code m (.tell target message)).bind k) s)) :
    let tell : Flow κ (Bool × Machine κ) := Flow.answer code m (.tell target message)
    let env : Envelope := ⟨target, m.address, message⟩
    (m.maxFrames ≤ m.depth → ∀ n, perform (body code) n tell s = some ((false, m),
      s.edit (·.raiseAt m.address (.script (.frameOverflow m.maxFrames))))) ∧
    (m.depth < m.maxFrames → s.platform.isCurrent m.address m.generation = false →
      ∀ n, perform (body code) (n + 1) tell s = some ((false, m), s)) ∧
    (m.depth < m.maxFrames → s.platform.isCurrent m.address m.generation = true →
      ∃ events place taken, Dispatch s.platform env events place taken ∧
        (∀ answer, Flow.Settles answer (route env)
          (s.logged m.address [.pushMsg 0, .pushStr 0, .send]) env
          (if taken then events else []) place taken) ∧
        (∀ n, (perform (body code) (n + 9) tell s).map (fun y => (y.1.1, y.2)) =
          (perform (body code) (n + 6) (route env)
            (s.logged m.address [.pushMsg 0, .pushStr 0, .send])).map fun z =>
              m.told env taken z.2) ∧
        (taken = true → ∀ t,
          (m.told env taken t).1 = t.platform.isCurrent m.address m.generation) ∧
        (taken = false → ∃ t,
          (∀ n, (perform (body code) (n + 9) tell s).map (fun y => (y.1.1, y.2)) =
            some (false, t)) ∧
          (s.platform.bus.since t.platform.bus).filter (fun e => e.kind != .opExecuted) =
            [.dropped env])) := by
  intro tell env
  refine ⟨fun hfull n => ?_, fun hroom hgone n => ?_, fun hroom hcur => ?_⟩
  · refine (perform_answer_tell n s).trans ?_
    rw [perform_exec_full hfull]
    rfl
  · refine (perform_answer_tell (n + 1) s).trans ?_
    rw [perform_exec_gone hgone hroom]
    rfl
  · have hheap : m.heap.Ok := by
      obtain ⟨-, hmeets⟩ := h.ok
      have hexec : Meets (discipline Event.Any) (WithinOuter Event.Any)
          (((Flow.exec m (.tell target message)).bind fun x => .done (isSent x.1, x.2)).bind k) _
          s := hmeets
      rw [bind_bind] at hexec
      exact heap_ok_of_meets hexec hroom
    obtain ⟨events, place, taken, hd⟩ := Dispatch.exists_of s.platform env
    have hd' := hd.logged m.address [.pushMsg 0, .pushStr 0, .send]
    have htell (n : Nat) : (perform (body code) (n + 9) tell s).map (fun y => (y.1.1, y.2)) =
        (perform (body code) (n + 6) (route env)
          (s.logged m.address [.pushMsg 0, .pushStr 0, .send])).map fun z =>
            m.told env z.1 z.2 := perform_tell hheap hroom hcur n
    have hresult (n : Nat) (z : Bool × Stage κ) (hz : perform (body code) (n + 6) (route env)
        (s.logged m.address [.pushMsg 0, .pushStr 0, .send]) = some z) : z.1 = taken :=
      hd'.settles_route.result z.1 z.2 hz
    refine ⟨events, place, taken, hd, fun answer => hd'.settles_route, fun n => ?_, ?_, ?_⟩
    · rw [htell]
      cases hroute : perform (body code) (n + 6) (route env)
          (s.logged m.address [.pushMsg 0, .pushStr 0, .send]) with
      | none => rfl
      | some z =>
        rw [Option.map_some, Option.map_some, hresult n z hroute]
    · rintro rfl t
      unfold Machine.told
      split <;> simp_all
    · rintro rfl
      refine ⟨_, fun n => ?_, m.since_told env [.pushMsg 0, .pushStr 0, .send] hcur⟩
      have hrefused : perform (body code) (n + 6) (route env) _ = some (false, _) :=
        performWith_refused hd'
      rw [htell, hrefused]
      exact congrArg some (Prod.ext (m.told_refused env _) rfl)

end Moment

end

/-! ## Callers that are not told the truth -/

namespace Departed

open Replacement (parent child)

/-- An application of parents and children that notes what telling answers (`App.World`). -/
def app : App where
  Factory := Bool
  Actor := Bool
  Trap := Unit
  Foreign := Unit
  Task := Unit
  World := List Bool

/-- Where nobody lives. -/
def nowhere : Address :=
  .path (.child .root ⟨['x'], rfl⟩)

/-- Tells somebody something and notes the answer (`Request.tell`). -/
def tell (a : Address) : Act app (Except ActorError Unit) :=
  .ask (.tell a .null) fun sent => .look fun _ w => .put (List.append w [sent]) (.done (.ok ()))

/-- Parents tell nobody something when they are started, and remove the child when they get a
message. When the child gets a message, it tells `a` something, after it has gone or before. -/
def code (gone : Bool) (a : Address) : Code app where
  freshId w := ("fresh", w)
  build f _ w := (f, w)
  init _ w := (.direct, w)
  stop _ w := w
  judge _ _ w := (.ignore, w)
  hook
    | true, .run, _ => tell nowhere
    | true, .accept _, _ => .ask (.kill child) fun _ => .done (.ok ())
    | false, .accept _, _ => if gone then .ask .exit fun _ => tell a else tell a
    | _, _, _ => .done (.ok ())
  foreign _ _ _ := .done (.ok .nil)
  poll _ w := (.ready (.ok none), w)

/-- A parent and a child. -/
def template : Template app :=
  .mk (some "p") true [] none [] [.mk (some "c") false [] none [] []]

/-- The platform on which operations are tried. -/
def sample : Stage app :=
  .new {} none [] []

theorem reach_sample (gone : Bool) (a : Address) :
    Moment.Reach (code gone a) (.between sample) :=
  ⟨{}, none, [], [], .refl⟩

/-- What is told on the bus from one stage to another: what kind of event it is, whom it is about,
and for whom the message is. -/
def heard (s t : Stage app) : List Bereaved.Sight :=
  (s.platform.bus.since t.platform.bus).map fun e => ⟨e.kind, e.address, e.target⟩

/-- What is noted when parent and child are spawned and the child gets a message, and what is told
on the bus in the course of that. -/
def outcome (gone : Bool) (a : Address) : Option (List Bool × List Bereaved.Sight) :=
  (perform (body (code gone a)) 20 (Operation.spawn (code gone a) template) sample).bind fun x =>
    (perform (body (code gone a)) 20 (Operation.tell child .null) x.2).map fun y =>
      (y.2.world, heard x.2 y.2)

/-- When the child, on a platform that is reached, gets a message, `w` has been noted afterwards,
and the bus has been told `sights` in between. -/
def Comes (gone : Bool) (a : Address) (w : List Bool) (sights : List Bereaved.Sight) : Prop :=
  ∃ s t sent, Moment.Reach (code gone a) (.between s) ∧
    perform (body (code gone a)) 20 (Operation.tell child .null) s = some (sent, t) ∧
    t.world = w ∧ heard s t = sights

theorem comes_of_outcome {gone : Bool} {a : Address} {w : List Bool}
    {sights : List Bereaved.Sight} (h : outcome gone a = some (w, sights)) :
    Comes gone a w sights := by
  obtain ⟨⟨_, s⟩, hs, h⟩ := Option.bind_eq_some_iff.mp h
  obtain ⟨⟨sent, t⟩, ht, h⟩ := Option.map_eq_some_iff.mp h
  obtain ⟨hw, hsights⟩ := Prod.mk.inj h
  exact ⟨s, t, sent, (reach_sample gone a).perform 20 (.spawn template) hs, ht, hw, hsights⟩

/-- **Callers are not told the truth.** A child that has gone tells nobody something (`nowhere`):
the answer is no, and no drop is recorded. A child that is there tells its parent something, and is
removed by it: the answer is no again, but the message was accepted. The first answer that is noted
is that of the parent. -/
theorem child_misled :
    Comes true nowhere [false, false]
      [⟨.messageAccepted, some child, some child⟩, ⟨.actorRemoved, some child, none⟩] ∧
    Comes false parent [false, false]
      [⟨.messageAccepted, some child, some child⟩, ⟨.messageAccepted, some parent, some parent⟩,
        ⟨.actorRemoved, some child, none⟩] :=
  ⟨comes_of_outcome (by decide +kernel), comes_of_outcome (by decide +kernel)⟩

/-- The parent is told that its message to nobody was not taken, and a drop is recorded
(`Event.dropped`). -/
theorem told_nobody : ∃ (m : Machine app) (s t : Stage app)
    (k : Bool × Machine app → Flow app (Except PlatformError Unit)),
    Moment.Reach (code true nowhere)
      (.amid ((Flow.answer (code true nowhere) m (.tell nowhere .null)).bind k) s) ∧
    m.depth < m.maxFrames ∧ s.platform.isCurrent m.address m.generation = true ∧
    (∀ n, (perform (body (code true nowhere)) (n + 9)
      (Flow.answer (code true nowhere) m (.tell nowhere .null)) s).map (fun y => (y.1.1, y.2)) =
        some (false, t)) ∧
    (s.platform.bus.since t.platform.bus).filter (fun e => e.kind != .opExecuted) =
      [.dropped ⟨nowhere, parent, .null⟩] := by
  let s := (Stage.allocate (code true nowhere) .root template sample).2
  let m : Machine app := .new parent 1 defaultMaxFrames
  have hallocated : Moment.Reach (code true nowhere) (.between s) :=
    (reach_sample true nowhere).perform 0 (.allocate .root template) rfl
  obtain ⟨k, hserved⟩ := hallocated.serving (a := parent) (m := m) rfl rfl rfl rfl rfl
  have htells : ∃ k', Moment.Reach (code true nowhere)
      (.amid ((Flow.answer (code true nowhere) m (.tell nowhere .null)).bind k' :
        Flow app (Except PlatformError Unit)) (s.busy parent)) :=
    ⟨_, bind_bind (Flow.answer (code true nowhere) m (.tell nowhere .null)) _ k ▸ hserved⟩
  obtain ⟨k', htells⟩ := htells
  have hroom : m.depth < m.maxFrames := by decide
  have hcur : (s.busy parent).platform.isCurrent m.address m.generation = true := rfl
  have hnone : (s.busy parent).platform.context? nowhere = none := rfl
  have hrouter : ∀ r, ¬ (s.busy parent).platform.Responsible nowhere r := fun r hr =>
    Option.some_ne_none r (router?_eq_some.mpr hr).symm
  obtain ⟨events, place, taken, hd, -, -, -, hvain⟩ :=
    (Moment.tell_accounted htells).2.2 hroom hcur
  obtain ⟨-, -, rfl⟩ := hd.unique (.refused (by decide) hrouter hnone)
  obtain ⟨t, hanswer, hdropped⟩ := hvain rfl
  exact ⟨m, s.busy parent, t, k', htells, hroom, hcur, hanswer, hdropped⟩

end Departed

end Troupe
