import Troupe.Proofs.Flow.Silent
import Troupe.Proofs.Flow.Traces
import Troupe.Proofs.Stage.Leavings

/-!
# What looking after a mailbox comes to

A script of nine lines looks after an actor's mailbox (`Script.notify`, the source's
`Script::notify`): while there is mail and a receiver, it takes what the receiver wants, and if that
is nothing it drops the head of the mailbox. It comes to a loop that can be said without a machine
(`Stage.attend`).

The module first follows the script line by line (`Machine.notifying`, `performCall_mail`,
`performCall_receivers`, `performCall_read`, `performCall_drop`), and then goes round
(`performCall_notify`). An actor may leave on the way, and its code may do anything that hears
nothing of the machine (`Act.Deaf`, `Stage.Traced`); `Platform.engaged` is the platform on which it
does.

Headlines:
* **`Flow.notify_attends`**: a slot that looks after a mailbox leaves the stage as the loop does.
* `Stage.attend_kept`, `Stage.attend_raised`: what the loop leaves alone, and that it raises
  nothing.
-/

namespace Troupe

open Platform Troupe.Flow

variable {κ : App}

/-! ## The loop -/

/-- The platform after an actor's `Context.mailbox` and its `Context.receivers` were set. -/
def Platform.setMail (p : Platform κ) (a : Address) (box : List Envelope)
    (receivers : List Receiver) : Platform κ :=
  p.modifyContext a fun c => { c with mailbox := some box, receivers }

namespace Stage

/-- The stage after an actor was given a message by one of its receivers (`Hook.receive`). While it
acts, neither it nor its machine is at hand. -/
def receive (s : Stage κ) (code : Code κ) (a : Address) (actor : κ.Actor) (tag : String)
    (env : Envelope) : Stage κ :=
  let told := s.edit (·.publish (.received a tag env))
  let lent := told.platform.modifyContext a fun c => { c with actor := none, machine := none }
  { told with world := (code.hook actor (.receive tag env) a).after lent s.world }

/-- The stage after a look at a mailbox. The first receiver decides about the head
(`Matcher.select`): it takes it (`Stage.receive`), and is gone then unless it is a standing one, or
the message is dropped. A temporary actor goes away after its first message (`Stage.terminate`). -/
def attend (code : Code κ) (a : Address) (actor : κ.Actor) (temporary : Bool) :
    List Envelope → List Receiver → Stage κ → Stage κ
  | env :: box, r :: rest, s =>
    match r.matcher.select env.message with
    | some tag =>
      let receivers := if r.standing then r :: rest else rest
      let t := (s.edit (·.setMail a box receivers)).receive code a actor tag env
      if temporary then t.terminate code a else attend code a actor temporary box receivers t
    | none =>
      attend code a actor temporary box (r :: rest)
        (s.edit fun p => (p.setMail a box (r :: rest)).dropMessage env)
  | _, _, s => s

end Stage

/-- A `Context` whose machine is in use, with a mailbox that is looked after. -/
structure Context.Open (c : Context κ) (g : Nat) (actor : κ.Actor) (temporary : Bool)
    (box : List Envelope) (receivers : List Receiver) : Prop where
  generation : c.generation = g
  actor : c.actor = some actor
  machine : c.machine = none
  temporary : c.flags.temporary = temporary
  mailbox : c.mailbox = some box
  receivers : c.receivers = receivers

namespace Flow

variable {code : Code κ} {m : Machine κ} {s t u : Stage κ} {a : Address} {c : Context κ} {g n : Nat}
  {actor : κ.Actor} {temporary : Bool} {env : Envelope} {box : List Envelope} {r : Receiver}
  {rest receivers : List Receiver} {tag : String}

/-! ## Reading -/

theorem takeMatch_open (hc : u.platform.context? a = some c)
    (ho : c.Open g actor temporary (env :: box) (r :: rest)) :
    u.platform.takeMatch a = (r.matcher.select env.message).map fun tag =>
      (⟨tag, env, temporary⟩,
        u.platform.setMail a box (if r.standing then r :: rest else rest)) := by
  have hset : u.platform.modifyContext a (fun c => { c.mapMailbox List.tail with
      receivers := if r.standing then r :: rest else rest }) =
        u.platform.setMail a box (if r.standing then r :: rest else rest) := by
    refine modifyContext_congr fun d hd => ?_
    obtain rfl := Option.some.inj (hc.symm.trans hd)
    unfold Context.mapMailbox
    rw [ho.mailbox]
    rfl
  unfold takeMatch
  rw [hc]
  show (c.receivers.head?.bind fun r => _) = _
  rw [ho.receivers, ho.mailbox, ho.temporary]
  show ((r.matcher.select env.message).bind fun tag => _) = _
  cases r.matcher.select env.message with
  | none => rfl
  | some tag => exact congrArg (fun p => some (_, p)) hset

theorem at_hand (hc : u.platform.context? a = some c)
    (ho : c.Open g actor temporary box receivers) :
    ¬ (!(u.platform.context? a).any fun c => c.actor.isSome) = true := by
  rw [hc, Option.any_some, ho.actor]
  simp

/-- The first receiver does not want the head of the mailbox (`Matcher.select`). -/
theorem perform_readMail_none (code : Code κ) (m : Machine κ) (n : Nat)
    (hc : u.platform.context? m.address = some c)
    (ho : c.Open g actor temporary (env :: box) (r :: rest))
    (hselect : r.matcher.select env.message = none) :
    perform (body code) n (readMail code m) u = some ((.push (.int 0), m), u) := by
  have htake : u.platform.takeMatch m.address = none := by
    rw [takeMatch_open hc ho, hselect]
    rfl
  unfold readMail
  rw [perform_ask]
  dsimp only [id]
  rw [if_neg (at_hand hc ho), htake]
  rfl

/-- While an actor acts in a slot, neither it nor its machine is at hand. -/
theorem lent_eq (hc : u.platform.context? a = some c) (hmachine : c.machine = none) :
    (u.platform.modifyContext a fun c => { c with actor := none }) =
      u.platform.modifyContext a fun c => { c with actor := none, machine := none } := by
  refine modifyContext_congr fun d hd => ?_
  obtain rfl := Option.some.inj (hc.symm.trans hd)
  rw [hmachine]

theorem perform_act_open (n : Nat) (hc : u.platform.context? m.address = some c)
    (ho : c.Open m.generation actor temporary box receivers)
    (hsilent : (code.hook actor (.receive tag env) m.address).Silent (.ok ())) :
    perform (body code) n (act code m (.receive tag env))
      (u.edit (·.publish (.received m.address tag env))) =
        some ((some (.ok ()), m), u.receive code m.address actor tag env) := by
  refine (perform_act (s := u.edit (·.publish (.received m.address tag env))) hc ho.generation
    ho.actor hsilent).trans ?_
  rw [lent_eq (u := u.edit (·.publish (.received m.address tag env))) hc ho.machine]
  rfl

/-- The first receiver takes the head of the mailbox (`Stage.receive`). -/
theorem perform_readMail_some (n : Nat) (hc : u.platform.context? m.address = some c)
    (ho : c.Open m.generation actor temporary (env :: box) (r :: rest))
    (hselect : r.matcher.select env.message = some tag)
    (hsilent : (code.hook actor (.receive tag env) m.address).Silent (.ok ())) :
    let v := (u.edit (·.setMail m.address box (if r.standing then r :: rest else rest))).receive
      code m.address actor tag env
    perform (body code) n (readMail code m) u =
      some ((.push (.int 1), m), if temporary then v.terminate code m.address else v) := by
  intro v
  let receivers := if r.standing then r :: rest else rest
  have htake : u.platform.takeMatch m.address =
      some (⟨tag, env, temporary⟩, u.platform.setMail m.address box receivers) := by
    rw [takeMatch_open hc ho, hselect]
    rfl
  have hc' : (u.edit (·.setMail m.address box receivers)).platform.context? m.address =
      some { c with mailbox := some box, receivers } :=
    (context?_modifyContext _).trans ((if_pos rfl).trans (congrArg _ hc))
  have ho' : { c with mailbox := some box, receivers }.Open m.generation actor temporary box
      receivers := ⟨ho.generation, ho.actor, ho.machine, ho.temporary, rfl, rfl⟩
  have hact := perform_act_open n hc' ho' hsilent
  unfold readMail
  rw [perform_ask]
  dsimp only [id]
  rw [if_neg (at_hand hc ho), htake]
  dsimp only
  rw [perform_edit, perform_bind]
  refine (congrArg (Option.bind · _) hact).trans ?_
  cases temporary <;> rfl

/-- Dropping the head of the mailbox (`Demand.discardMail`). -/
theorem perform_discardMail (hc : u.platform.context? m.address = some c)
    (ho : c.Open g actor temporary (env :: box) receivers) :
    perform (body code) n (meet code m .discardMail) u = some ((.nothing, m),
      u.edit fun p => (p.setMail m.address box receivers).dropMessage env) := by
  have hset : u.platform.modifyContext m.address (fun c => c.mapMailbox List.tail) =
      u.platform.setMail m.address box receivers := by
    refine modifyContext_congr fun d hd => ?_
    obtain rfl := Option.some.inj (hc.symm.trans hd)
    unfold Context.mapMailbox
    rw [ho.mailbox, ← ho.receivers]
    rfl
  have hdrop : u.platform.discardMail m.address =
      (u.platform.setMail m.address box receivers).dropMessage env := by
    unfold discardMail takeMail
    rw [hset, hc, Option.bind_some, ho.mailbox]
    rfl
  show some ((Met.nothing, m), u.edit (·.discardMail m.address)) = _
  exact congrArg (fun platform => some ((Met.nothing, m), ({ u with platform } : Stage κ))) hdrop

end Flow

/-! ## The script -/

namespace Machine

/-- The machine while it runs the script that looks after a mailbox (`Script.notify`), at a line and
with a stack. -/
def notifying (m : Machine κ) (ip : Nat) (stack : List Datum) : Machine κ :=
  m.running .notify m.heap ip stack []

variable {m : Machine κ} {ip target : Nat} {stack : List Datum} {k : Int}

theorem step_jumpIfZero_notifying :
    (m.notifying ip (.int k :: stack)).step (.jumpIfZero target) =
      .ok (.next (m.notifying (if k = 0 then target else ip) stack)) := by
  refine Flow.step_jumpIfZero ?_
  show (if k = 0 then _ else _) = _
  by_cases hk : k = 0
  · rw [if_pos hk, if_pos hk]
    rfl
  · rw [if_neg hk, if_neg hk]
    rfl

theorem step_jumpIfOne_notifying :
    (m.notifying ip (.int k :: stack)).step (.jumpIfOne target) =
      .ok (.next (m.notifying (if k = 1 then target else ip) stack)) := by
  refine Flow.step_jumpIfOne ?_
  show (if k = 1 then _ else _) = _
  by_cases hk : k = 1
  · rw [if_pos hk, if_pos hk]
    rfl
  · rw [if_neg hk, if_neg hk]
    rfl

theorem leave_notifying : (m.notifying ip []).leave m.depth = (none, m) := by
  have hframes : (m.notifying ip []).frames =
      { Frame.main .notify with ip, stack := [], owned := [] } :: m.frames := rfl
  unfold depth
  rw [leave_eq_last hframes rfl]
  rfl

theorem unwind_notifying : (m.notifying ip stack).unwind m.depth = m :=
  unwind_running

end Machine

namespace Flow

variable {code : Code κ} {m : Machine κ} {u v : Stage κ} {ip n target : Nat} {stack : List Datum}
  {i : Instr} {k : Int}

section Lines

variable (hcur : u.platform.isCurrent m.address m.generation = true)
include hcur

/-- A line that has a number pushed (`Demand.countMail`, `Demand.countReceivers`). -/
theorem performCall_push {d : Demand κ} (hline : (Script.notify (κ := κ)).code[ip]? = some i)
    (hi : i ≠ .ret) (hstep : (m.notifying (ip + 1) stack).step i =
      .ok (.demand d (m.notifying (ip + 1) stack)))
    (hmeet : perform (body code) n (meet code (m.notifying (ip + 1) stack) d)
      (u.logged m.address [i]) = some ((.push (.int k), m.notifying (ip + 1) stack), v)) :
    performCall (body code) (n + 1) (.resume (m.notifying ip stack) m.depth) u =
      performCall (body code) n (.resume (m.notifying (ip + 1) (.int k :: stack)) m.depth) v := by
  refine (performCall_running_demand hcur hline hi hstep).trans ?_
  refine (congrArg (Option.bind · _) hmeet).trans ?_
  exact performWith_invoke _ _

/-- A line that stays within the machine (`Machine.step`). -/
theorem performCall_within (hline : (Script.notify (κ := κ)).code[ip]? = some i) (hi : i ≠ .ret)
    {ip' : Nat} {stack' : List Datum} (hstep : (m.notifying (ip + 1) stack).step i =
      .ok (.next (m.notifying ip' stack'))) :
    performCall (body code) (n + 1) (.resume (m.notifying ip stack) m.depth) u =
      performCall (body code) n (.resume (m.notifying ip' stack') m.depth)
        (u.logged m.address [i]) :=
  performCall_running_next hcur hline hi hstep

/-- Two lines end the script if there is none of something, and go on if there is. -/
theorem performCall_count {d : Demand κ} {count : Nat} (code : Code κ) (n : Nat)
    (hline : (Script.notify (κ := κ)).code[ip]? = some i) (hi : i ≠ .ret)
    (hnext : (Script.notify (κ := κ)).code[ip + 1]? = some (.jumpIfZero 8))
    (hstep : (m.notifying (ip + 1) []).step i = .ok (.demand d (m.notifying (ip + 1) [])))
    (hmeet : perform (body code) (n + 1) (meet code (m.notifying (ip + 1) []) d)
      (u.logged m.address [i]) =
        some ((.push (.int count), m.notifying (ip + 1) []), u.logged m.address [i])) :
    performCall (body code) (n + 2) (.resume (m.notifying ip []) m.depth) u =
      performCall (body code) n
        (.resume (m.notifying (if count = 0 then 8 else ip + 2) []) m.depth)
        (u.logged m.address [i, .jumpIfZero 8]) := by
  have hlogged : (u.logged m.address [i]).platform.isCurrent m.address m.generation = true :=
    (Stage.isCurrent_logged _ _).trans hcur
  refine (performCall_push hcur hline hi hstep hmeet).trans ?_
  refine (performCall_within hlogged hnext (by simp) Machine.step_jumpIfZero_notifying).trans ?_
  rw [Stage.logged_append, if_congr Int.natCast_eq_zero rfl rfl]
  rfl

/-- The end of the script (`Instr.ret`). -/
theorem performCall_done (code : Code κ) (n : Nat) :
    performCall (body code) (n + 2) (.resume (m.notifying 8 []) m.depth) u =
      some ((none, m), u.logged m.address [.nop]) := by
  have hlogged : (u.logged m.address [.nop]).platform.isCurrent m.address m.generation = true :=
    (Stage.isCurrent_logged _ _).trans hcur
  have hnop : (m.notifying 9 []).step .nop = .ok (.next (m.notifying 9 [])) := rfl
  refine (performCall_within hcur rfl (by simp) hnop).trans ?_
  refine (performCall_end (m := m.notifying 9 []) rfl hlogged rfl).trans ?_
  exact congrArg (fun x => some (x, u.logged m.address [.nop])) Machine.leave_notifying

end Lines

section Open

variable {c : Context κ} {actor : κ.Actor} {temporary : Bool} {env : Envelope}
  {box : List Envelope} {r : Receiver} {rest receivers : List Receiver} {tag : String}

theorem isCurrent_open (hc : u.platform.context? m.address = some c)
    (ho : c.Open m.generation actor temporary box receivers) :
    u.platform.isCurrent m.address m.generation = true :=
  isCurrent_iff.mpr ⟨c, hc, ho.generation⟩

theorem context?_logged (a b : Address) (is : List Instr) :
    (u.logged a is).platform.context? b = u.platform.context? b := by
  obtain ⟨bus, h⟩ := u.logged_eq a is
  rw [h]
  rfl

/-- The first two lines look for mail (`Demand.countMail`). -/
theorem performCall_mail (code : Code κ) (n : Nat) (hc : u.platform.context? m.address = some c)
    (ho : c.Open m.generation actor temporary box receivers) :
    performCall (body code) (n + 2) (.resume (m.notifying 0 []) m.depth) u =
      performCall (body code) n
        (.resume (m.notifying (if box.length = 0 then 8 else 2) []) m.depth)
        (u.logged m.address [.mailCount, .jumpIfZero 8]) := by
  refine performCall_count (isCurrent_open hc ho) code n rfl (by simp) rfl rfl ?_
  have hlength : (u.logged m.address [.mailCount]).platform.mailboxLength? m.address =
      some box.length := by
    unfold mailboxLength?
    rw [context?_logged, hc, Option.bind_some, ho.mailbox]
    rfl
  show some ((Met.push (.int (((u.logged m.address
    [.mailCount]).platform.mailboxLength? m.address).getD 0 : Nat)), _), _) = _
  rw [hlength]
  rfl

/-- The next two look for receivers (`Demand.countReceivers`). -/
theorem performCall_receivers (code : Code κ) (n : Nat)
    (hc : u.platform.context? m.address = some c)
    (ho : c.Open m.generation actor temporary box receivers) :
    performCall (body code) (n + 2) (.resume (m.notifying 2 []) m.depth) u =
      performCall (body code) n
        (.resume (m.notifying (if receivers.length = 0 then 8 else 4) []) m.depth)
        (u.logged m.address [.recvCount, .jumpIfZero 8]) := by
  refine performCall_count (isCurrent_open hc ho) code n rfl (by simp) rfl rfl ?_
  have hcount : (u.logged m.address [.recvCount]).platform.receiverCount m.address =
      receivers.length := by
    unfold receiverCount
    rw [context?_logged, hc, Option.map_some, ho.receivers]
    rfl
  show some ((Met.push (.int ((u.logged m.address
    [.recvCount]).platform.receiverCount m.address : Nat)), _), _) = _
  rw [hcount]

/-- Without mail the script ends. -/
theorem performCall_noMail (code : Code κ) (n : Nat) (hc : u.platform.context? m.address = some c)
    (ho : c.Open m.generation actor temporary [] receivers) :
    performCall (body code) (n + 4) (.resume (m.notifying 0 []) m.depth) u =
      some ((none, m), u.logged m.address [.mailCount, .jumpIfZero 8, .nop]) := by
  rw [performCall_mail code (n + 2) hc ho]
  refine (performCall_done ?_ code n).trans ?_
  · exact isCurrent_open ((context?_logged _ _ _).trans hc) ho
  · rw [Stage.logged_append]
    rfl

/-- Without receivers it ends too. -/
theorem performCall_noReceivers (code : Code κ) (n : Nat)
    (hc : u.platform.context? m.address = some c)
    (ho : c.Open m.generation actor temporary (env :: box) []) :
    performCall (body code) (n + 6) (.resume (m.notifying 0 []) m.depth) u = some ((none, m),
      u.logged m.address [.mailCount, .jumpIfZero 8, .recvCount, .jumpIfZero 8, .nop]) := by
  have hc' (is : List Instr) := (context?_logged (u := u) m.address m.address is).trans hc
  refine (performCall_mail code (n + 4) hc ho).trans ?_
  refine (performCall_receivers code (n + 2) (hc' _) ho).trans ?_
  rw [Stage.logged_append]
  refine (performCall_done (isCurrent_open (hc' _) ho) code n).trans ?_
  rw [Stage.logged_append]
  rfl

/-- With both it reads (`performCall_mail`, `performCall_receivers`). -/
theorem performCall_ahead (code : Code κ) (n : Nat) (hc : u.platform.context? m.address = some c)
    (ho : c.Open m.generation actor temporary (env :: box) (r :: rest)) :
    performCall (body code) (n + 4) (.resume (m.notifying 0 []) m.depth) u =
      performCall (body code) n (.resume (m.notifying 4 []) m.depth)
        (u.logged m.address [.mailCount, .jumpIfZero 8, .recvCount, .jumpIfZero 8]) := by
  refine (performCall_mail code (n + 2) hc ho).trans ?_
  refine (performCall_receivers code n ((context?_logged _ _ _).trans hc) ho).trans ?_
  rw [Stage.logged_append]
  rfl

theorem context?_setMail (hc : u.platform.context? a = some c) (box : List Envelope)
    (receivers : List Receiver) : (u.platform.setMail a box receivers).context? a =
      some { c with mailbox := some box, receivers } := by
  refine (context?_modifyContext _).trans ?_
  rw [if_pos rfl, hc]
  rfl

/-- The first receiver takes the head (`perform_readMail_some`): the script begins anew, unless the
actor goes away. -/
theorem performCall_read (code : Code κ) (n : Nat)
    (hc : u.platform.context? m.address = some c)
    (ho : c.Open m.generation actor temporary (env :: box) (r :: rest))
    (hselect : r.matcher.select env.message = some tag)
    (hsilent : (code.hook actor (.receive tag env) m.address).Silent (.ok ())) :
    let v := ((u.logged m.address [.read]).edit
      (·.setMail m.address box (if r.standing then r :: rest else rest))).receive
        code m.address actor tag env
    performCall (body code) (n + 2) (.resume (m.notifying 4 []) m.depth) u =
      if temporary then performCall (body code) (n + 1)
        (.resume (m.notifying 5 [.int 1]) m.depth) (v.terminate code m.address)
      else performCall (body code) n (.resume (m.notifying 0 []) m.depth)
        (v.logged m.address [.jumpIfOne 0]) := by
  intro v
  have hc' := (context?_logged (u := u) m.address m.address [.read]).trans hc
  have hread := perform_readMail_some (m := m.notifying 5 []) (n + 1) hc' ho hselect hsilent
  refine (performCall_push (isCurrent_open hc ho) rfl (by simp) rfl hread).trans ?_
  cases temporary with
  | true => rfl
  | false =>
    have hcur : v.platform.isCurrent m.address m.generation = true :=
      isCurrent_iff.mpr ⟨_, context?_setMail hc' _ _, ho.generation⟩
    exact performCall_within hcur rfl (by simp) Machine.step_jumpIfOne_notifying

/-- The first receiver does not want the head (`perform_readMail_none`): it is dropped, and the
script begins anew. -/
theorem performCall_drop (code : Code κ) (n : Nat)
    (hc : u.platform.context? m.address = some c)
    (ho : c.Open m.generation actor temporary (env :: box) (r :: rest))
    (hselect : r.matcher.select env.message = none) :
    performCall (body code) (n + 4) (.resume (m.notifying 4 []) m.depth) u =
      performCall (body code) n (.resume (m.notifying 0 []) m.depth)
        (((u.logged m.address [.read, .jumpIfOne 0, .discard]).edit fun p =>
          (p.setMail m.address box (r :: rest)).dropMessage env).logged m.address [.jump 0]) := by
  have hc' (is : List Instr) := (context?_logged (u := u) m.address m.address is).trans hc
  have hread := perform_readMail_none code (m.notifying 5 []) (n + 3) (hc' [.read]) ho hselect
  refine (performCall_push (isCurrent_open hc ho) rfl (by simp) rfl hread).trans ?_
  refine (performCall_within (isCurrent_open (hc' [.read]) ho) rfl (by simp)
    Machine.step_jumpIfOne_notifying).trans ?_
  rw [Stage.logged_append]
  let told : Stage κ := (u.logged m.address [.read, .jumpIfOne 0, .discard]).edit fun p =>
    (p.setMail m.address box (r :: rest)).dropMessage env
  have hdrop : perform (body code) (n + 1) (meet code (m.notifying 7 []) .discardMail)
      (u.logged m.address [.read, .jumpIfOne 0, .discard]) =
        some ((.nothing, m.notifying 7 []), told) :=
    perform_discardMail (m := m.notifying 7 []) (hc' _) ho
  have hcur : told.platform.isCurrent m.address m.generation = true :=
    isCurrent_iff.mpr ⟨_, context?_setMail (hc' _) _ _, ho.generation⟩
  refine (performCall_running_demand (isCurrent_open (hc' _) ho) rfl (by simp) rfl).trans ?_
  refine (congrArg (Option.bind · _) ((congrArg _ ?_).trans hdrop)).trans ?_
  · exact Stage.logged_append _ _ _ _
  · exact (performWith_invoke _ _).trans (performCall_within hcur rfl (by simp) rfl)

end Open

end Flow

/-! ## In a slot -/

/-- The code makes the same of the application's state, whatever instructions the bus tells of
(`Stage.Traced`). -/
def Act.Deaf {α : Type} (f : Act κ α) : Prop :=
  ∀ (s t : Stage κ) (w : κ.World), s.Traced True t → f.after t.platform w = f.after s.platform w

/-- The platform while the machine of an actor is in use (`Context.machine`). -/
def Platform.engaged (p : Platform κ) (a : Address) : Platform κ :=
  p.modifyContext a fun c => { c with machine := none }

namespace Stage

variable {code : Code κ} {a : Address} {actor : κ.Actor} {tag : String} {env : Envelope}
  {s t : Stage κ} {deaf : Prop}

theorem Traced.receive (h : s.Traced deaf t)
    (hdeaf : deaf → (code.hook actor (.receive tag env) a).Deaf) :
    (s.receive code a actor tag env).Traced deaf (t.receive code a actor tag env) := by
  have htold := h.publish (.received a tag env)
  have hlent := htold.modifyContext a fun c => { c with actor := none, machine := none }
  refine htold.put (fun h' => ?_) fun hlog => ?_
  · show Act.after _ _ t.world = Act.after _ _ s.world
    rw [h.world h']
    exact hdeaf h' _ _ s.world { hlent with world := fun _ => h.world h' }
  · rw [h.silent hlog]

theorem context?_engaged {c : Context κ} (hc : s.platform.context? a = some c) :
    (s.edit (·.engaged a)).platform.context? a = some { c with machine := none } := by
  refine (context?_modifyContext _).trans ?_
  rw [if_pos rfl, hc]
  rfl

theorem setMail_engaged (p : Platform κ) (a : Address) (box : List Envelope)
    (receivers : List Receiver) :
    (p.engaged a).setMail a box receivers = (p.setMail a box receivers).engaged a := by
  unfold engaged setMail
  rw [modifyContext_modifyContext, modifyContext_modifyContext]
  rfl

/-- A message is received in a slot as it is received otherwise (`Stage.receive`, on
`Platform.engaged`). -/
theorem receive_engaged (s : Stage κ) (code : Code κ) (a : Address) (actor : κ.Actor)
    (tag : String) (env : Envelope) : (s.edit (·.engaged a)).receive code a actor tag env =
      (s.receive code a actor tag env).edit (·.engaged a) := by
  let told : Platform κ := s.platform.publish (.received a tag env)
  have hlent : (told.engaged a).modifyContext a
      (fun c => { c with actor := none, machine := none }) =
      told.modifyContext a fun c => { c with actor := none, machine := none } := by
    unfold engaged
    rw [modifyContext_modifyContext]
    rfl
  exact congrArg (fun lent => Stage.mk (told.engaged a)
    ((code.hook actor (.receive tag env) a).after lent s.world) s.listener) hlent

theorem Traced.setMail (h : (s.edit (·.engaged a)).Traced deaf t) (box : List Envelope)
    (receivers : List Receiver) :
    ((s.edit (·.setMail a box receivers)).edit (·.engaged a)).Traced deaf
      (t.edit (·.setMail a box receivers)) := by
  have hswap : (s.edit (·.engaged a)).edit (·.setMail a box receivers) =
      (s.edit (·.setMail a box receivers)).edit (·.engaged a) :=
    congrArg (fun platform => ({ s with platform } : Stage κ)) (setMail_engaged _ a box receivers)
  rw [← hswap]
  exact h.modifyContext a _

theorem Traced.receive_open (h : (s.edit (·.engaged a)).Traced deaf t)
    (hdeaf : deaf → (code.hook actor (.receive tag env) a).Deaf) :
    ((s.receive code a actor tag env).edit (·.engaged a)).Traced deaf
      (t.receive code a actor tag env) := by
  rw [← receive_engaged]
  exact h.receive hdeaf

theorem terminate_engaged (hroot : a ≠ .root) (hlive : s.platform.isLive a = true) :
    (s.edit (·.engaged a)).terminate code a = s.terminate code a :=
  terminate_modifyContext (fun _ => rfl) hroot hlive

theorem engaged_of_gone (h : s.platform.context? a = none) : s.edit (·.engaged a) = s := by
  have hsame : s.platform.engaged a = s.platform :=
    (modifyContext_congr (g := id) fun c hc => absurd (h.symm.trans hc) (by simp)).trans
      (modifyContext_id _ a)
  exact congrArg (fun platform => ({ s with platform } : Stage κ)) hsame

end Stage

namespace Flow

open Stage

variable {code : Code κ} {m : Machine κ} {s u : Stage κ} {c : Context κ} {actor : κ.Actor}
  {temporary : Bool} {env : Envelope} {box : List Envelope} {r : Receiver} {rest : List Receiver}
  {tag : String} {deaf : Prop}

/-- A script whose actor has gone ends, since `Platform.isCurrent` is asked at each line. -/
theorem performCall_left (hgone : u.platform.context? m.address = none) (code : Code κ) (n : Nat) :
    performCall (body code) (n + 1) (.resume (m.notifying 5 [.int 1]) m.depth) u =
      some ((none, m), u) := by
  have hnot : u.platform.isCurrent m.address m.generation = false := by
    unfold isCurrent generation?
    rw [hgone]
    rfl
  refine (performCall_gone (m := m.notifying 5 [.int 1]) (Nat.lt_succ_self _) hnot).trans ?_
  exact congrArg (fun m => some ((none, m), u)) Machine.unwind_notifying

/-- What the script has come to when it reads (`performCall_ahead`). -/
theorem traced_ahead (hc : s.platform.context? m.address = some c)
    (hu : (s.edit (·.engaged m.address)).Traced deaf u) :
    let w := u.logged m.address [.mailCount, .jumpIfZero 8, .recvCount, .jumpIfZero 8]
    (s.edit (·.engaged m.address)).Traced deaf w ∧
      w.platform.context? m.address = some { c with machine := none } :=
  ⟨hu.logged _ _, ((hu.logged _ _).context? m.address).trans (context?_engaged hc)⟩

/-- A message that is not wanted is dropped (`performCall_drop`), and the script goes on from the
top. -/
theorem performCall_dropped (hc : s.platform.context? m.address = some c)
    (ho : { c with machine := none }.Open m.generation actor temporary (env :: box) (r :: rest))
    (hu : (s.edit (·.engaged m.address)).Traced deaf u)
    (hselect : r.matcher.select env.message = none) :
    ∃ w, (∀ n, performCall (body code) (n + 8) (.resume (m.notifying 0 []) m.depth) u =
        performCall (body code) n (.resume (m.notifying 0 []) m.depth) w) ∧
      ((s.edit fun p => (p.setMail m.address box (r :: rest)).dropMessage env).edit
        (·.engaged m.address)).Traced deaf w := by
  obtain ⟨hw, hcw⟩ := traced_ahead hc hu
  have hcu := (hu.context? m.address).trans (context?_engaged hc)
  refine ⟨_, fun n => (performCall_ahead code (n + 4) hcu ho).trans
    (performCall_drop code n hcw ho hselect), ?_⟩
  exact ((hw.logged _ _).setMail box (r :: rest)).publish (.dropped env) |>.logged _ _

/-- A message that is wanted is received (`performCall_read`), and the script goes on from the top.
-/
theorem performCall_received (hc : s.platform.context? m.address = some c)
    (ho : { c with machine := none }.Open m.generation actor false (env :: box) (r :: rest))
    (hu : (s.edit (·.engaged m.address)).Traced deaf u)
    (hselect : r.matcher.select env.message = some tag)
    (hsilent : (code.hook actor (.receive tag env) m.address).Silent (.ok ()))
    (hdeaf : deaf → (code.hook actor (.receive tag env) m.address).Deaf) :
    ∃ w, (∀ n, performCall (body code) (n + 6) (.resume (m.notifying 0 []) m.depth) u =
        performCall (body code) n (.resume (m.notifying 0 []) m.depth) w) ∧
      (((s.edit (·.setMail m.address box (if r.standing then r :: rest else rest))).receive
        code m.address actor tag env).edit (·.engaged m.address)).Traced deaf w := by
  obtain ⟨hw, hcw⟩ := traced_ahead hc hu
  have hcu := (hu.context? m.address).trans (context?_engaged hc)
  refine ⟨_, fun n => (performCall_ahead code (n + 2) hcu ho).trans
    (performCall_read code n hcw ho hselect hsilent), ?_⟩
  exact (((hw.logged _ _).setMail box _).receive_open hdeaf).logged _ _

/-- A temporary actor receives a message that is wanted, and has gone (`Stage.terminate`). -/
theorem performCall_parted (hroot : m.address ≠ .root)
    (hc : s.platform.context? m.address = some c)
    (ho : { c with machine := none }.Open m.generation actor true (env :: box) (r :: rest))
    (hu : (s.edit (·.engaged m.address)).Traced deaf u)
    (hselect : r.matcher.select env.message = some tag)
    (hsilent : (code.hook actor (.receive tag env) m.address).Silent (.ok ()))
    (hdeaf : deaf → (code.hook actor (.receive tag env) m.address).Deaf) :
    ∃ v, (∀ n, performCall (body code) (n + 6) (.resume (m.notifying 0 []) m.depth) u =
        some ((none, m), v)) ∧
      ((((s.edit (·.setMail m.address box (if r.standing then r :: rest else rest))).receive
        code m.address actor tag env).terminate code m.address).edit
          (·.engaged m.address)).Traced deaf v := by
  let receivers := if r.standing then r :: rest else rest
  let taken : Stage κ :=
    (s.edit (·.setMail m.address box receivers)).receive code m.address actor tag env
  obtain ⟨hw, hcw⟩ := traced_ahead hc hu
  have hcu := (hu.context? m.address).trans (context?_engaged hc)
  have hlive : taken.platform.isLive m.address = true :=
    isLive_iff.mpr ⟨_, context?_setMail hc _ _⟩
  have hgone := context?_terminate_self code hroot hlive
  have htaken := ((hw.logged m.address [.read]).setMail box receivers).receive_open hdeaf
  have hterminated := htaken.terminate code m.address
  rw [terminate_engaged hroot hlive] at hterminated
  have hleft := performCall_left ((hterminated.context? m.address).trans hgone) code
  refine ⟨_, fun n => (performCall_ahead code (n + 2) hcu ho).trans
    ((performCall_read code n hcw ho hselect hsilent).trans ((if_pos rfl).trans (hleft n))), ?_⟩
  rw [engaged_of_gone hgone]
  exact hterminated

/-- **The script is the loop** (`Stage.attend`): it ends, whatever is in the mailbox, and leaves the
stage as the loop leaves it. -/
theorem performCall_notify (hroot : m.address ≠ .root)
    (hsilent : ∀ tag env, (code.hook actor (.receive tag env) m.address).Silent (.ok ()))
    (hdeaf : deaf → ∀ tag env, (code.hook actor (.receive tag env) m.address).Deaf)
    (box : List Envelope) (receivers : List Receiver)
    (hc : s.platform.context? m.address = some c)
    (ho : { c with machine := none }.Open m.generation actor temporary box receivers)
    (hu : (s.edit (·.engaged m.address)).Traced deaf u) :
    ∃ k v, (∀ n, performCall (body code) (n + k) (.resume (m.notifying 0 []) m.depth) u =
        some ((none, m), v)) ∧
      ((s.attend code m.address actor temporary box receivers).edit
        (·.engaged m.address)).Traced deaf v := by
  induction box generalizing receivers s u c with
  | nil =>
    have hcu := (hu.context? m.address).trans (context?_engaged hc)
    refine ⟨4, _, fun n => performCall_noMail code n hcu ho, ?_⟩
    cases receivers <;> exact hu.logged _ _
  | cons env box ih =>
    cases receivers with
    | nil =>
      have hcu := (hu.context? m.address).trans (context?_engaged hc)
      exact ⟨6, _, fun n => performCall_noReceivers code n hcu ho, hu.logged _ _⟩
    | cons r rest =>
      unfold attend
      cases hselect : r.matcher.select env.message with
      | none =>
        obtain ⟨w, hround, hw⟩ := performCall_dropped hc ho hu hselect
        obtain ⟨k, v, hperform, hv⟩ := ih (s := s.edit fun p =>
          (p.setMail m.address box (r :: rest)).dropMessage env) (r :: rest)
          (context?_setMail hc box (r :: rest))
          ⟨ho.generation, ho.actor, rfl, ho.temporary, rfl, rfl⟩ hw
        exact ⟨k + 8, v, fun n => (hround (n + k)).trans (hperform n), hv⟩
      | some tag =>
        have hdeaf' (h : deaf) := hdeaf h tag env
        cases temporary with
        | true =>
          exact ⟨6, performCall_parted hroot hc ho hu hselect (hsilent tag env) hdeaf'⟩
        | false =>
          obtain ⟨w, hround, hw⟩ :=
            performCall_received hc ho hu hselect (hsilent tag env) hdeaf'
          let receivers := if r.standing then r :: rest else rest
          obtain ⟨k, v, hperform, hv⟩ := ih (s := (s.edit
            (·.setMail m.address box receivers)).receive code m.address actor tag env) receivers
            (context?_setMail hc box receivers)
            ⟨ho.generation, ho.actor, rfl, ho.temporary, rfl, rfl⟩ hw
          exact ⟨k + 6, v, fun n => (hround (n + k)).trans (hperform n), hv⟩

end Flow

/-! ### What the loop leaves -/

namespace Stage

variable {code : Code κ} {a : Address} {actor : κ.Actor} {temporary : Bool} {c : Context κ}

/-- After `Stage.attend` the actor has gone, or its context is as it was but for the mailbox and the
receivers. -/
theorem attend_kept (code : Code κ) (actor : κ.Actor) (temporary : Bool) (hroot : a ≠ .root)
    (box : List Envelope) (receivers : List Receiver) {s : Stage κ}
    (hc : s.platform.context? a = some c) :
    let t := s.attend code a actor temporary box receivers
    t.platform.context? a = none ∨ t.platform.running = s.platform.running ∧
      ∃ mailbox receivers, t.platform.context? a = some { c with mailbox, receivers } := by
  induction box generalizing receivers s c with
  | nil => cases receivers <;> exact Or.inr ⟨rfl, _, _, hc⟩
  | cons env box ih =>
    cases receivers with
    | nil => exact Or.inr ⟨rfl, _, _, hc⟩
    | cons r rest =>
      unfold attend
      cases r.matcher.select env.message with
      | none =>
        dsimp only
        exact ih (r :: rest) (c := { c with mailbox := some box, receivers := r :: rest })
          (s := s.edit fun p => (p.setMail a box (r :: rest)).dropMessage env)
          (Flow.context?_setMail hc _ _)
      | some tag =>
        dsimp only
        let receivers := if r.standing then r :: rest else rest
        let taken := (s.edit (·.setMail a box receivers)).receive code a actor tag env
        have hc' : taken.platform.context? a = some { c with mailbox := some box, receivers } :=
          Flow.context?_setMail hc _ _
        cases temporary with
        | true => exact Or.inl (context?_terminate_self code hroot (isLive_iff.mpr ⟨_, hc'⟩))
        | false =>
          exact ih receivers (c := { c with mailbox := some box, receivers }) (s := taken) hc'

/-- Nothing is raised by `Stage.attend`. -/
theorem attend_raised (box : List Envelope) (receivers : List Receiver) (s : Stage κ) :
    (s.attend code a actor temporary box receivers).platform.raised = s.platform.raised := by
  induction box generalizing receivers s with
  | nil => cases receivers <;> rfl
  | cons env box ih =>
    cases receivers with
    | nil => rfl
    | cons r rest =>
      unfold attend
      cases r.matcher.select env.message with
      | none => exact ih _ _
      | some tag =>
        cases temporary with
        | true => exact (terminate_removals code a _).raised
        | false => exact ih _ _

end Stage

/-- A slot of a buffered actor is about to look after its mailbox (`Work.mail`). -/
structure Stage.Looks (s : Stage κ) (a : Address) (slot : Slot κ) (c : Context κ)
    (actor : κ.Actor) (m : Machine κ) (box : List Envelope) : Prop where
  other : a ≠ .root
  context : s.platform.context? a = some c
  generation : c.generation = slot.generation
  work : slot.work.toScript = .notify
  running : s.platform.running.contains a = true
  actor : c.actor = some actor
  machine : c.machine = some m
  rest : m.AtRest a c.generation
  mailbox : c.mailbox = some box

namespace Flow

open Stage

variable {code : Code κ} {a : Address} {slot : Slot κ} {c : Context κ} {actor : κ.Actor}
  {m : Machine κ} {box : List Envelope} {s : Stage κ} {deaf : Prop}

theorem takeBacklog_eq_none {p : Platform κ}
    (h : ∀ c, p.context? a = some c → c.backlog = []) : p.takeBacklog a = none := by
  unfold takeBacklog
  cases hc : p.context? a with
  | none => rfl
  | some c =>
    dsimp only
    rw [h c hc]
    cases c.isIdle <;> rfl

/-- The machine is put back when the loop has ended (`Flow.checkIn`). -/
theorem traced_checkIn (code : Code κ) {t v : Stage κ}
    (hrunning : s.platform.running.contains m.address = true)
    (hm : c.machine = some m) (hgeneration : c.generation = m.generation)
    (hkept : t.platform.context? m.address = none ∨
      t.platform.running = s.platform.running ∧
        ∃ mailbox receivers, t.platform.context? m.address = some { c with mailbox, receivers })
    (hv : (t.edit (·.engaged m.address)).Traced deaf v) :
    ∃ u, (∀ n, perform (body code) n (checkIn m) v = some ((), u)) ∧ t.Traced deaf u := by
  obtain hgone | ⟨hsame, mailbox, receivers, hc⟩ := hkept
  · rw [engaged_of_gone hgone] at hv
    have hnot : ¬ v.platform.isCurrent m.address m.generation = true := by
      rw [isCurrent_iff, hv.context?, hgone]
      simp
    refine ⟨v, fun n => ?_, hv⟩
    show some ((), v.edit _) = _
    exact congrArg (fun platform => some ((), ({ v with platform } : Stage κ))) (if_neg hnot)
  · let back (p : Platform κ) : Platform κ :=
      p.modifyContext m.address fun c => { c with machine := some m }
    have hcurrent : v.platform.isCurrent m.address m.generation = true :=
      isCurrent_iff.mpr ⟨_, (hv.context? _).trans (context?_engaged hc), hgeneration⟩
    have hrunning' : v.platform.running.contains m.address = true := by
      rw [hv.asked (·.running) fun _ _ => rfl]
      exact hsame ▸ hrunning
    have henqueue : (back v.platform).enqueue m.address = back v.platform :=
      if_pos (by rw [show (back v.platform).running = v.platform.running from rfl, hrunning']; rfl)
    have hback : (t.edit (·.engaged m.address)).edit back = t := by
      have hp : back (t.platform.engaged m.address) = t.platform :=
        modifyContext_back hc (by rw [← hm])
      exact congrArg (fun platform => ({ t with platform } : Stage κ)) hp
    refine ⟨v.edit back, fun n => ?_, ?_⟩
    · show some ((), v.edit _) = _
      exact congrArg (fun platform => some ((), ({ v with platform } : Stage κ)))
        ((if_pos hcurrent).trans henqueue)
    · have hv' := hv.modifyContext m.address fun c => { c with machine := some m }
      exact hback ▸ hv'

/-- **A slot that looks after a mailbox** ends, nothing is raised, and the stage is left as the loop
leaves it (`Stage.attend`); the bus may tell of the script's instructions too. Then the actor's
backlog is looked after, if it has one. -/
theorem notify_attends (code : Code κ) (h : s.Looks a slot c actor m box)
    (hsilent : ∀ tag env, (code.hook actor (.receive tag env) a).Silent (.ok ())) :
    let deaf := ∀ tag env, (code.hook actor (.receive tag env) a).Deaf
    let loop := s.attend code a actor c.flags.temporary box c.receivers
    ∃ k t, loop.Traced deaf t ∧ t.platform.raised = s.platform.raised ∧
      (∀ n, perform (body code) (n + k) (runSlot a slot) s =
        (performCall (body code) (n + k) (.flush a) t).map fun x => (false, x.2)) ∧
      (c.backlog = [] → ∀ n, perform (body code) (n + k) (runSlot a slot) s = some (false, t)) := by
  intro deaf loop
  obtain ⟨rfl, hgeneration, hframes, hroom, -⟩ := h.rest
  have hdepth : m.depth < m.maxFrames := by
    unfold Machine.depth
    rw [hframes]
    exact hroom
  have hopen : { c with machine := none }.Open m.generation actor c.flags.temporary box
      c.receivers := ⟨hgeneration.symm, h.actor, rfl, rfl, h.mailbox, rfl⟩
  obtain ⟨k, v, hperform, hv⟩ := performCall_notify h.other hsilent id box c.receivers h.context
    hopen (.refl _)
  have hkept := attend_kept code actor c.flags.temporary h.other box c.receivers h.context
  obtain ⟨t, hback, ht⟩ := traced_checkIn code h.running h.machine hgeneration.symm hkept hv
  have hcurrent : s.platform.isCurrent m.address slot.generation = true :=
    isCurrent_iff.mpr ⟨c, h.context, h.generation⟩
  have hout (n : Nat) : perform (body code) n (checkOut m.address) s =
      some (some m, s.edit (·.engaged m.address)) := by
    have hmachine : (s.platform.context? m.address).bind Context.machine = some m := by
      rw [h.context, Option.bind_some, h.machine]
    exact congrArg (fun x => some (x, s.edit (·.engaged m.address))) hmachine
  have hexec (n : Nat) : perform (body code) (n + (k + 1)) (exec m slot.work.toScript)
      (s.edit (·.engaged m.address)) = some ((none, m), v) := by
    rw [h.work, ← Nat.add_assoc, Nat.add_right_comm]
    exact (perform_exec hdepth _ _ _).trans (hperform (n + 1))
  have hrun (n : Nat) : perform (body code) (n + (k + 1)) (runSlot m.address slot) s =
      (performCall (body code) (n + (k + 1)) (.flush m.address) t).map fun x => (false, x.2) := by
    unfold runSlot
    rw [perform_ask, hcurrent, if_neg (by simp), perform_bind, hout, Option.bind_some]
    dsimp only
    rw [perform_bind, hexec, Option.bind_some]
    dsimp only
    rw [perform_bind, hback, Option.bind_some]
    refine (perform_bind _ _ _).trans ?_
    refine (congrArg (Option.bind · _) (performWith_invoke _ _)).trans ?_
    cases performCall (body code) (n + (k + 1)) (.flush m.address) t <;> rfl
  refine ⟨k + 1, t, ht, ?_, hrun, fun hbacklog n => ?_⟩
  · exact (ht.asked (·.raised) fun _ _ => rfl).trans (attend_raised _ _ _)
  · have hnone : t.platform.takeBacklog m.address = none := by
      refine takeBacklog_eq_none fun d hd => ?_
      rw [ht.context?] at hd
      obtain hgone | ⟨-, mailbox, receivers, hc⟩ := hkept
      · exact absurd (hd.symm.trans hgone) (by simp)
      · obtain rfl := Option.some.inj (hd.symm.trans hc)
        exact hbacklog
    have hflush : performCall (body code) (n + (k + 1)) (.flush m.address) t = some ((), t) := by
      show perform (body code) (n + k) (flushBacklog code m.address) t = _
      unfold flushBacklog
      rw [perform_ask]
      dsimp only [id]
      rw [hnone]
      rfl
    exact (hrun n).trans (congrArg (Option.map _) hflush)

end Flow

namespace Mailroom

/-- An application that keeps the tags of what its actors received. -/
def app : App := ⟨Unit, Unit, Unit, Unit, Unit, List String⟩

/-- An actor notes down the tag of what it receives (`Hook.receive`). -/
def code : Code app where
  freshId w := ("fresh", w)
  build _ _ w := ((), w)
  init _ w := (.buffered, w)
  stop _ w := w
  judge _ _ w := (.stop, w)
  hook
    | _, .receive tag _, _ => .look fun _ w => .put (List.append w [tag]) (.done (.ok ()))
    | _, _, _ => .done (.ok ())
  foreign _ _ _ := .done (.ok .nil)
  poll _ w := (.ready (.ok none), w)

/-- Where the actor lives. -/
def clerk : Address :=
  .path (.child .root ⟨['k', 'm'], rfl⟩)

/-- Its first receiver wants a flag (`Case.ofKind`), the standing one wants anything
(`Matcher.any`). -/
def receivers : List Receiver :=
  [⟨⟨[.ofKind "flag" .bool]⟩, false⟩, ⟨.any "any", true⟩]

/-- What is in its mailbox. -/
def box : List Envelope :=
  [.null, .bool true, .null].map (⟨clerk, .root, ·⟩)

def context : Context app :=
  { Context.new clerk 1 8 () .buffered (.mk none () [] none [] []) with
    mailbox := some box, receivers }

/-- A slot of `clerk` runs. -/
def stage : Stage app :=
  (Stage.new {} none [] []).edit fun p =>
    { p with
      contexts := p.contexts.insert clerk context
      running := p.running.insert clerk ⟨1, .mail⟩ }

/-- What comes before the flag is dropped (`box`), and what comes after it goes to the standing
receiver. -/
theorem clerk_attends : ∃ k t, t.world = ["flag", "any"] ∧
    t.platform.context? clerk = some { context with
      mailbox := some [], receivers := [⟨.any "any", true⟩] } ∧
    t.platform.bus.published.toList.map Event.kind =
      [.messageDropped, .messageReceived, .messageReceived] ∧
    perform (body code) k (runSlot clerk ⟨1, .mail⟩) stage = some (false, t) := by
  have hlooks : stage.Looks clerk ⟨1, .mail⟩ context () (.new clerk 1 8) box :=
    ⟨by decide, rfl, rfl, rfl, rfl, rfl, rfl,
      ⟨rfl, rfl, rfl, by decide, Machine.sound_new _ _ _⟩, rfl⟩
  obtain ⟨k, t, ht, -, -, hrun⟩ := notify_attends code hlooks fun _ _ _ _ => rfl
  obtain rfl := ht.silent rfl
  exact ⟨0 + k, stage.attend code clerk () false box receivers, rfl, rfl, by decide, hrun rfl 0⟩

end Mailroom

end Troupe
