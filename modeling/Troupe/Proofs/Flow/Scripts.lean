import Troupe.Flow.Activities
import Troupe.Proofs.Flow.Requests

/-!
# Running scripts

The body of `Call.resume` keeps what the discipline promises of it (`Flow.Resumed`). A script ends
with the frames that were below it and with what they own: by returning (`leaveFrame_resumed`), by
failing (`failScript_resumed`) or halting, or because its incarnation has gone. Until then it goes
on turn by turn, and only its demands let others begin on its machine (`Machine.Onward`).

The script that looks after a mailbox (`Script.notify`) is followed line by line (`line_awake`). It
counts the mail, counts the receivers, reads (`read_awake`), and drops what the first receiver does
not want (`discard_awake`); it comes to its end only from a count of zero. So when it has ended,
nobody sleeps through mail at its address.

Headlines:
* **`Flow.runMachine_resumed`**: a script leaves the frames below it, and goes on turn by turn.
* **`Flow.runMachine_awake`**: looking after a mailbox ends with nobody asleep there
  (`Platform.Awake`).
-/

namespace Troupe.Flow

open Platform
open Machine (Entered Onward Turned)

variable {κ : App} {N : Machine κ → Nat → Prop} {V : Event → Prop} {code : Code κ} {s : Stage κ}
  {m m' : Machine κ} {base : Nat}

/-! ## The frames that are left -/

theorem Resumed.of_atop {m'' : Machine κ} (h : m.Atop m') (hb : base < m.depth)
    (hr : Resumed m' base m'') : Resumed m base m'' :=
  ⟨h.spares.trans hr.toSpares (h.floor hb).2, hr.frames.trans (h.floor hb).2⟩

theorem resume_resumed (h : N m base) :
    Tidy N V (invoke (.resume m base)) (fun x _ => Resumed m base x.2) s :=
  (Tidy.resume h).mono fun _ _ _ h => h.1

theorem leaveFrame_last (h : m.depth = base + 1) : leaveFrame m base = pure (m.leave base) :=
  if_pos h

theorem leaveFrame_caller (h : m.depth ≠ base + 1) :
    leaveFrame m base = invoke (.resume (m.leave base).2 base) :=
  if_neg h

theorem leaveFrame_resumed (hb : base < m.depth)
    (hn : m.depth ≠ base + 1 → N (m.leave base).2 base) :
    Tidy N V (leaveFrame m base) (fun x _ => Resumed m base x.2) s := by
  have hspares : m.Spares base (m.leave base).2 := Machine.leave_spares hb
  by_cases hlast : m.depth = base + 1
  · rw [leaveFrame_last hlast]
    exact .pure ⟨hspares, Machine.leave_last hlast⟩
  · rw [leaveFrame_caller hlast]
    have hfloor := (Machine.leave_floor (k := base) (by omega) hlast).2
    refine (resume_resumed (hn hlast)).mono fun x _ _ hr => ?_
    exact ⟨hspares.trans hr.toSpares hfloor, hr.frames.trans hfloor⟩

theorem failScript_resumed (m : Machine κ) (base : Nat) (e : ActorError) :
    Tidy N V (failScript m base e) (fun x _ => Resumed m base x.2) s :=
  .bind (.step (.raise _ e)) fun _ _ _ _ => .pure ⟨m.unwind_spares base, rfl⟩

theorem goOn_resumed (m : Machine κ) (hb : base < m.depth) (met : Met κ) (hn : N m base)
    (hp : ∀ v m', m.pushValue v = .ok m' → N m' base) :
    Tidy N V (goOn m base met) (fun x _ => Resumed m base x.2) s := by
  cases met with
  | push v =>
    rw [goOn]
    split
    · rename_i m' hpush
      exact (resume_resumed (hp v m' hpush)).mono fun _ _ _ hr =>
        hr.of_atop (Machine.pushValue_atop hpush) hb
    · exact failScript_resumed m base _
  | nothing => exact resume_resumed hn
  | halt => exact .pure ⟨m.unwind_spares base, rfl⟩
  | failed e => exact failScript_resumed m base e

/-- An instruction is carried out (`carryOut`), and the script goes on. -/
theorem carryOut_resumed (hpub : code.Publishes V) {i : Instr} (hf : m.fetch = some (i, m'))
    (hi : i ≠ .ret) (hb : base < m.depth) :
    Tidy (Onward base m) V (carryOut code m' base i) (fun x _ => Resumed m base x.2) s := by
  have hatop := Machine.fetch_atop hf
  unfold carryOut
  split
  · exact (failScript_resumed m' base _).mono fun _ _ _ hr => hr.of_atop hatop hb
  · rename_i n hstep
    have hturn : Turned base m n := .next hf hi hstep
    refine (resume_resumed (.turned hturn)).mono fun _ _ _ hr => ?_
    exact hr.of_atop (hatop.trans (Machine.step_atop hatop.ne_nil hstep)) hb
  · rename_i d m'' hstep
    have hd := Machine.demand_atop hf hstep
    refine .bind ((meet_tidy hpub m'' d s).relax fun n b he => ?_) fun ⟨met, k⟩ t _ hsame => ?_
    · exact .entered hb hf hstep he
    · have hall := hd.trans (hsame.atop hd.ne_nil)
      refine (goOn_resumed k (hall.floor hb).1 met ?_ fun v n hpush => ?_).mono fun _ _ _ hr =>
        hr.of_atop hall hb
      · exact .turned (.met hf hstep hsame)
      · exact .turned (.answered hf hstep hsame hpush)

/-- **A script leaves the frames below it** (`runMachine`), and goes on turn by turn. -/
theorem runMachine_resumed (hpub : code.Publishes V) (m : Machine κ) (base : Nat) (s : Stage κ) :
    Tidy (Onward base m) V (runMachine code m base) (fun x _ => Resumed m base x.2) s := by
  unfold runMachine
  refine .ask ?_
  dsimp only [id]
  by_cases hb : m.depth ≤ base
  · rw [if_pos hb]
    exact .pure ⟨(Machine.Grown.refl m).spares, (Machine.floor_of_le hb).symm⟩
  · rw [if_neg hb]
    rw [Nat.not_le] at hb
    split
    · exact .pure ⟨m.unwind_spares base, rfl⟩
    · split
      · rename_i hf
        exact leaveFrame_resumed hb fun hne => .turned (.ended hf hne)
      · rename_i i m' hf
        refine .bind (.when (.step (.publish rfl))) fun _ t _ _ => ?_
        by_cases hi : i = .ret
        · subst hi
          have hatop := Machine.fetch_atop hf
          rw [if_pos rfl]
          refine (leaveFrame_resumed (hatop.floor hb).1 fun hne => ?_).mono fun _ _ _ hr =>
            hr.of_atop hatop hb
          exact .turned (.returned hf hne)
        · rw [if_neg hi]
          exact carryOut_resumed hpub hf hi hb

/-! ## Looking after a mailbox -/

/-- Going on with the script (`Call.resume`), when what is known at its line is so. -/
theorem resume_awake (hn : s.platform.Notifying m)
    (ha : s.platform.AwakeBut m.address (some m.generation)) :
    Tidy Anyhow V (invoke (.resume m 0)) (fun _ t => t.platform.Awake m.address) s :=
  (Tidy.resume trivial).mono fun _ _ _ h => h.2 rfl hn ha

theorem mailboxLength_zero {p : Platform κ} {a : Address} (h : (p.mailboxLength? a).getD 0 = 0) :
    p.Awake a := by
  refine awake_of_idle fun c hc => Or.inl ?_
  unfold mailboxLength? at h
  rw [hc, Option.bind_some] at h
  unfold Context.hasMail
  cases hb : c.mailbox with
  | none => rfl
  | some box =>
    rw [hb] at h
    cases box with
    | nil => rfl
    | cons env box => exact absurd h (by simp)

theorem receiverCount_zero {p : Platform κ} {a : Address} (h : p.receiverCount a = 0) :
    p.Awake a := by
  refine awake_of_idle fun c hc => Or.inr ?_
  unfold receiverCount at h
  rw [hc] at h
  exact List.eq_nil_of_length_eq_zero h

/-! ### One instruction -/

section Line

variable {i : Instr} {d : Datum} {f : Frame κ} {Q : Option (Value κ) × Machine κ → Stage κ → Prop}

theorem carryOut_next (h : m.step i = .ok (.next m')) :
    carryOut code m base i = invoke (.resume m' base) := by
  unfold carryOut
  rw [h]

theorem carryOut_demand {d : Demand κ} (h : m.step i = .ok (.demand d m')) :
    carryOut code m base i = meet code m' d >>= fun x => goOn x.2 base x.1 := by
  unfold carryOut
  rw [h]

/-- A live script carries its next instruction out (`carryOut`), once it is logged. -/
theorem runMachine_fetch (hb : base < m.depth)
    (hcur : s.platform.isCurrent m.address m.generation = true) (hf : m.fetch = some (i, m'))
    (hi : i ≠ .ret)
    (h : ∀ t, Clean V s.platform t.platform → Tidy Anyhow V (carryOut code m' base i) Q t) :
    Tidy Anyhow V (runMachine code m base) Q s := by
  unfold runMachine
  refine .ask ?_
  dsimp only [id]
  rw [if_neg (Nat.not_le.mpr hb), hcur, if_neg (by simp), hf]
  refine .bind (.when (.step (.publish rfl))) fun _ t hst _ => ?_
  rw [if_neg hi]
  exact h t hst

theorem push_single (hm : m.frames = [f]) (d : Datum) :
    m.push d = .ok { m with frames := [f.push d] } := by
  unfold Machine.push Machine.withTop
  rw [hm]

theorem jumpIf_single {n : Int} {rest : List Datum} (hm : m.frames = [f])
    (hs : f.stack = .int n :: rest) (op : String) (k : Int) (target : Nat) :
    m.jumpIf op k target = .ok { m with frames :=
      [if n = k then { f with stack := rest, ip := target } else { f with stack := rest }] } := by
  unfold Machine.jumpIf Machine.onTop Frame.popInt
  rw [hm]
  dsimp only
  rw [hs]
  by_cases hk : n = k
  · rw [if_pos hk]
    exact if_pos hk
  · rw [if_neg hk]
    exact if_neg hk

theorem step_jumpIfZero {target : Nat} (h : m.jumpIf "jump_if_zero" 0 target = .ok m') :
    m.step (.jumpIfZero target) = .ok (.next m') := by
  show (liftM (m.jumpIf "jump_if_zero" 0 target) >>= fun m => pure (.next m) :
    Except ActorError (StepResult κ)) = _
  rw [h]
  rfl

theorem step_jumpIfOne {target : Nat} (h : m.jumpIf "jump_if_one" 1 target = .ok m') :
    m.step (.jumpIfOne target) = .ok (.next m') := by
  show (liftM (m.jumpIf "jump_if_one" 1 target) >>= fun m => pure (.next m) :
    Except ActorError (StepResult κ)) = _
  rw [h]
  rfl

/-- A number was pushed (`Met.push`), and the script goes on. -/
theorem goOn_awake {n : Int} (hm : m.frames = [f])
    (hn : s.platform.Notifying { m with frames := [f.push (.int n)] })
    (ha : s.platform.AwakeBut m.address (some m.generation)) :
    Tidy Anyhow V (goOn m 0 (.push (.int n))) (fun _ t => t.platform.Awake m.address) s := by
  rw [goOn, Machine.pushValue, push_single hm]
  exact resume_awake hn ha

/-- A number was popped, and the script goes on at one of two lines (`Machine.jumpIf`). -/
theorem carryOut_jump_awake {op : String} {k n : Int} {target : Nat} {rest : List Datum}
    (hstep : ∀ m', m.jumpIf op k target = .ok m' → m.step i = .ok (.next m'))
    (hm : m.frames = [f]) (hscript : f.script = .notify) (hcode : f.code = .main)
    (hs : f.stack = .int n :: rest) (ha : s.platform.AwakeBut m.address (some m.generation))
    (hyes : n = k → s.platform.Noted m.address { f with stack := rest, ip := target })
    (hno : n ≠ k → s.platform.Noted m.address { f with stack := rest }) :
    Tidy Anyhow V (carryOut code m 0 i) (fun _ t => t.platform.Awake m.address) s := by
  rw [carryOut_next (hstep _ (jumpIf_single hm hs op k target))]
  refine resume_awake ⟨_, rfl, ?_⟩ ha
  by_cases h : n = k
  · rw [if_pos h]
    exact ⟨hscript, hcode, hyes h⟩
  · rw [if_neg h]
    exact ⟨hscript, hcode, hno h⟩

end Line

theorem dropMail_tidy (a : Address) :
    Tidy Anyhow V (edit (·.discardMail a) >>= fun _ => pure Met.nothing)
      (fun (met : Met κ) _ => met = .nothing) s := by
  have hdrop : Tidy Anyhow V (edit (·.discardMail a)) (fun _ _ => True) s :=
    .edit (discardMail_clean s.platform a) trivial
  exact .bind hdrop fun _ _ _ _ => .pure rfl

/-! ### Line by line -/

/-- A frame of the script that looks after a mailbox (`Script.notify`). -/
def notifyFrame (name : String) (ip : Nat) (stack locals : List Datum) (owned : List Nat) :
    Frame κ where
  name
  script := .notify
  code := .main
  ip
  stack
  locals
  owned

theorem fetch_notify {name : String} {ip : Nat} {stack locals : List Datum} {owned : List Nat}
    {i : Instr} (hm : m.frames = [notifyFrame name ip stack locals owned])
    (h : (Script.notify (κ := κ)).code[ip]? = some i) :
    m.fetch = some (i, { m with frames := [notifyFrame name (ip + 1) stack locals owned] }) := by
  unfold Machine.fetch
  rw [hm]
  dsimp only [Frame.fetch, notifyFrame]
  rw [h]

/-- A line of the script (`notifyFrame`): its instruction is carried out by the machine at the next
line. -/
theorem line_awake {name : String} {ip : Nat} {stack locals : List Datum} {owned : List Nat}
    {i : Instr} (hcur : s.platform.isCurrent m.address m.generation = true)
    (ha : s.platform.AwakeBut m.address (some m.generation))
    (hm : m.frames = [notifyFrame name ip stack locals owned])
    (hline : (Script.notify (κ := κ)).code[ip]? = some i) (hi : i ≠ .ret)
    (h : ∀ t, Clean V s.platform t.platform → t.platform.AwakeBut m.address (some m.generation) →
      Tidy Anyhow V
        (carryOut code { m with frames := [notifyFrame name (ip + 1) stack locals owned] } 0 i)
        (fun _ u => u.platform.Awake m.address) t) :
    Tidy Anyhow V (runMachine code m 0) (fun _ t => t.platform.Awake m.address) s := by
  have hb : 0 < m.depth := by
    unfold Machine.depth
    rw [hm]
    exact Nat.one_pos
  exact runMachine_fetch hb hcur (fetch_notify hm hline) hi fun t hst =>
    h t hst (ha.nested hst.nested)

/-- Past its last line the script has ended (`Machine.fetch`). -/
theorem runMachine_ended (hcur : s.platform.isCurrent m.address m.generation = true)
    (hm : m.depth = 1) (hfetch : m.fetch = none) (ha : s.platform.Awake m.address) :
    Tidy Anyhow V (runMachine code m 0) (fun _ t => t.platform.Awake m.address) s := by
  unfold runMachine
  refine .ask ?_
  dsimp only [id]
  rw [if_neg (by omega), hcur, if_neg (by simp), hfetch]
  exact leaveFrame_last hm ▸ .pure ha

/-- A script whose incarnation has gone ends at once (`Platform.isCurrent`). -/
theorem runMachine_gone (hgone : s.platform.isCurrent m.address m.generation = false)
    (hm : m.depth = 1) (ha : s.platform.AwakeBut m.address (some m.generation)) :
    Tidy Anyhow V (runMachine code m 0) (fun _ t => t.platform.Awake m.address) s := by
  unfold runMachine
  refine .ask ?_
  dsimp only [id]
  rw [if_neg (by omega), hgone, if_pos (by simp)]
  exact .pure (ha.awake_of_gone hgone)

/-- Reading (`Instr.read`) halts the script if another slot is to read, and else pushes a number. -/
theorem read_awake (hpub : code.Publishes V) {f : Frame κ} (hm : m.frames = [f])
    (hscript : f.script = .notify) (hcode : f.code = .main) (hip : f.ip = 5)
    (ha : s.platform.AwakeBut m.address (some m.generation)) :
    Tidy Anyhow V (carryOut code m 0 .read) (fun _ t => t.platform.Awake m.address) s := by
  rw [carryOut_demand rfl]
  have hmail := (readMail_tidy hpub m s).relax (K := Anyhow) fun _ _ _ => trivial
  refine .bind hmail fun ⟨met, m'⟩ t hst ⟨hsame, hread⟩ => ?_
  have hawake := ha.nested hst.nested
  cases met with
  | halt => exact .pure hread
  | push v =>
    obtain ⟨n, rfl⟩ := hread
    rw [← hsame.address, ← hsame.generation] at hawake
    rw [← hsame.address]
    refine goOn_awake (hsame.frames.trans hm) ⟨_, rfl, hscript, hcode, ?_⟩ hawake
    unfold Noted Frame.push
    rw [hip]
    exact ⟨n, f.stack, rfl⟩
  | nothing => exact hread.elim
  | failed e => exact hread.elim

/-- Dropping the head of the mailbox (`Instr.discard`) pushes nothing. -/
theorem discard_awake {f : Frame κ} (hm : m.frames = [f]) (hscript : f.script = .notify)
    (hcode : f.code = .main) (hip : f.ip = 7)
    (ha : s.platform.AwakeBut m.address (some m.generation)) :
    Tidy Anyhow V (carryOut code m 0 .discard) (fun _ t => t.platform.Awake m.address) s := by
  rw [carryOut_demand rfl]
  refine .bind (onBehalf_tidy (dropMail_tidy m.address)) fun ⟨met, m'⟩ t hst ⟨hsame, hmet⟩ => ?_
  have hawake := ha.nested hst.nested
  obtain rfl : met = .nothing := hmet
  rw [← hsame.address, ← hsame.generation] at hawake
  rw [← hsame.address]
  refine resume_awake ⟨f, hsame.frames.trans hm, hscript, hcode, ?_⟩ hawake
  unfold Noted
  rw [hip]
  trivial

/-- **Looking after a mailbox** ends with nobody asleep there (`Platform.Awake`). -/
theorem runMachine_awake (hpub : code.Publishes V) (hn : s.platform.Notifying m)
    (ha : s.platform.AwakeBut m.address (some m.generation)) :
    Tidy Anyhow V (runMachine code m 0) (fun _ t => t.platform.Awake m.address) s := by
  obtain ⟨⟨name, script, ref, ip, stack, locals, owned⟩, hm, rfl, rfl, hnoted⟩ := hn
  have hdepth : m.depth = 1 := congrArg List.length hm
  by_cases hcur : s.platform.isCurrent m.address m.generation = true
  · match ip, hnoted, hm with
    | 0, _, hm =>
      refine line_awake hcur ha hm rfl (by simp) fun t _ ha => ?_
      rw [carryOut_demand rfl]
      refine goOn_awake (m := { m with frames := [notifyFrame name 1 stack locals owned] })
        (n := ((t.platform.mailboxLength? m.address).getD 0 : Nat)) rfl ?_ ha
      -- no mail: nobody waits for it
      refine ⟨_, rfl, rfl, rfl, _, _, rfl, fun h => mailboxLength_zero ?_⟩
      exact Int.ofNat_eq_zero.mp h
    | 1, ⟨n, rest, hstack, hzero⟩, hm =>
      refine line_awake hcur ha hm rfl (by simp) fun t hst ha => ?_
      exact carryOut_jump_awake (fun _ => step_jumpIfZero) rfl rfl rfl hstack ha
        (fun h => AwakeBut.nested hst.nested (hzero h)) fun _ => trivial
    | 2, _, hm =>
      refine line_awake hcur ha hm rfl (by simp) fun t _ ha => ?_
      rw [carryOut_demand rfl]
      refine goOn_awake (m := { m with frames := [notifyFrame name 3 stack locals owned] })
        (n := (t.platform.receiverCount m.address : Nat)) rfl ?_ ha
      -- no receiver: nobody waits either
      refine ⟨_, rfl, rfl, rfl, _, _, rfl, fun h => receiverCount_zero ?_⟩
      exact Int.ofNat_eq_zero.mp h
    | 3, ⟨n, rest, hstack, hzero⟩, hm =>
      refine line_awake hcur ha hm rfl (by simp) fun t hst ha => ?_
      exact carryOut_jump_awake (fun _ => step_jumpIfZero) rfl rfl rfl hstack ha
        (fun h => AwakeBut.nested hst.nested (hzero h)) fun _ => trivial
    | 4, _, hm =>
      refine line_awake hcur ha hm rfl (by simp) fun t _ ha => ?_
      exact read_awake hpub rfl rfl rfl rfl ha
    | 5, ⟨n, rest, hstack⟩, hm =>
      refine line_awake hcur ha hm rfl (by simp) fun t _ ha => ?_
      exact carryOut_jump_awake (fun _ => step_jumpIfOne) rfl rfl rfl hstack ha
        (fun _ => trivial) fun _ => trivial
    | 6, _, hm =>
      refine line_awake hcur ha hm rfl (by simp) fun t _ ha => ?_
      exact discard_awake rfl rfl rfl rfl ha
    | 7, _, hm =>
      refine line_awake hcur ha hm rfl (by simp) fun t _ ha => ?_
      rw [carryOut_next rfl]
      exact resume_awake ⟨_, rfl, rfl, rfl, trivial⟩ ha
    | 8, hend, hm =>
      refine line_awake hcur ha hm rfl (by simp) fun t hst ha => ?_
      rw [carryOut_next rfl]
      exact resume_awake ⟨_, rfl, rfl, rfl, AwakeBut.nested hst.nested hend⟩ ha
    | k + 9, hend, hm =>
      refine runMachine_ended hcur hdepth ?_ hend
      unfold Machine.fetch
      rw [hm]
      rfl
  · exact runMachine_gone (Bool.not_eq_true _ ▸ hcur) hdepth ha

end Troupe.Flow
