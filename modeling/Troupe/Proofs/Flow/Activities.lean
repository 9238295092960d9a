import Troupe.Proofs.Flow.Scripts

/-!
# The discipline is kept

Every body keeps what the discipline promises of its call (`Flow.discipline`). Starting an actor
(`startActor_tidy`), giving it its backlog (`flushBacklog_tidy`) and judging an error
(`supervise_tidy`) are clean work. A slot is run with its machine at hand, so it is never put back,
and it ends with its mail looked after; so the queues are drained one turn after the other, each of
which leaves the platform settled (`Settled.round`). The main loop drains, awaits and settles, and
comes to a good end only where no task is left; a run that is interrupted leaves the platform
stopped (`interrupted_meets`).

Headlines:
* **`Flow.runSlot_meets`**: a slot (`run_slot`) is not put back, and leaves nobody asleep at its
  address.
* **`Flow.drainQueues_meets`**: draining (`drain`) leaves the platform settled turn by turn, and at
  the end drained.
* **`Flow.awaitTask_meets`**, **`Flow.settleTask_meets`**, **`Flow.runLoop_meets`**: the main loop
  (`Platform::run`), part by part.
* **`Flow.honours_discipline`**: the discipline is kept, whatever application code does.
-/

namespace Troupe

variable {κ : App} {V : Event → Prop}

namespace Platform

variable {p q r : Platform κ} {a : Address}

/-! ## Settled between turns -/

/-- A turn that changes no record (`SameRecords`) and ends with nobody running. -/
theorem Settled.turning (h : p.Settled) (ht : Turning p q) (hrun : q.running = p.running)
    (hr : SameRecords p q) : q.Settled :=
  ⟨h.quiet.repaid (.of_eq fun _ => context?_turning ht) hrun, hr.unpolled h.unpolled⟩

theorem SameRecords.of_endTurn (p : Platform κ) (a : Address) :
    SameRecords p (p.endTurn a false) := by
  obtain ⟨_, _, _, he⟩ := endTurn_eq p a
  rw [he]
  exact ⟨rfl, rfl, rfl, rfl, .refl _⟩

/-- What a slot finds when its turn comes on a settled platform: no machine at its address is in
use, and nobody sleeps through mail there (`AwakeBut`) but whom it looks after. -/
theorem Settled.begin {slot : Slot κ} (h : p.Settled) (hi : p.Inv) (ht : p.turn = .slot a slot q) :
    Turning p q ∧ (∀ g, ¬ q.MachineLent a g) ∧ q.AwakeBut a (excused slot) := by
  have hturn : Turning p q := .begin (h.quiet.running a) ht
  refine ⟨hturn, fun g => ?_, .begin ht (hi.awake_of_quiet h.quiet a)⟩
  rintro ⟨c, hc, hl⟩
  exact h.quiet.machine a g ⟨c, context?_turning hturn ▸ hc, hl⟩

/-- Begun on a settled platform (`Settled`), a slot that does clean work leaves it settled. -/
theorem Settled.round {slot : Slot κ} (h : p.Settled) (ht : p.turn = .slot a slot q)
    (hc : Clean V q r) (ha : r.Awake a) : (r.endTurn a false).Settled := by
  have hbegin : Repaid p q := .of_eq fun _ => context?_turning (.begin (h.quiet.running a) ht)
  have hend : Repaid r (r.endTurn a false) := .of_eq fun _ => context?_turning (.finish ha)
  have hrepaid : Repaid p (r.endTurn a false) := hbegin.trans (hc.repaid.trans hend)
  obtain ⟨rest, slots, -, -, -, rfl⟩ := turn_slot ht
  refine ⟨⟨fun b => ?_, fun b g hl => ?_, fun b g hl => ?_⟩, ?_⟩
  · -- the slot's address ran alone
    obtain ⟨_, _, _, he⟩ := endTurn_eq r a
    rw [he, ← Bool.not_eq_true]
    show ¬ (r.running.erase a).contains b = true
    rw [hc.nested.running, Table.contains_erase, Table.contains_insert]
    rintro ⟨hb, rfl | hp⟩
    · exact hb rfl
    · exact absurd (hp.symm.trans (h.quiet.running b)) (by simp)
  · exact h.quiet.actor b g (hrepaid.actor b g hl)
  · exact h.quiet.machine b g (hrepaid.machine b g hl)
  · refine (SameRecords.of_endTurn r a).unpolled (Unpolled.nested hc.nested ?_)
    exact Unpolled.congr h.unpolled rfl rfl

end Platform

namespace Flow

open Platform

variable {code : Code κ} {s : Stage κ} {m : Machine κ} {a : Address} {g : Nat}

/-! ## Starting and supervising -/

theorem takeBacklog_clean {p q : Platform κ} {env : Envelope}
    (h : p.takeBacklog a = some (env, q)) : Clean V p q := by
  unfold takeBacklog at h
  split at h
  · split at h
    · rename_i rest _ _
      obtain ⟨-, rfl⟩ := Prod.mk.inj (Option.some.inj h)
      exact (Step.backlog a fun _ => rest).clean
    · exact absurd h (by simp)
  · exact absurd h (by simp)

theorem startActor_tidy (hpub : code.Publishes V) (a : Address) (s : Stage κ) :
    Tidy OnSound V (startActor code a) (fun _ _ => True) s := by
  unfold startActor
  refine .ask ?_
  split
  · exact .pure trivial
  · refine .bind (.step (.publish rfl)) fun _ t _ _ => ?_
    refine .bind (actAt_tidy hpub a .run t) fun x u _ _ => ?_
    refine .bind (.flush a) fun _ v _ _ => ?_
    split
    · exact .bind (.step (.raise a _)) fun _ _ _ _ => .pure trivial
    · exact .pure trivial

theorem flushBacklog_tidy (hpub : code.Publishes V) (a : Address) (s : Stage κ) :
    Tidy OnSound V (flushBacklog code a) (fun _ _ => True) s := by
  unfold flushBacklog
  refine .ask ?_
  dsimp only [id]
  split
  · exact .pure trivial
  · rename_i env p htake
    refine .bind (.edit (Q := fun _ _ => True) (takeBacklog_clean htake) trivial) fun _ t _ _ => ?_
    refine .bind (actAt_tidy hpub a (.accept env) t) fun x u _ _ => ?_
    rcases x with _ | e | _
    · exact .flush a
    · exact .bind (.step (.raise a _)) fun _ _ _ _ => .flush a
    · exact .flush a

theorem restart_tidy (code : Code κ) (r : Raised κ) (s : Stage κ) :
    Tidy OnSound V (restart code r) (fun _ _ => True) s := by
  unfold restart
  refine .ask ?_
  dsimp only [id]
  split
  · exact .pure trivial
  · rename_i template _
    refine .bind (terminate_tidy code r.source s) fun _ t _ _ => ?_
    refine .bind (allocate_tidy code r.source.parent template t) fun x u _ _ => ?_
    split
    · exact .pure trivial
    · refine .bind (.step (.publish rfl)) fun _ v _ _ => ?_
      exact .bind (startTree_tidy _ v) fun _ _ _ _ => .pure trivial

theorem supervise_tidy (code : Code κ) (r : Raised κ) (s : Stage κ) :
    Tidy OnSound V (supervise code r) (fun _ _ => True) s := by
  unfold supervise
  refine .bind (.onStage (Q := fun _ _ => True) (fun _ => ?_) trivial) fun x t _ _ => ?_
  · exact (Stage.judge_upkeep code r r.source.ancestry s).clean
  · split
    · exact .pure trivial
    · exact restart_tidy code r t
    · exact terminate_tidy code r.source t
    · exact .edit ((Step.publish rfl).clean.trans (Step.fail _).clean) trivial

/-! ## Slots -/

/-- A machine at rest (`Machine.AtRest`) takes a script. -/
theorem pushFrame_of_atRest (hm : m.AtRest a g) (f : Frame κ) :
    m.pushFrame f = .ok { m with frames := [f] } := by
  unfold Machine.pushFrame
  rw [hm.frames, List.length_nil, if_pos hm.room]

/-- **A slot's work** leaves nobody asleep at its address (`Awake`). -/
theorem exec_awake {slot : Slot κ} (hm : m.AtRest a slot.generation)
    (ha : s.platform.AwakeBut a (excused slot)) :
    Tidy Anyhow V (exec m slot.work.toScript) (fun _ t => t.platform.Awake a) s := by
  obtain ⟨generation, _ | script⟩ := slot
  · unfold exec
    rw [pushFrame_of_atRest hm]
    have hdepth : m.depth = 0 := congrArg List.length hm.frames
    dsimp only
    rw [hdepth, ← hm.address]
    refine (Tidy.resume (m := { m with frames := [.main .notify] }) trivial).mono fun x t _ h => ?_
    refine h.2 rfl ⟨_, rfl, rfl, rfl, trivial⟩ ?_
    dsimp only
    rw [hm.address, hm.generation]
    exact ha
  · exact ((exec_tidy m script s).mono fun _ _ hc _ => AwakeBut.nested hc.nested ha).relax
      fun _ _ _ => trivial

/-- **A slot** (`runSlot`) is not put back, and leaves nobody asleep at its address. -/
theorem runSlot_meets {slot : Slot κ} (hi : s.platform.Inv)
    (hm : ∀ g, ¬ s.platform.MachineLent a g) (ha : s.platform.AwakeBut a (excused slot)) :
    Meets (discipline V) (WithinNested V) (runSlot a slot) (fun deferred t => deferred = false ∧
      Clean V s.platform t.platform ∧ t.platform.Awake a) s := by
  unfold runSlot
  rw [meets_bind, meets_ask]
  by_cases hcur : s.platform.isCurrent a slot.generation = true
  · rw [hcur, if_neg (by simp), meets_bind]
    obtain ⟨c, hc, hg⟩ := isCurrent_iff.mp hcur
    refine meets_checkOut hi (fun _ h => h) (fun hno => ?_) fun c' m hc' hrest t hi' ht => ?_
    · exact absurd ⟨c, hc, rfl, hno c hc⟩ (hm c.generation)
    · obtain rfl := Option.some.inj (hc.symm.trans hc')
      have hloan : Nested V s.platform t.platform := ht ▸ (Loan.machine a).nested
      have hexec := (exec_tidy (V := V) m _ t).and
        (exec_awake (hg ▸ hrest) (AwakeBut.nested hloan ha))
      refine meets_borrow (P := fun _ u => u.platform.Awake a) hc hrest (fun _ _ h => h) hi' ht
        (hexec.relax fun _ _ he => he.grown.sound hrest.sound) ?_
      intro x u v hclean hawake huv hi''
      have hflush : Tidy OnSound V (invoke (.flush a) >>= fun _ => pure false)
          (fun deferred _ => deferred = false) v := .bind (.flush a) fun _ _ _ _ => .pure rfl
      refine (hflush hi'').mono (fun _ _ h => h) fun deferred w ⟨hvw, hd⟩ => ?_
      exact ⟨hd, hclean.trans hvw, AwakeBut.nested (huv.trans hvw.nested) hawake⟩
  · rw [Bool.not_eq_true] at hcur
    rw [hcur]
    refine ⟨rfl, .refl _, ?_⟩
    unfold excused at ha
    split at ha
    · exact ha.awake_of_gone hcur
    · exact ha

/-! ## Draining -/

/-- The stage has moved by work but that on tasks (`Rounds`). -/
def WithinRounds (V : Event → Prop) (s t : Stage κ) : Prop :=
  Rounds V s.platform t.platform

/-- The stage has moved by work of any kind (`Outer`). -/
def WithinOuter (V : Event → Prop) (s t : Stage κ) : Prop :=
  Outer V s.platform t.platform

/-- Whatever calls do (`movesOf`), it is work that platforms do. -/
theorem withinOuter_of_moves {c : Call κ} {t : Stage κ} (h : (discipline V).moves c s t) :
    WithinOuter V s t := by
  cases c with
  | resume | start | flush => exact (Nested.rounds h).outer
  | drain => exact Rounds.outer h
  | await | run => exact h

theorem Tidy.rounds {α : Type} {f : Flow κ α} {Q : α → Stage κ → Prop} (h : Tidy OnSound V f Q s)
    (hi : s.platform.Inv) : Meets (discipline V) (WithinRounds V) f
      (fun x t => Clean V s.platform t.platform ∧ Q x t) s :=
  (h hi).mono (fun _ _ => Nested.rounds) fun _ _ h => h

theorem outer_of_rounds {α : Type} {f : Flow κ α} {Q : α → Stage κ → Prop}
    (h : Meets (discipline V) (WithinRounds V) f Q s) :
    Meets (discipline V) (WithinOuter V) f Q s :=
  h.mono (fun _ _ => Rounds.outer) fun _ _ h => h

theorem drain_meets (hs : s.platform.Settled) :
    Meets (discipline V) (WithinRounds V) (invoke .drain) (fun _ t => t.platform.Calm) s :=
  ⟨hs, fun _ h => h, fun _ _ _ _ hg => hg⟩

/-- **Draining** (`drainQueues`): turn after turn, the platform is left settled, and at the end
drained. -/
theorem drainQueues_meets (code : Code κ) (hi : s.platform.Inv) (hs : s.platform.Settled) :
    Meets (discipline V) (WithinRounds V) (drainQueues code) (fun _ t => t.platform.Calm) s := by
  unfold drainQueues
  rw [meets_bind, meets_ask]
  dsimp only [id]
  split
  · rename_i hstopped
    exact ⟨hs, Or.inl hstopped⟩
  · split
    · rename_i r rest hraised
      have hjudge : Turning s.platform { s.platform with raised := rest } := .judge hraised
      refine (meets_bind _ _ _).mpr ?_
      rw [meets_edit]
      refine ⟨hjudge.rounds, fun hi₁ => ?_⟩
      refine (meets_bind _ _ _).mpr ?_
      refine ((supervise_tidy code r _).rounds hi₁).mono (fun _ _ h => h) fun _ t ⟨hclean, _⟩ => ?_
      exact drain_meets ((hs.turning hjudge rfl ⟨rfl, rfl, rfl, rfl, .refl _⟩).clean hclean)
    · rename_i hraised
      split
      · rename_i hidle
        exact ⟨hs, Or.inr ⟨turn_idle hidle, hraised⟩⟩
      · rename_i q hskip
        have hturn : Turning s.platform q := .skip hskip
        refine (meets_bind _ _ _).mpr ?_
        rw [meets_edit]
        refine ⟨hturn.rounds, fun _ => drain_meets ?_⟩
        obtain ⟨_, _, _, ⟨-, rfl⟩ | ⟨-, rfl⟩⟩ := turn_skipped hskip
        · exact hs.turning hturn rfl ⟨rfl, rfl, rfl, rfl, .refl _⟩
        · exact hs.turning hturn rfl ⟨rfl, rfl, rfl, rfl, .refl _⟩
      · rename_i a slot q hslot
        obtain ⟨hturn, hmachine, hawake⟩ := hs.begin hi hslot
        refine (meets_bind _ _ _).mpr ?_
        rw [meets_edit]
        refine ⟨hturn.rounds, fun hi₁ => ?_⟩
        refine (meets_bind _ _ _).mpr ?_
        refine (runSlot_meets hi₁ hmachine hawake).mono (fun _ _ => Nested.rounds) ?_
        rintro _ t ⟨rfl, hclean, hend⟩
        refine (meets_bind _ _ _).mpr ?_
        rw [meets_edit]
        exact ⟨(Turning.finish hend).rounds, fun _ => drain_meets (hs.round hslot hclean hend)⟩

/-! ## Tasks and the main loop -/

/-- A pause (`Stage.pause`) changes the bus only, and tells nothing of tasks. -/
theorem pause_platform (s : Stage κ) :
    ∃ bus, s.platform.bus.SameTold bus ∧ s.pause.platform = { s.platform with bus } := by
  unfold Stage.pause Stage.listen
  split
  · exact ⟨_, .refl _, rfl⟩
  · rename_i l _
    exact ⟨_, l.pause_told _, rfl⟩

theorem pause_turning (s : Stage κ) : Turning s.platform s.pause.platform := by
  obtain ⟨bus, htold, hbus⟩ := pause_platform s
  rw [hbus]
  exact .hear htold

theorem pause_settled (hs : s.platform.Settled) :
    s.pause.platform.Settled ∧ Still s.platform s.pause.platform := by
  have hturn := pause_turning s
  obtain ⟨bus, htold, hbus⟩ := pause_platform s
  rw [hbus] at hturn ⊢
  exact ⟨hs.turning hturn rfl ⟨rfl, rfl, rfl, rfl, htold⟩, ⟨rfl, rfl, rfl⟩⟩

/-- What awaiting a task comes to (`Waited`), from wherever it is taken up again. -/
theorem await_meets (polled : Nat) {p : Platform κ} (hs : s.platform.Settled)
    (hp : Still p s.platform) : Meets (discipline V) (WithinOuter V) (invoke (.await polled))
      (fun x t => givesOf V (.await polled) p x t.platform) s := by
  refine ⟨hs, fun _ h => h, fun x t _ _ hg => ?_⟩
  obtain ⟨hquiet, hstill, hx⟩ := hg
  exact ⟨hquiet, hp.trans hstill, hx⟩

/-- The audience has had its turn (`Stage.pause`). -/
theorem pause_await_meets {p : Platform κ} (hs : s.platform.Settled) (hp : Still p s.platform) :
    Meets (discipline V) (WithinOuter V) (modify Stage.pause >>= fun _ => invoke (.await 0))
      (fun x t => givesOf V (.await 0) p x t.platform) s := by
  rw [meets_bind, meets_modify]
  obtain ⟨hs', hstill⟩ := pause_settled hs
  exact ⟨(pause_turning s).rounds.outer, fun _ => await_meets 0 hs' (hp.trans hstill)⟩

/-- **Awaiting** (`awaitTask`) finds a task that is finished, or that there is none, unless it is
interrupted. -/
theorem awaitTask_meets (code : Code κ) (polled : Nat) (hi : s.platform.Inv)
    (hs : s.platform.Settled) : Meets (discipline V) (WithinOuter V) (awaitTask code polled)
      (fun x t => givesOf V (.await polled) s.platform x t.platform) s := by
  unfold awaitTask
  rw [meets_bind, meets_get_done]
  split
  · rename_i hnone
    exact ⟨hs.quiet, .refl _, hs.unpolled, hnone⟩
  · rename_i id task rest htasks
    split
    · exact ⟨hs.quiet, .refl _, hs.unpolled⟩
    refine (meets_bind _ _ _).mpr ?_
    rw [meets_modify]
    refine ⟨Outer.refl _, fun _ => ?_⟩
    split
    · have htake : Dealing s.platform { s.platform with tasks := rest } := .take hs.unpolled htasks
      obtain ⟨hunpolled, hid⟩ := hs.unpolled.take hi.tasks htasks
      have hmem : id ∈ s.platform.taskIds := by
        rw [taskIds, htasks]
        exact List.mem_cons_self
      have hunsettled := hi.tasks.recorded id hmem
      refine (meets_bind _ _ _).mpr ?_
      rw [meets_edit]
      refine ⟨htake.outer, fun _ => ?_⟩
      exact ⟨hs.quiet.repaid (.of_eq fun _ => rfl) rfl, ⟨rfl, rfl, rfl⟩, hunpolled, hid, hunsettled⟩
    · rename_i task' _
      have hpoll : Dealing s.platform { s.platform with tasks := rest ++ [(id, task')] } :=
        .poll htasks
      have hs' : Settled { s.platform with tasks := rest ++ [(id, task')] } :=
        ⟨hs.quiet.repaid (.of_eq fun _ => rfl) rfl, hs.unpolled.poll htasks⟩
      refine (meets_bind _ _ _).mpr ?_
      rw [meets_edit]
      refine ⟨hpoll.outer, fun _ => ?_⟩
      exact meets_ite (fun _ => pause_await_meets hs' ⟨rfl, rfl, rfl⟩)
        fun _ => await_meets _ hs' ⟨rfl, rfl, rfl⟩

/-- **Settling** (`settleTask`) a task that was taken leaves the platform settled. -/
theorem settleTask_meets {id : Nat} (o : Outcome) (hq : s.platform.Quiet)
    (hu : s.platform.Unpolled (some id)) (hid : id ∉ s.platform.taskIds) :
    Meets (discipline V) (WithinOuter V) (settleTask id o) (fun _ t => t.platform.Settled) s := by
  have hsettle : Dealing s.platform (s.platform.settle id o).2 := .settle o hid
  have hs : (s.platform.settle id o).2.Settled := by
    refine ⟨hq.repaid (.of_eq fun _ => context?_dealing hsettle) ?_, hu.settle o⟩
    obtain ⟨_, _, _, _, _, he⟩ := settle_eq s.platform id o
    rw [he]
  have tell (f : Flow κ Unit) (t : Stage κ) (ht : t.platform = (s.platform.settle id o).2)
      (hi : t.platform.Inv) (h : Tidy OnSound V f (fun _ _ => True) t) :
      Meets (discipline V) (WithinOuter V) f (fun _ u => u.platform.Settled) t := by
    refine (h.rounds hi).mono (fun _ _ => Rounds.outer) fun _ u ⟨hclean, _⟩ => ?_
    exact Settled.clean (ht ▸ hs) hclean
  unfold settleTask onPlatform
  rw [meets_bind, meets_onStage]
  refine ⟨hsettle.outer, fun hi₁ => tell _ _ rfl hi₁ ?_⟩
  split
  · exact .pure trivial
  · split
    · exact .pure trivial
    · exact .bind (route_tidy _ _) fun _ _ _ _ => .pure trivial
    · exact .step (.raise _ _)

/-- The end of a run (`finishRun`): it is good only if no error stopped the platform. -/
theorem finishRun_meets (reason : String) (h : s.platform.Calm)
    (hend : s.platform.fatal = none → s.platform.stopped = true ∨ s.platform.tasks = []) :
    Meets (discipline V) (WithinOuter V) (finishRun reason)
      (fun x t => givesOf V .run s.platform x t.platform) s := by
  unfold finishRun
  rw [meets_bind, meets_edit]
  refine ⟨(Step.publish rfl).nested.rounds.outer, fun _ => ?_⟩
  have h' : (s.platform.publish { kind := .platformStopped, reason := some reason }).Calm :=
    h.upkeep (.publish _ rfl)
  rw [meets_bind, meets_ask]
  split
  · exact ⟨h', fun hok => absurd hok (by simp)⟩
  · rename_i hfatal
    exact ⟨h', fun _ => hend hfatal⟩

/-- The end of a run that was interrupted (`Interrupt`): it leaves the platform stopped. -/
theorem interrupted_meets (reason : String) (h : s.platform.Settled) :
    Meets (discipline V) (WithinOuter V) (edit Platform.stop >>= fun _ => finishRun reason)
      (fun x t => givesOf V .run s.platform x t.platform) s := by
  have hstop : Clean V s.platform s.platform.stop := Step.stop.clean
  rw [meets_bind, meets_edit]
  refine ⟨hstop.nested.rounds.outer, fun _ => ?_⟩
  exact finishRun_meets reason ⟨h.clean hstop, Or.inl rfl⟩ fun _ => Or.inl rfl

/-- **The main loop** (`runLoop`) ends settled and drained, and comes to a good end only where no
task is left. -/
theorem runLoop_meets (hs : s.platform.Settled) : Meets (discipline V) (WithinOuter V) runLoop
    (fun x t => givesOf V .run s.platform x t.platform) s := by
  unfold runLoop
  refine (meets_bind _ _ _).mpr ((drain_meets hs).mono (fun _ _ => Rounds.outer) fun _ t ht => ?_)
  rw [meets_bind, meets_ask]
  dsimp only [id]
  refine meets_ite (fun hfatal => ?_) fun hfatal => meets_ite (fun hstopped => ?_) fun hstopped => ?_
  · exact finishRun_meets "fatal" ht fun h => absurd hfatal (by simp [h])
  · exact finishRun_meets "stopped" ht fun _ => Or.inl hstopped
  · have hdrained := ht.drained.resolve_left hstopped
    refine (meets_bind _ _ _).mpr ?_
    refine ⟨ht.settled, fun _ h => h, fun x u _ _ ⟨hquiet, hstill, hx⟩ => ?_⟩
    have hdrained' : u.platform.Drained := hdrained.still hstill
    cases x with
    | idle =>
      obtain ⟨hunpolled, htasks⟩ := hx
      exact finishRun_meets "idle" ⟨⟨hquiet, hunpolled⟩, Or.inr hdrained'⟩ fun _ => Or.inr htasks
    | interrupted i => exact interrupted_meets i.reason ⟨hquiet, hx⟩
    | finished id o =>
      obtain ⟨hunpolled, hid, -⟩ := hx
      refine (meets_bind _ _ _).mpr ?_
      refine (settleTask_meets o hquiet hunpolled hid).mono (fun _ _ h => h) fun _ v hv => ?_
      exact ⟨hv, fun _ h => h, fun _ _ _ _ hg => hg⟩

/-- **The discipline is kept** (`discipline`), whatever application code does. -/
theorem honours_discipline (hpub : code.Publishes V) : Honours (discipline V) (body code) := by
  intro c s hi hn
  cases c with
  | resume m base =>
    have hresumed := (runMachine_resumed hpub m base s).relax (K := OnSound) fun _ _ hon =>
      hon.sound hn
    by_cases h : base = 0 ∧ s.platform.Notifying m ∧
        s.platform.AwakeBut m.address (some m.generation)
    · obtain ⟨rfl, hnotify, hawake⟩ := h
      refine ((hresumed.and (runMachine_awake hpub hnotify hawake)) hi).mono (fun _ _ h => h)
        fun x t ⟨hclean, hresumed, ha⟩ => ?_
      exact ⟨hclean, hresumed, fun _ _ _ => ha⟩
    · refine (hresumed hi).mono (fun _ _ h => h) fun x t ⟨hclean, hresumed⟩ => ?_
      exact ⟨hclean, hresumed, fun hb hnotify ha => absurd ⟨hb, hnotify, ha⟩ h⟩
  | start a => exact (startActor_tidy hpub a s hi).mono (fun _ _ h => h) fun _ _ h => h.1
  | flush a => exact (flushBacklog_tidy hpub a s hi).mono (fun _ _ h => h) fun _ _ h => h.1
  | drain => exact drainQueues_meets code hi hn
  | await polled => exact awaitTask_meets code polled hi hn
  | run => exact runLoop_meets hn

end Flow

end Troupe
