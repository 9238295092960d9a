import Troupe.Proofs.Operations
import Troupe.Proofs.Watch.Requests

/-!
# Activities and operations keep track

Every body keeps a track, if hooks and foreign functions do (`Upheld`), and so does every operation
of a platform.

Activities that had an actor at hand leave its backlog to be looked after, and go on to do that:
after a start (`startActor_leads`), a slot (`runSlot_leads`) or a message that an actor took, its
backlog is flushed (`flushBacklog_leads`), and a message that is put into a backlog is followed by a
flush. So whenever a call ends, idle actors have no backlog (`FlushedBut`).

Headlines:
* **`Flow.runMachine_leads`**, **`Flow.drainQueues_leads`**: scripts, and draining.
* **`Flow.body_heeds`**: every body keeps track.
* **`Operation.Public.leads`**: so does every operation.
-/

namespace Troupe

variable {κ : App} {α : Type} {code : Code κ} {V : Event → Prop} {T : Track code V} {s : Stage κ}

open Platform

namespace Flow

variable {a : Address} {m m' : Machine κ} {base : Nat}

/-! ## Scripts -/

theorem leaveFrame_leads (hm : s.platform.Held m) :
    Leads T {} {} (leaveFrame m base) (fun x _ => m.Kin x.2) s := by
  have hkin : m.Kin (m.leave base).2 := m.leave_kin base
  by_cases hlast : m.depth = base + 1
  · rw [leaveFrame_last hlast]
    exact .pure hkin
  · rw [leaveFrame_caller hlast]
    exact (Leads.resume (hm.kin hkin)).mono fun _ _ hr => hkin.trans hr

theorem failScript_leads (m : Machine κ) (base : Nat) (e : ActorError) :
    Leads T {} {} (failScript m base e) (fun x _ => m.Kin x.2) s :=
  .bind (.aloof (.raise _ _ e)) fun _ _ _ _ => .pure (m.unwind_spares base).toKin

theorem goOn_leads (met : Met κ) (hm : s.platform.Held m) :
    Leads T {} {} (goOn m base met) (fun x _ => m.Kin x.2) s := by
  cases met with
  | push v =>
    rw [goOn]
    split
    · rename_i m' hpush
      have hkin : m.Kin m' := (Machine.pushValue_atop hpush).toKin
      exact (Leads.resume (hm.kin hkin)).mono fun _ _ hr => hkin.trans hr
    · exact failScript_leads m base _
  | nothing => exact .resume hm
  | halt => exact .pure (m.unwind_spares base).toKin
  | failed e => exact failScript_leads m base e

/-- An instruction is carried out (`Flow.carryOut`), and the script goes on. -/
theorem carryOut_leads (hup : Upheld T) (i : Instr) (hne : m.frames ≠ [])
    (hm : s.platform.Held m) (hcur : s.platform.isCurrent m.address m.generation = true) :
    Leads T {} {} (carryOut code m base i) (fun x _ => m.Kin x.2) s := by
  unfold carryOut
  split
  · exact failScript_leads m base _
  · rename_i n hstep
    have hkin : m.Kin n := (Machine.step_atop hne hstep).toKin
    exact (Leads.resume (hm.kin hkin)).mono fun _ _ hr => hkin.trans hr
  · rename_i d n hstep
    have hkin : m.Kin n := (Machine.step_atop hne hstep).toKin
    have hcur' : s.platform.isCurrent n.address n.generation = true := by
      rw [hkin.address, hkin.generation]
      exact hcur
    refine .bind (meet_leads hup d (hm.kin hkin) hcur') fun ⟨met, k⟩ t hlater hk => ?_
    have hheld : t.platform.Held k := ((hm.kin hkin).kept hlater.lent).kin hk
    exact (goOn_leads met hheld).mono fun _ _ hr => hkin.trans (hk.trans hr)

/-- **A script** keeps track (`Flow.runMachine`). -/
theorem runMachine_leads (hup : Upheld T) (hm : s.platform.Held m) :
    Leads T {} {} (runMachine code m base) (fun x _ => m.Kin x.2) s := by
  unfold runMachine
  refine .ask ?_
  dsimp only [id]
  split
  · exact .pure (.refl m)
  · split
    · exact .pure (m.unwind_spares base).toKin
    · rename_i hcur
      rw [Bool.not_eq_true, Bool.not_eq_false'] at hcur
      split
      · exact leaveFrame_leads hm
      · rename_i i n hfetch
        have hatop := Machine.fetch_atop hfetch
        have hkin : m.Kin n := hatop.toKin
        have hlog : Leads T {} {} (when s.platform.config.logOps (edit (·.publish
            { kind := .opExecuted, address := some n.address, op := some i.name })))
            (fun _ t => t.platform.isCurrent m.address m.generation = true) s := by
          unfold when
          split
          · exact .edit (.beside (Aloof.publish _ (Or.inl rfl)).toBeside (T.same_refl _))
              (.of_eq (Nat.le_refl _) fun _ => rfl) (fun h => h.of_eq fun _ => rfl) hcur
          · exact .done hcur
        refine .bind hlog fun _ t hlater ht => ?_
        have hheld : t.platform.Held n := (hm.kept hlater.lent).kin hkin
        split
        · exact (leaveFrame_leads hheld).mono fun _ _ hr => hkin.trans hr
        · rw [← hkin.address, ← hkin.generation] at ht
          exact (carryOut_leads hup i hatop.ne_nil hheld ht).mono fun _ _ hr => hkin.trans hr

/-! ## Actors -/

theorem startActor_leads (hup : Upheld T) (a : Address) (s : Stage κ) :
    Leads T {} {} (startActor code a) (fun _ _ => True) s := by
  unfold startActor
  refine .ask ?_
  split
  · exact .pure trivial
  · refine .bind (.aloof (.publish _ (Or.inl rfl))) fun _ t _ _ => ?_
    refine .bind (actAt_leads hup a t) fun x u _ _ => ?_
    refine .bind (.invoke trivial) fun _ v _ _ => ?_
    split
    · exact .bind (.aloof (.raise _ a _)) fun _ _ _ _ => .pure trivial
    · exact .pure trivial

/-- **A backlog** is given to its actor (`Flow.flushBacklog`), one message after the other. -/
theorem flushBacklog_leads (hup : Upheld T) (a : Address) (s : Stage κ) :
    Leads T (poseOf (.flush a)) {} (flushBacklog code a) (fun _ _ => True) s := by
  unfold flushBacklog
  refine .ask ?_
  dsimp only [id]
  split
  · rename_i hnone
    refine fun h hfit => ⟨⟨hfit.inv, hfit.holds, fun b c _ hc hidle => ?_⟩, .refl T s, trivial⟩
    by_cases hb : b = a
    · subst hb
      exact takeBacklog_none hnone hc hidle
    · exact hfit.flushed b c (fun he => hb (Option.some.inj he)) hc hidle
  · rename_i env p htake
    obtain ⟨c, rest, hc, hidle, -, rfl⟩ := takeBacklog_some htake
    have htaken : Leads T { behind := some a }
        { due := some (.hook a c.generation (.accept env)), behind := some a }
        (edit fun _ => s.platform.modifyContext a fun c => { c with backlog := rest })
        (fun _ t => t.platform.context? a = some { c with backlog := rest }) s := by
      refine .edit (.takeBacklog hc htake) (.modifyContext fun _ _ => ⟨⟨rfl, rfl⟩, id, id⟩)
        (fun h => h.at _) ?_
      dsimp only [Stage.edit]
      rw [context?_modifyContext, if_pos rfl, hc]
      rfl
    refine .bind htaken fun _ t _ ht => ?_
    refine .bind (actAt_leads_of (c := { c with backlog := rest }) hup ht hidle) fun x u _ _ => ?_
    rcases x with _ | e | _
    · exact .invoke trivial
    · exact .bind (.aloof (.raise _ a _)) fun _ _ _ _ => .invoke trivial
    · exact .invoke trivial

/-! ## Supervision -/

theorem restart_leads (code : Code κ) {T : Track code V} (r : Raised κ) (s : Stage κ) :
    Leads T {} {} (restart code r) (fun _ _ => True) s := by
  unfold restart
  refine .ask ?_
  dsimp only [id]
  split
  · exact .pure trivial
  · rename_i template _
    refine .bind (terminate_leads code r.source s) fun _ t _ _ => ?_
    refine .bind (allocate_leads code r.source.parent template t) fun x u _ _ => ?_
    split
    · exact .pure trivial
    · refine .bind (.aloof (.publish _ (Or.inl rfl))) fun _ v _ _ => ?_
      exact .bind (startTree_leads _ v) fun _ _ _ _ => .pure trivial

theorem supervise_leads (code : Code κ) {T : Track code V} (r : Raised κ) (s : Stage κ) :
    Leads T {} {} (supervise code r) (fun _ _ => True) s := by
  unfold supervise
  have hjudge : Leads T {} {} (onStage (Stage.judge code r r.source.ancestry))
      (fun _ _ => True) s := by
    obtain ⟨haloof, hsame⟩ := judge_aloof (V := V) T.same_refl T.same_trans T.judge r
      r.source.ancestry s
    exact .onStage (.beside haloof.toBeside hsame) haloof.kept (fun h => h.aloof haloof) trivial
  refine .bind hjudge fun x t _ _ => ?_
  split
  · exact .pure trivial
  · exact restart_leads code r t
  · exact terminate_leads code r.source t
  · exact .aloof (.of_contexts (fun _ => rfl) rfl (.publish _ (Or.inl rfl)))

/-! ## Slots -/

theorem runSlot_leads (a : Address) (slot : Slot κ) (s : Stage κ) :
    Leads T {} {} (runSlot a slot) (fun _ _ => True) s := by
  unfold runSlot
  refine .ask ?_
  split
  · exact .pure trivial
  · refine .letOff a (.borrow (fun _ => ?_) (fun c m _ _ _ _ hm => exec_leads _ hm) fun y u => ?_)
    · exact .bind (.aloof (.of_contexts (fun _ => rfl) rfl (.refl _))) fun _ _ _ _ => .pure trivial
    · exact .bind (.invoke (c := .flush a) trivial) fun _ _ _ _ => .pure trivial

/-- **Draining** keeps track (`Flow.drainQueues`). -/
theorem drainQueues_leads (code : Code κ) {T : Track code V} (s : Stage κ) :
    Leads T {} {} (drainQueues code) (fun _ _ => True) s := by
  have again (t : Stage κ) : Leads T {} {} (invoke .drain) (fun _ _ => True) t :=
    .invoke (c := .drain) trivial
  unfold drainQueues
  refine .ask ?_
  dsimp only [id]
  split
  · exact .pure trivial
  · split
    · rename_i r rest _
      refine .bind (.aloof (.of_contexts (fun _ => rfl) rfl (.refl _))) fun _ t _ _ => ?_
      exact .bind (supervise_leads code r t) fun _ u _ _ => again u
    · split
      · exact .pure trivial
      · rename_i q hskip
        have hq : Aloof V s.platform q := by
          obtain ⟨_, _, _, ⟨-, rfl⟩ | ⟨-, rfl⟩⟩ := turn_skipped hskip
          · exact .of_contexts (fun _ => rfl) rfl (.refl _)
          · exact .of_contexts (fun _ => rfl) rfl (.refl _)
        exact .bind (.aloof hq) fun _ t _ _ => again t
      · rename_i a slot q hslot
        have hq : Aloof V s.platform q := by
          obtain ⟨_, _, -, -, -, rfl⟩ := turn_slot hslot
          exact .of_contexts (fun _ => rfl) rfl (.refl _)
        refine .bind (.aloof hq) fun _ t _ _ => ?_
        refine .bind (runSlot_leads a slot t) fun deferred u _ _ => ?_
        exact .bind (.aloof (.endTurn _ a deferred)) fun _ v _ _ => again v

/-! ## Tasks and the main loop -/

theorem pause_aloof (s : Stage κ) : Aloof V s.platform s.pause.platform := by
  unfold Stage.pause Stage.listen
  split
  · exact .refl _
  · rename_i l _
    exact .of_contexts (fun _ => rfl) rfl
      ((l.pause_grown _).mono fun _ he => Or.inl (Event.isAside_of_isReport he))

theorem pause_world (s : Stage κ) : s.pause.world = s.world := by
  unfold Stage.pause Stage.listen
  split
  · rfl
  · rfl

theorem awaitTask_leads (code : Code κ) {T : Track code V} (polled : Nat) (s : Stage κ) :
    Leads T {} {} (awaitTask code polled) (fun _ _ => True) s := by
  unfold awaitTask
  refine .see ?_
  split
  · exact .pure trivial
  · rename_i id task rest _
    split
    · exact .pure trivial
    refine .bind (.modify (.refl _) (T.poll task s.world)) fun _ t _ _ => ?_
    split
    · exact .bind (.aloof (.of_contexts (fun _ => rfl) rfl (.refl _))) fun _ _ _ _ => .pure trivial
    · refine .bind (.aloof (.of_contexts (fun _ => rfl) rfl (.refl _))) fun _ u _ _ => ?_
      refine .ite (fun _ => ?_) fun _ => .invoke (c := .await _) trivial
      · have hpause : Leads T {} {} (modify Stage.pause) (fun _ _ => True) u :=
          (Leads.modify (pause_aloof u) (pause_world u ▸ T.same_refl _)).mono fun _ _ _ => trivial
        exact .bind hpause fun _ v _ _ => .invoke (c := .await 0) trivial

theorem settleTask_leads (id : Nat) (o : Outcome) (s : Stage κ) :
    Leads T {} {} (settleTask id o) (fun _ _ => True) s := by
  unfold settleTask
  refine .bind (.onPlatform (.settle _ id o)) fun x t _ _ => ?_
  split
  · exact .pure trivial
  · split
    · exact .pure trivial
    · exact .bind (route_leads _ t) fun _ _ _ _ => .pure trivial
    · exact .aloof (.raise _ _ _)

theorem finishRun_leads (reason : String) (s : Stage κ) :
    Leads T {} {} (finishRun reason) (fun _ _ => True) s := by
  unfold finishRun
  refine .bind (.aloof (.publish _ (Or.inl rfl))) fun _ t _ _ => .ask ?_
  split
  · exact .pure trivial
  · exact .pure trivial

theorem runLoop_leads (s : Stage κ) : Leads T {} {} runLoop (fun _ _ => True) s := by
  unfold runLoop
  refine .bind (.invoke (c := .drain) trivial) fun _ t _ _ => .ask ?_
  dsimp only [id]
  split
  · exact finishRun_leads _ t
  · split
    · exact finishRun_leads _ t
    · refine .bind (.invoke (c := .await 0) trivial) fun x u _ _ => ?_
      split
      · exact finishRun_leads _ u
      · refine .bind (.aloof (.of_contexts (fun _ => rfl) rfl (.refl _))) fun _ v _ _ => ?_
        exact finishRun_leads _ v
      · exact .bind (settleTask_leads _ _ u) fun _ v _ _ => .invoke (c := .run) trivial

/-- **Every body** keeps track (`Flow.body`). -/
theorem body_heeds (hup : Upheld T) : Heeds T (body code) := by
  intro c s hr
  cases c with
  | resume m base => exact (runMachine_leads hup hr).mono fun _ _ _ => trivial
  | start a => exact startActor_leads hup a s
  | flush a => exact flushBacklog_leads hup a s
  | drain => exact drainQueues_leads code s
  | await polled => exact awaitTask_leads code polled s
  | run => exact runLoop_leads s

end Flow

/-! ## Operations -/

namespace Operation

open Troupe.Flow

theorem thenDrain_leads {P : Pose κ} {f : Flow κ α} (hf : Leads T P {} f (fun _ _ => True) s) :
    Leads T P {} (thenDrain f) (fun _ _ => True) s :=
  .bind hf fun _ _ _ _ => .bind (.invoke (c := .drain) trivial) fun _ _ _ _ => .pure trivial

theorem spawnUnder_leads (parent : Address) (t : Template κ) :
    Leads T {} {} (spawnUnder code parent t) (fun _ _ => True) s := by
  unfold spawnUnder
  refine .bind (allocate_leads code parent t s) fun x u _ _ => ?_
  split
  · exact .pure trivial
  · refine thenDrain_leads (.bind (startTree_leads _ u) fun x v _ _ => ?_)
    split
    · exact .pure trivial
    · exact .pure trivial

theorem exec_leads (a : Address) (script : Script κ) :
    Leads T {} {} (exec a script) (fun _ _ => True) s := by
  unfold exec
  refine .ask ?_
  split
  · exact .pure trivial
  · exact thenDrain_leads (.bind (.aloof (.schedule _ a _ _)) fun _ _ _ _ => .pure trivial)

/-- Draining (`Operation.thenDrain`) comes after what is done once a machine has been put back. -/
theorem thenDrain_borrow {β : Type} (f : Flow κ (β × Machine κ))
    (k : β × Machine κ → Flow κ α) :
    thenDrain (f >>= fun y => checkIn y.2 >>= fun _ => k y) =
      f >>= fun y => checkIn y.2 >>= fun _ => thenDrain (k y) :=
  bind_bind f _ _

/-- A script that is run past the queues (`Operation.eval`) looks after the backlog of its actor. -/
theorem eval_leads (a : Address) (script : Script κ) :
    Leads T {} {} (eval a script) (fun _ _ => True) s := by
  unfold eval
  refine .ask ?_
  split
  · exact .pure trivial
  · simp only [thenDrain_borrow]
    refine .letOff a (.borrow (fun _ => .pure trivial)
      (fun c m _ _ _ _ hm => Flow.exec_leads script hm) fun y u => ?_)
    exact thenDrain_leads (.bind (.invoke (c := .flush a) trivial) fun _ _ _ _ => .pure trivial)

theorem tellFrom_leads (target source : Address) (message : Message) :
    Leads T {} {} (tellFrom target source message) (fun _ _ => True) s := by
  refine thenDrain_leads (.bind (route_leads ⟨target, source, message⟩ s) fun sent t _ _ => ?_)
  exact .bind (.when (.aloof (.drop _ _))) fun _ _ _ _ => .pure trivial

/-- **Operations** keep track (`Operation.Public`). -/
theorem Public.leads {f : Flow κ α} (hf : Public code f) (hpub : Publishes V f) :
    Leads T {} {} f (fun _ _ => True) s := by
  cases hf
  case spawn t => exact spawnUnder_leads .root t
  case spawnUnder parent t => exact spawnUnder_leads parent t
  case allocate parent t => exact allocate_leads code parent t s
  case runActor a => exact thenDrain_leads (.invoke (c := .start a) trivial)
  case exec a script => exact exec_leads a script
  case eval a script => exact eval_leads a script
  case send target source message => exact thenDrain_leads (route_leads _ s)
  case tellFrom target source message => exact tellFrom_leads target source message
  case tell target message => exact tellFrom_leads target .discard message
  case broadcastFrom group source message =>
    exact thenDrain_leads (routeToMembers_leads group source message s)
  case broadcast group message =>
    exact thenDrain_leads (routeToMembers_leads group .discard message s)
  case dropMessage env => exact .aloof (.drop _ env)
  case kill target => exact thenDrain_leads (terminate_leads code target s)
  case raise a e => exact thenDrain_leads (.aloof (.raise _ a e))
  case putRoute target router => exact .aloof (.putRoute _ target router)
  case removeRoute target => exact .aloof (.removeRoute _ target)
  case putMember group a => exact .onPlatform (.join _ group a)
  case removeMember group a => exact .onPlatform (.part _ group a)
  case trigger e => exact .aloof (.publish _ (Or.inr (hpub e _ rfl)))
  case stop => exact .aloof (.of_contexts (fun _ => rfl) rfl (.refl _))
  case run => exact .invoke (c := .run) trivial

end Operation

end Troupe
