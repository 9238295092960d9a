import Troupe.Proofs.Moments

/-!
# What the scheduler guarantees

Mail that an armed receiver waits for is attended to: at every moment a slot for it (`Work.mail`,
which `schedule_notify` schedules) is waiting or running. Between operations, no address waits for
its turn twice (`Platform.runQueue`), whoever is parked waits for a task (`Platform.waitQueue`), and
what is scheduled is scheduled for somebody who is alive; if the platform was not stopped, only
parked addresses have slots left, and no error waits for a verdict. A run that ends well has left
nothing to do at all.

All of it is read off what holds at every moment (`Platform.Inv`), of what operations settle
(`Platform.Settled`) and of what draining leaves behind (`Platform.Drained`).

Headlines:
* **`Moment.mail_attended`**: mail that a receiver waits for has a slot, and between operations
  there is none.
* **`Moment.queues_in_order`**: who waits for a turn, who is parked, and what is scheduled.
* **`Moment.idle_after_run`**: a run that ends well leaves nothing to do.
-/

namespace Troupe

variable {κ : App} {code : Code κ}

namespace Platform

variable {p : Platform κ} {a : Address}

/-- On a drained platform whoever has slots is parked (`Platform.waitQueue`). -/
theorem Inv.parked_of_drained (h : p.Inv) (hs : p.Settled) (hd : p.Drained)
    {slots : List (Slot κ)} (hp : p.pending.get? a = some slots) :
    a ∈ p.waitQueue ∧ p.isBlocked a = true := by
  have hwait : a ∈ p.waitQueue := by
    rcases h.queues.placed a slots hp with hrun | hwait | hrunning
    · rw [hd.runQueue] at hrun
      exact absurd hrun List.not_mem_nil
    · exact hwait
    · exact absurd (hrunning.symm.trans (hs.quiet.running a)) (by simp)
  exact ⟨hwait, h.queues.parked a hwait⟩

/-- Where nobody is blocked, nobody is parked and nothing is scheduled (`Platform.pendingSlots`). -/
theorem Inv.unscheduled (h : p.Inv) (hs : p.Settled) (hd : p.Drained)
    (hb : ∀ a, p.isBlocked a = false) : p.waitQueue = [] ∧ p.pendingSlots = 0 := by
  constructor
  · rw [List.eq_nil_iff_forall_not_mem]
    intro a ha
    exact absurd ((h.queues.parked a ha).symm.trans (hb a)) (by simp)
  · have hnone : p.pending.isEmpty = true := by
      rw [Table.isEmpty_iff]
      intro a
      cases hp : p.pending.get? a with
      | none => rfl
      | some slots =>
        obtain ⟨-, hblocked⟩ := h.parked_of_drained hs hd hp
        exact absurd (hblocked.symm.trans (hb a)) (by simp)
    have hentries : p.pending.entries = [] := List.isEmpty_iff.mp hnone
    unfold pendingSlots
    rw [hentries]
    rfl

/-- On a drained platform (`Platform.Drained`), mail and a receiver are both there only while their
owner is blocked. -/
theorem Inv.blocked_of_mail (h : p.Inv) (hs : p.Settled) (hd : p.Drained) {c : Context κ}
    (hc : p.context? a = some c) (hm : c.hasMail = true) (hr : c.receivers ≠ []) :
    p.isBlocked a = true := by
  obtain ⟨slots, hp, -⟩ := h.awake_of_quiet hs.quiet a c hc (by simp) hm hr
  exact (h.parked_of_drained hs hd hp).2

theorem mailbox_of_not_hasMail {c : Context κ} (hb : c.mailbox.isSome = true)
    (hm : ¬ c.hasMail = true) : c.mailbox = some [] := by
  obtain ⟨box, hbox⟩ := Option.isSome_iff_exists.mp hb
  unfold Context.hasMail at hm
  rw [hbox, Option.any_some] at hm
  cases box with
  | nil => exact hbox
  | cons env box => exact absurd rfl hm

end Platform

namespace Moment

open Platform Troupe.Flow

variable {m : Moment κ} {s t : Stage κ}

/-! ## Mail -/

/-- **Mail is attended to.** At every moment a slot for mail that a receiver waits for (`Work.mail`)
is waiting or running, for the incarnation whose mail it is; and when an operation has returned and
the platform goes on, a buffered actor that is not blocked has no mail or no receiver. -/
theorem mail_attended (h : Reach code m) :
    (∀ a c, m.stage.platform.context? a = some c → c.hasMail = true → c.receivers ≠ [] →
      (∃ slots, m.stage.platform.pending.get? a = some slots ∧
        ∃ slot ∈ slots, slot.generation = c.generation ∧ slot.work.isMail = true) ∨
      ∃ slot, m.stage.platform.running.get? a = some slot ∧
        slot.generation = c.generation ∧ slot.work.isMail = true) ∧
    (∀ s, m = .between s → s.platform.stopped = false →
      ∀ a c, s.platform.context? a = some c → c.flags.buffered = true →
        s.platform.isBlocked a = false → c.mailbox = some [] ∨ c.receivers = []) := by
  have hinv := h.ok.inv
  constructor
  · intro a c hc hm hr
    by_cases hattended : some c.generation = m.stage.platform.attended a
    · obtain ⟨slot, hrunning, hslot⟩ := Option.bind_eq_some_iff.mp hattended.symm
      refine Or.inr ⟨slot, hrunning, ?_⟩
      unfold excused at hslot
      split at hslot
      · rename_i hmail
        exact ⟨Option.some.inj hslot, hmail⟩
      · exact absurd hslot (by simp)
    · exact Or.inl (hinv.awake a c hc hattended hm hr)
  · rintro s rfl hgoes a c hc hbuffered hfree
    obtain ⟨-, hcalm⟩ := h.ok
    have hdrained : s.platform.Drained := hcalm.drained.resolve_left (by simp [hgoes])
    by_cases hr : c.receivers = []
    · exact Or.inr hr
    · refine Or.inl (mailbox_of_not_hasMail ?_ fun hm => ?_)
      · rw [hinv.table.boxed a c hc]
        exact hbuffered
      · have hblocked := hinv.blocked_of_mail hcalm.settled hdrained hc hm hr
        exact absurd (hblocked.symm.trans hfree) (by simp)

/-- The sample application, with actors that receive all their mail (`Behaviour.immutable`). -/
def attentive : Code App.sample :=
  { Code.sample with
    init := fun _ w => (.immutable (.any "mail"), w)
    hook := fun _ _ _ => .done (.ok ()) }

/-- The platform after an actor that receives its mail was spawned there (`attentive`). -/
def heeded : Stage App.sample :=
  sample.afterwards attentive (Operation.spawn attentive .sample)

/-- The actor is told something, and this is the moment after so many steps. -/
def attending (n : Nat) : Moment App.sample :=
  let f : Flow App.sample Bool := Operation.tell .sample .null
  amid (after (body attentive) n (f, heeded)).1 (after (body attentive) n (f, heeded)).2

theorem reach_heeded : Reach attentive (between heeded) := by
  have hsample : Reach attentive (between sample) := ⟨{}, none, [], (), .refl⟩
  exact hsample.perform 20 (.spawn .sample) rfl

theorem reach_attending (n : Nat) : Reach attentive (attending n) :=
  reach_heeded.later (.head (.begin (.tell .sample .null)) (Later.advances
    (advances_after _ n ((Operation.tell .sample .null : Flow App.sample Bool), heeded))))

/-- A message has come, and the receiver is armed: so a slot for it is waiting (`attending`), and
runs four steps later. When the operation has returned, the receiver is armed still and the mailbox
is empty. -/
theorem mail_received : ∃ t : Stage App.sample,
    ((attending 8).stage.platform.mailboxLength? .sample = some 1 ∧
      ∃ slot, (attending 8).stage.platform.pending.get? .sample = some [slot] ∧
        slot.work.isMail = true) ∧
    ((attending 12).stage.platform.mailboxLength? .sample = some 1 ∧
      ∃ slot, (attending 12).stage.platform.running.get? .sample = some slot ∧
        slot.work.isMail = true) ∧
    perform (body attentive) 20 (Operation.tell .sample .null) heeded = some (true, t) ∧
    t.platform.stopped = false ∧
    ∃ c, t.platform.context? .sample = some c ∧ c.receivers ≠ [] ∧ c.mailbox = some [] := by
  have hreach := reach_heeded.perform 20 (.tell .sample .null) rfl
  obtain ⟨hwaits, -⟩ := mail_attended (reach_attending 8)
  obtain ⟨hruns, -⟩ := mail_attended (reach_attending 12)
  obtain ⟨-, hdone⟩ := mail_attended hreach
  refine ⟨_, ⟨rfl, ?_⟩, ⟨rfl, ?_⟩, rfl, rfl, _, rfl, nofun, ?_⟩
  · rcases hwaits .sample _ rfl rfl nofun with ⟨slots, hslots, slot, hslot, -, hmail⟩ | ⟨_, hrun, -⟩
    · obtain rfl := Option.some.inj hslots
      obtain rfl := List.mem_singleton.mp hslot
      exact ⟨_, rfl, hmail⟩
    · exact nomatch hrun
  · rcases hruns .sample _ rfl rfl nofun with ⟨_, hslots, -⟩ | ⟨slot, hrun, -, hmail⟩
    · exact nomatch hslots
    · exact ⟨slot, hrun, hmail⟩
  · exact (hdone _ rfl rfl .sample _ rfl rfl rfl).resolve_right nofun

/-! ## Queues -/

/-- **The queues are in order** between operations: no address stands in them twice, `queued` holds
just those that do, whoever is parked is blocked, and what is scheduled is scheduled for the
incarnation that lives there and has its place in a queue. If the platform goes on, nobody waits for
a turn and no error for a verdict, so what is scheduled is parked. -/
theorem queues_in_order (h : Reach code (between s)) :
    (s.platform.runQueue.Nodup ∧ s.platform.waitQueue.Nodup ∧
      ∀ a ∈ s.platform.runQueue, a ∉ s.platform.waitQueue) ∧
    (∀ a, s.platform.queued.contains a = true ↔
      a ∈ s.platform.runQueue ∨ a ∈ s.platform.waitQueue) ∧
    (∀ a ∈ s.platform.waitQueue, s.platform.isBlocked a = true) ∧
    (∀ a slots, s.platform.pending.get? a = some slots → slots ≠ [] ∧
      (∀ slot ∈ slots, ∃ c, s.platform.context? a = some c ∧ c.generation = slot.generation) ∧
      (a ∈ s.platform.runQueue ∨ a ∈ s.platform.waitQueue)) ∧
    (s.platform.stopped = false → s.platform.runQueue = [] ∧ s.platform.raised = [] ∧
      ∀ a slots, s.platform.pending.get? a = some slots →
        a ∈ s.platform.waitQueue ∧ s.platform.isBlocked a = true) := by
  obtain ⟨hinv, hcalm⟩ := h.ok
  have hq := hinv.queues
  refine ⟨⟨hq.lined.run_nodup, hq.lined.wait_nodup, hq.lined.apart⟩, hq.lined.queued, hq.parked,
    fun a slots hp => ⟨hq.filled a slots hp, fun slot hslot => ?_, ?_⟩, fun hgoes => ?_⟩
  · exact isCurrent_iff.mp (hq.current a slots hp slot hslot)
  · rcases hq.placed a slots hp with hrun | hwait | hrunning
    · exact Or.inl hrun
    · exact Or.inr hwait
    · exact absurd (hrunning.symm.trans (hcalm.settled.quiet.running a)) (by simp)
  · have hdrained : s.platform.Drained := hcalm.drained.resolve_left (by simp [hgoes])
    exact ⟨hdrained.runQueue, hdrained.raised, fun a slots => hinv.parked_of_drained hcalm.settled
      hdrained⟩

/-- A script that is scheduled for a blocked actor is parked (`Platform.waitQueue`). -/
theorem queues_parked : ∃ s : Stage App.sample, Reach Code.sample (between s) ∧
    s.platform.pendingSlots = 1 ∧ s.platform.waitQueue = [.sample] ∧
      s.platform.isBlocked .sample = true := by
  have hspawned := reach_sample.perform 8 (.spawn .sample) rfl
  have hreach := hspawned.perform 8 (.exec .sample .notify) rfl
  exact ⟨_, hreach, rfl, rfl, (queues_in_order hreach).2.2.1 _ (by decide)⟩

/-! ## Idleness -/

/-- **Idle means idle.** If the main loop returns without an error (`Operation.run`) and the
platform was not stopped, no task is unfinished, nothing is scheduled, nobody is blocked and no
error waits for a verdict. -/
theorem idle_after_run (h : Reach code (between s)) (depth : Nat)
    (hrun : perform (body code) depth Operation.run s = some (.ok (), t))
    (hgoes : t.platform.stopped = false) :
    t.platform.pendingTasks = 0 ∧ t.platform.pendingSlots = 0 ∧
      (∀ a, t.platform.isBlocked a = false) ∧ t.platform.waitQueue = [] ∧
      t.platform.runQueue = [] ∧ t.platform.raised = [] := by
  obtain ⟨hinv, hcalm⟩ := (h.perform depth .run hrun).ok
  have hdrained : t.platform.Drained := hcalm.drained.resolve_left (by simp [hgoes])
  have htasks : t.platform.tasks = [] := (h.ran hrun).resolve_left (by simp [hgoes])
  have hfree := not_isBlocked_of_tasks hinv.tasks hcalm.settled.unpolled htasks
  obtain ⟨hwait, hslots⟩ := hinv.unscheduled hcalm.settled hdrained hfree
  refine ⟨?_, hslots, hfree, hwait, hdrained.runQueue, hdrained.raised⟩
  unfold pendingTasks
  rw [htasks]
  rfl

/-- A task that was run is waited for, and its owner is free again (`Platform.isBlocked`). -/
theorem idle_after_task : ∃ s t : Stage App.sample, Reach Code.sample (between s) ∧
    s.platform.isBlocked .sample = true ∧ s.platform.pendingSlots = 1 ∧
      perform (body Code.sample) 8 Operation.run s = some (.ok (), t) ∧
        t.platform.isBlocked .sample = false ∧ t.platform.pendingSlots = 0 := by
  have hspawned := reach_sample.perform 8 (.spawn .sample) rfl
  have hreach := hspawned.perform 8 (.exec .sample .notify) rfl
  obtain ⟨-, hslots, hfree, -⟩ := idle_after_run hreach 8 rfl rfl
  exact ⟨_, _, hreach, rfl, rfl, rfl, hfree _, hslots⟩

end Moment

end Troupe
