import Troupe.Proofs.Guarantee.Scheduling
import Troupe.Proofs.Watch.Roster

/-!
# Slots run in order

Slots wait at their address (`Platform.slotsOf`), the address waits for its turn
(`Platform.runQueue`, the source's `run_q`) or for a task (`Platform.waitQueue`), and meanwhile more
slots are scheduled (`schedule`), incarnations go and others come. Through all of this the slots of
an incarnation run in the order in which they were scheduled, each once at most, one slot at a time
on the whole platform (`Platform.running`).

When a slot begins is said by `Moment.Begins`. What has been scheduled and what has begun are read
off the past; a slot of an incarnation that has gone is taken and not run (`Flow.runSlot`,
`run_slot`).

Headline:
* **`Moment.slots_in_order`**: what has begun is the first part of what was scheduled, a slot begins
  only while none is running and its incarnation is alive and free, and what is scheduled for
  whoever stays so has been run when an operation returns.
-/

namespace Troupe

variable {κ : App}

open Platform Troupe.Flow

/-- Nothing waits at an address that is not blocked once the platform is drained
(`Platform.Drained`). -/
theorem Platform.Inv.slotsOf_drained {p : Platform κ} {a : Address} (h : p.Inv) (hs : p.Settled)
    (hd : p.Drained) (hb : p.isBlocked a = false) (g : Nat) : p.slotsOf a g = [] := by
  unfold slotsOf
  cases hp : p.pending.get? a with
  | none => rfl
  | some slots =>
    obtain ⟨-, hblocked⟩ := h.parked_of_drained hs hd hp
    exact absurd (hblocked.symm.trans hb) (by simp)

namespace Moment

variable {code : Code κ} {V : Event → Prop} {start : κ.World → Prop}
  {mean : Stage κ → Stage κ → Prop} {m m' : Moment κ} {h : List (Stage κ)} {a : Address}
  {slot : Slot κ}

/-- From one moment to the next (`Moment.Next`) a slot begins. -/
structure Begins (code : Code κ) (m m' : Moment κ) (a : Address) (slot : Slot κ) : Prop where
  /-- No slot is running. -/
  alone : ∀ b, m.stage.platform.running.get? b = none
  /-- It is the oldest one of its address. -/
  oldest : ∃ rest, m.stage.platform.pending.get? a = some (slot :: rest)
  /-- Its incarnation is alive. -/
  alive : m.stage.platform.isCurrent a slot.generation = true
  /-- Its address waits for no task. -/
  free : m.stage.platform.isBlocked a = false
  /-- The machine is at hand. -/
  ready : ∃ c, m'.stage.platform.context? a = some c ∧ c.generation = slot.generation ∧
    c.machine.isSome = true
  /-- The slot is run at once, and then its turn ends. -/
  runs : ∃ (α : Type) (next : Unit → Flow κ α), m' = amid ((runSlot a slot).bind fun deferred =>
    (edit (·.endTurn a deferred)).bind next) m'.stage
  /-- Until then it is running. -/
  held : ∀ y, Advances (body code) (runSlot a slot, m'.stage) y →
    y.2.platform.running.get? a = some slot
  /-- It is not put back. -/
  once : ∀ deferred t, Advances (body code) (runSlot a slot, m'.stage) (.done deferred, t) →
    deferred = false

/-- A slot that is launched (`Moment.Launch`) begins as it should. -/
theorem Launch.begins (hl : m.Launch m' a slot) (hi : m.stage.platform.Inv) :
    Begins code m m' a slot := by
  obtain ⟨α, f, hm', hstart⟩ := hl
  obtain ⟨next, rfl⟩ := hstart.runs
  obtain ⟨_, rest, -, hfree, hslots, hturned⟩ := turn_slot hstart.turn
  have hquiet (b : Address) : m.stage.platform.running.get? b = none := by
    simpa using hstart.alone b
  have halive := hi.queues.current a _ hslots slot List.mem_cons_self
  have hbegin : Turning m.stage.platform m'.stage.platform := .begin (hstart.alone a) hstart.turn
  have hi' : m'.stage.platform.Inv := hi.turning hbegin
  have hrun : m'.stage.platform.running.get? a = some slot := by
    rw [hturned, Table.get?_insert, if_pos rfl]
  -- the work of a slot, and what comes of it
  have hmeets := runSlot_meets (V := Event.Any) hi' hstart.ready
    (.begin hstart.turn (hi.awake_of_idle (hstart.alone a)))
  have hnested {y : Flow κ Bool × Stage κ}
      (hy : Advances (body code) (runSlot a slot, m'.stage) y) :=
    hy.nested code.publishes_any hi' hrun hmeets
  refine ⟨hquiet, ⟨rest, hslots⟩, halive, hfree, ?_, ⟨α, next, hm'⟩,
    fun y hy => (hnested hy).1.running ▸ hrun, fun _ _ hy => (hnested hy).2.1⟩
  obtain ⟨c, hc, hg⟩ := isCurrent_iff.mp halive
  have hc' : m'.stage.platform.context? a = some c := (context?_turning hbegin).trans hc
  refine ⟨c, hc', hg, ?_⟩
  rw [← Option.ne_none_iff_isSome]
  exact fun hnone => hstart.ready c.generation ⟨c, hc', rfl, hnone⟩

/-- A slot that is running and was not before (`Platform.running`) has been launched. -/
theorem Reach.launch (hr : Reach code m) (hnext : Next code m m')
    (hbefore : m.stage.platform.running.get? a = none)
    (hafter : m'.stage.platform.running.get? a = some slot) : m.Launch m' a slot := by
  rcases hr.stride hnext with hj | ⟨b, slot', hl⟩
  · exact absurd (hbefore.symm.trans (hj.running a slot hafter)) (by simp)
  · obtain ⟨_, _, _, hstart⟩ := id hl
    obtain ⟨_, _, -, -, -, hrun⟩ := turn_slot hstart.turn
    rw [hrun] at hafter
    rcases Table.get?_insert_eq_some.mp hafter with ⟨rfl, rfl⟩ | ⟨-, hold⟩
    · exact hl
    · exact absurd (hbefore.symm.trans hold) (by simp)

/-- A script whose incarnation has gone does nothing more (`Flow.runMachine`). -/
theorem perform_runMachine_gone {machine : Machine κ} {s : Stage κ}
    (hgone : s.platform.isCurrent machine.address machine.generation = false) (base n : Nat) :
    ∃ machine', perform (body code) n (runMachine code machine base) s =
      some ((none, machine'), s) := by
  show ∃ _, performWith _ (if machine.depth ≤ base then _ else
    if (!s.platform.isCurrent machine.address machine.generation) = true then _ else _) s = _
  rw [hgone, if_pos Bool.not_false]
  split
  · exact ⟨_, rfl⟩
  · exact ⟨_, rfl⟩

/-- **Slots run in order.** Whatever was scheduled for an incarnation, what has begun to run
(`begun`) is the first part of it, and while the incarnation lives the rest still waits. One slot at
most is running, and it was the last of its incarnation to begin. A slot begins only while none is
running, its incarnation is alive and its address waits for no task; then it runs until its turn
ends, and is not put back. A script whose incarnation has gone does nothing more. Between operations
none is running, and if the platform goes on, all that was ever scheduled for a live actor that
waits for no task has been run. -/
theorem slots_in_order (hp : Past code V start mean m h) :
    (∀ (s t : Stage κ) a g w, t.platform = s.platform.schedule a g w →
      enlisted a g s t = [⟨g, w⟩]) ∧
    (∀ a g, begun a g (m.stage :: h) <+: scheduled a g (m.stage :: h) ∧
      (m.stage.platform.isCurrent a g = true → scheduled a g (m.stage :: h) =
        begun a g (m.stage :: h) ++ m.stage.platform.slotsOf a g)) ∧
    (∀ a b slot slot', m.stage.platform.running.get? a = some slot →
      m.stage.platform.running.get? b = some slot' → a = b) ∧
    (∀ a slot, m.stage.platform.running.get? a = some slot →
      ∃ before, begun a slot.generation (m.stage :: h) = before ++ [slot]) ∧
    (∀ m' a g slot, Next code m m' → slot ∈ launched a g m.stage m'.stage →
      slot.generation = g ∧ Begins code m m' a slot) ∧
    (∀ machine base n, m.stage.platform.isCurrent machine.address machine.generation = false →
      ∃ machine', perform (body code) n (runMachine code machine base) m.stage =
        some ((none, machine'), m.stage)) ∧
    (∀ s, m = between s → (∀ a, s.platform.running.get? a = none) ∧
      ∀ a g, s.platform.stopped = false → s.platform.isCurrent a g = true →
        s.platform.isBlocked a = false → begun a g (s :: h) = scheduled a g (s :: h)) := by
  obtain ⟨hroster, halone⟩ := hp.roster
  have hi := hp.reach.ok.inv
  refine ⟨fun _ _ _ _ _ => enlisted_schedule,
    fun a g => ⟨(hroster a g).behind, (hroster a g).balance⟩, halone,
    fun a slot hrun => (hroster a _).latest slot hrun rfl, fun m' a g slot hnext hmem => ?_,
    fun _ base n hgone => perform_runMachine_gone hgone base n, ?_⟩
  · obtain ⟨hbefore, hafter, hg⟩ := mem_launched.mp hmem
    exact ⟨hg, (hp.reach.launch hnext hbefore hafter).begins hi⟩
  · rintro s rfl
    obtain ⟨-, hcalm⟩ := hp.reach.ok
    refine ⟨fun a => by simpa using hcalm.settled.quiet.running a,
      fun a g hgoes hcur hfree => ?_⟩
    have hdrained : s.platform.Drained := hcalm.drained.resolve_left (by simp [hgoes])
    have hbalance := (hroster a g).balance hcur
    rw [hi.slotsOf_drained hcalm.settled hdrained hfree g, List.append_nil] at hbalance
    exact hbalance.symm

/-- A script that was scheduled while its actor waited for a task (`Platform.isBlocked`) is run once
the task is settled. -/
theorem slots_parked : ∃ (s t : Stage App.sample) (h since : List (Stage App.sample)),
    Past Code.sample Event.Any (fun _ => True) (fun _ _ => True) (between s) h ∧
      s.platform.isBlocked .sample = true ∧
      scheduled .sample 1 (s :: h) = begun .sample 1 (s :: h) ++ [⟨1, .script .notify⟩] ∧
    Past Code.sample Event.Any (fun _ => True) (fun _ _ => True) (between t) (since ++ s :: h) ∧
      begun .sample 1 (s :: h) ++ [⟨1, .script .notify⟩] <+:
        begun .sample 1 (t :: (since ++ s :: h)) := by
  obtain ⟨s₁, s, t, _, _, _, hs₁, hs, ht, hthere, hblocked, hslots, hgoes, hthere', hfree⟩ :
      ∃ (s₁ s t : Stage App.sample) (x₁ : Except PlatformError Address)
        (x₂ x₃ : Except PlatformError Unit),
      perform (body Code.sample) 8 (Operation.spawn Code.sample .sample) sample = some (x₁, s₁) ∧
      perform (body Code.sample) 8 (Operation.exec .sample .notify) s₁ = some (x₂, s) ∧
      perform (body Code.sample) 8 Operation.run s = some (x₃, t) ∧
      s.platform.isCurrent .sample 1 = true ∧ s.platform.isBlocked .sample = true ∧
      s.platform.slotsOf .sample 1 = [⟨1, .script .notify⟩] ∧ t.platform.stopped = false ∧
      t.platform.isCurrent .sample 1 = true ∧ t.platform.isBlocked .sample = false :=
    ⟨_, _, _, _, _, _, rfl, rfl, rfl, rfl, rfl, rfl, rfl, rfl, rfl⟩
  have hnew : Past Code.sample Event.Any (fun _ => True) (fun _ _ => True) (between sample) [] :=
    .new {} none [] trivial
  obtain ⟨_, hspawned⟩ := hnew.perform 8 (.spawn .sample) (Operation.publishes_any _) hs₁
  obtain ⟨h, hparked⟩ := hspawned.perform 8 (.exec .sample .notify) (Operation.publishes_any _) hs
  obtain ⟨since, hrun⟩ := hparked.performed 8 .run (Operation.publishes_any _) ht
  have hwaits : scheduled .sample 1 (s :: h) =
      begun .sample 1 (s :: h) ++ s.platform.slotsOf .sample 1 :=
    ((slots_in_order hparked).2.1 .sample 1).2 hthere
  rw [hslots] at hwaits
  obtain ⟨-, -, -, -, -, -, hend⟩ := slots_in_order hrun
  have hall := (hend t rfl).2 .sample 1 hgoes hthere' hfree
  refine ⟨s, t, h, since, hparked, hblocked, hwaits, hrun, ?_⟩
  rw [hall, ← hwaits]
  exact tally_prefix _ (t :: since) s h

end Moment

end Troupe
