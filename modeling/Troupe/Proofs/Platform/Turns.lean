import Troupe.Proofs.Platform.Invariant

/-!
# Turns are taken in order

Most work only lets addresses queue up, and nobody who is running a slot (`Queues`): nested work
(`Nested.queues`), and dealing with tasks, which may free an owner that was parked
(`Queues.unblock`). The rest is working off the run queue, which takes its first address
(`HasTurn`): the oldest slot there starts, or the address waits for a task and is parked, or nothing
is scheduled there any more (`Fate`).

While a slot of an address is running the address stands in no queue (`Apart`), so when the turn
ends it queues behind everybody else.

Headlines:
* **`Turning.ordered`**: working off queues keeps the run queue in order (`Ordered`).
* **`Turning.requeues`**: when a turn ends the queue is what it was, but for the address itself,
  which comes last.
-/

namespace Troupe.Platform

variable {κ : App} {p q r : Platform κ} {a b : Address} {g : Nat} {slot : Slot κ}
  {V : Event → Prop}

/-! ## Queueing up -/

/-- Addresses queue up at most (`Platform.runQueue`), and nobody who is running a slot. -/
structure Queues (p q : Platform κ) : Prop where
  running : q.running = p.running
  runQueue : p.runQueue <+: q.runQueue
  queued : ∀ a, q.queued.contains a = true →
    p.queued.contains a = true ∨ p.running.contains a = false

theorem Queues.same (hr : q.running = p.running) (hq : q.runQueue = p.runQueue)
    (hs : q.queued = p.queued) : Queues p q :=
  ⟨hr, hq ▸ List.prefix_rfl, fun _ ha => Or.inl (hs ▸ ha)⟩

theorem Queues.refl (p : Platform κ) : Queues p p := .same rfl rfl rfl

theorem Queues.trans (h : Queues p q) (h' : Queues q r) : Queues p r where
  running := h'.running.trans h.running
  runQueue := h.runQueue.trans h'.runQueue
  queued a ha := (h'.queued a ha).elim (h.queued a) fun hidle => Or.inr (h.running ▸ hidle)

/-- What is done elsewhere before does not matter. -/
theorem Queues.after (h : Queues q r) (hr : q.running = p.running) (hq : q.runQueue = p.runQueue)
    (hs : q.queued = p.queued) : Queues p r :=
  (Queues.same hr hq hs).trans h

theorem Queues.enqueue (p : Platform κ) (a : Address) : Queues p (p.enqueue a) := by
  unfold Platform.enqueue
  split
  · exact .refl p
  · rename_i hc
    have hidle : p.running.contains a = false := by
      rw [Bool.not_eq_true, Bool.or_eq_false_iff, Bool.or_eq_false_iff] at hc
      exact hc.1.1
    have hqueued (b : Address) (hb : (p.queued.put a).contains b = true) :
        p.queued.contains b = true ∨ p.running.contains b = false := by
      rw [Table.contains_put] at hb
      by_cases hab : b = a
      · exact Or.inr (hab ▸ hidle)
      · exact Or.inl (by simpa [hab] using hb)
    split
    · exact ⟨rfl, List.prefix_rfl, hqueued⟩
    · exact ⟨rfl, List.prefix_append _ _, hqueued⟩

theorem Queues.schedule (p : Platform κ) (a : Address) (g : Nat) (w : Work κ) :
    Queues p (p.schedule a g w) :=
  (Queues.enqueue _ a).after rfl rfl rfl

theorem Queues.scheduleMail (p : Platform κ) (a : Address) : Queues p (p.scheduleMail a) := by
  unfold Platform.scheduleMail
  split
  · exact .refl p
  · dsimp only
    split
    · exact .refl p
    · exact .schedule p a _ _

theorem Step.queues (h : Step p q) : Queues p q := by
  cases h with
  | publish | raise | fail | stop | reroute | enrol | takeMail | backlog | returnActor | register =>
    exact .same rfl rfl rfl
  | join group a =>
    obtain ⟨_, _, h, -⟩ := putMember_eq p group a
    rw [h]
    exact .same rfl rfl rfl
  | @dismiss a _ =>
    obtain ⟨_, _, h, hqueued⟩ := dismiss_eq p a
    rw [h]
    refine ⟨rfl, List.prefix_rfl, fun b hb => Or.inl ?_⟩
    rcases hqueued with ⟨-, rfl, -⟩ | ⟨-, rfl, -⟩
    · exact (Table.contains_erase.mp hb).2
    · exact hb
  | mail a | arm a => exact (Queues.scheduleMail _ a).after rfl rfl rfl
  | look a => exact .scheduleMail p a
  | takeMatch h =>
    obtain ⟨_, _, _, _, _, _, _, _, _, rfl⟩ := takeMatch_eq h
    exact .same rfl rfl rfl
  | returnMachine => exact (Queues.enqueue _ _).after rfl rfl rfl

/-- **Nested work** (`Nested`) lets addresses queue up at most. -/
theorem Nested.queues (h : Nested V p q) : Queues p q :=
  h.keeps (P := Queues p) (fun _ _ hs hp => hp.trans hs.queues)
    (fun _ _ hl hp => hp.trans (by cases hl <;> exact .same rfl rfl rfl))
    (fun _ _ hp => hp.trans (.same rfl rfl rfl)) (.refl p)

/-- Who is free from his tasks (`unblock`) queues up if he was parked. -/
theorem Queues.unblock (p : Platform κ) (a : Address) (id : Nat) : Queues p (p.unblock a id) := by
  unfold Platform.unblock
  split
  · exact .refl p
  · dsimp only
    split
    · exact .same rfl rfl rfl
    · split
      · exact ⟨rfl, List.prefix_append _ _, fun _ => Or.inl⟩
      · exact .same rfl rfl rfl

/-- **Dealing with tasks** (`Dealing`) lets addresses queue up at most. -/
theorem Dealing.queues (h : Dealing p q) : Queues p q := by
  cases h with
  | poll | take | bus => exact .same rfl rfl rfl
  | @settle id o _ =>
    cases he : p.entries.get? id with
    | none =>
      rw [settle_none o he]
      exact .refl p
    | some e =>
      obtain ⟨_, h⟩ := settle_some o he
      rw [h]
      exact (Queues.unblock p e.owner id).trans (.same rfl rfl rfl)

/-! ## Taking turns -/

/-- What becomes of an address that has its turn (`turn`). -/
inductive Fate (p q : Platform κ) (a : Address) : Prop
  /-- Its oldest slot starts. -/
  | starts {slot : Slot κ} {rest : List (Slot κ)} :
      p.isBlocked a = false → p.pending.get? a = some (slot :: rest) →
        p.running.get? a = none → q.running.get? a = some slot → Fate p q a
  /-- It waits for a task, and is parked. -/
  | parks : p.isBlocked a = true → q.waitQueue = p.waitQueue ++ [a] → q.running = p.running →
      Fate p q a
  /-- Nothing is scheduled there any more. -/
  | passes : p.pending.get? a = none → q.running = p.running → Fate p q a

/-- An address has its turn: it is the first of those that wait (`Platform.runQueue`). -/
structure HasTurn (p q : Platform κ) (a : Address) : Prop where
  first : p.runQueue = a :: q.runQueue
  fate : Fate p q a

/-- The run queue is kept in order: addresses queue behind the others (`Queues`), or the first has
its turn. -/
def Ordered (p q : Platform κ) : Prop :=
  p.runQueue <+: q.runQueue ∨ ∃ a, HasTurn p q a

theorem Queues.ordered (h : Queues p q) : Ordered p q := Or.inl h.runQueue

/-- A turn that is given up (`Turn.skipped`). -/
theorem Inv.hasTurn_skipped (hi : p.Inv) (h : p.turn = .skipped q) : ∃ a, HasTurn p q a := by
  obtain ⟨a, rest, hr, ⟨hb, rfl⟩ | ⟨hnone, rfl⟩⟩ := turn_skipped h
  · exact ⟨a, hr, .parks hb rfl rfl⟩
  · refine ⟨a, hr, .passes ?_ rfl⟩
    cases hp : p.pending.get? a with
    | none => rfl
    | some slots =>
      obtain ⟨s, slots, rfl⟩ := List.exists_cons_of_ne_nil (hi.queues.filled a slots hp)
      exact absurd hp (hnone s slots)

/-- A turn that runs a slot (`Turn.slot`). -/
theorem hasTurn_slot (hb : p.running.contains a = false) (h : p.turn = .slot a slot q) :
    HasTurn p q a := by
  obtain ⟨rest, slots, hr, hfree, hp, rfl⟩ := turn_slot h
  have hidle : p.running.get? a = none := by
    simpa [Table.contains_eq] using hb
  exact ⟨hr, .starts hfree hp hidle ((Table.get?_insert ..).trans (if_pos rfl))⟩

/-- **Working off queues** (`Turning`) keeps the run queue in order. -/
theorem Turning.ordered (h : Turning p q) (hi : p.Inv) : Ordered p q := by
  cases h with
  | judge | hear => exact Or.inl List.prefix_rfl
  | skip h => exact Or.inr (hi.hasTurn_skipped h)
  | begin hb h => exact Or.inr ⟨_, hasTurn_slot hb h⟩
  | @finish a _ =>
    exact Or.inl (Queues.enqueue { p with running := p.running.erase a } a).runQueue
  | schedule => exact (Queues.schedule p _ _ _).ordered
  | part group a =>
    obtain ⟨_, h⟩ := removeMember_eq p group a
    rw [h]
    exact Or.inl List.prefix_rfl

/-! ## Who is running stands in no queue -/

/-- Who is running a slot (`Platform.running`) stands in no queue. -/
def Apart (p : Platform κ) : Prop :=
  ∀ a, p.running.contains a = true → p.queued.contains a = false

theorem Apart.queues (hp : p.Apart) (h : Queues p q) : q.Apart := by
  intro a ha
  rw [h.running] at ha
  rw [← Bool.not_eq_true]
  intro hq
  rcases h.queued a hq with hqueued | hidle
  · exact absurd (hqueued.symm.trans (hp a ha)) (by simp)
  · exact absurd (hidle.symm.trans ha) (by simp)

theorem Apart.turning (hp : p.Apart) (h : Turning p q) (hi : p.Inv) : q.Apart := by
  cases h with
  | judge | hear => exact hp
  | skip h =>
    obtain ⟨b, rest, hr, ⟨-, rfl⟩ | ⟨-, rfl⟩⟩ := turn_skipped h
    · intro a ha
      have hqueued := hp a ha
      -- who has the turn stands in the queue, so it is somebody else who is running
      have hab : a ≠ b := by
        rintro rfl
        have hmem := (hi.queues.lined.queued a).mpr (Or.inl (hr ▸ List.mem_cons_self))
        exact absurd (hmem.symm.trans hqueued) (by simp)
      rw [← Bool.not_eq_true, Table.contains_put, Table.contains_erase, hqueued]
      simp [hab]
    · intro a ha
      rw [← Bool.not_eq_true, Table.contains_erase, hp a ha]
      simp
  | begin _ h =>
    obtain ⟨_, _, -, -, -, rfl⟩ := turn_slot h
    intro a ha
    rw [← Bool.not_eq_true, Table.contains_erase]
    rintro ⟨hab, hqueued⟩
    rw [Table.contains_eq, Table.get?_insert, if_neg hab, ← Table.contains_eq] at ha
    exact absurd (hqueued.symm.trans (hp a ha)) (by simp)
  | @finish b _ =>
    refine Apart.queues (p := { p with running := p.running.erase b }) (fun a ha => ?_)
      (.enqueue _ b)
    exact hp a (Table.contains_erase.mp ha).2
  | schedule => exact hp.queues (.schedule p _ _ _)
  | part group a =>
    obtain ⟨_, h⟩ := removeMember_eq p group a
    rw [h]
    exact hp

theorem Apart.new (config : Config) (trap : Option κ.Trap) : (Platform.new config trap).Apart :=
  fun _ ha => absurd ha (by simp [Platform.new, EmptyCollection.emptyCollection])

/-- Who is running does not wait for a turn. -/
theorem Apart.not_mem (hp : p.Apart) (hi : p.Inv) (ha : p.running.get? a = some slot) :
    a ∉ p.runQueue := by
  intro hmem
  have hqueued := (hi.queues.lined.queued a).mpr (Or.inl hmem)
  have hrunning : p.running.contains a = true := by
    rw [Table.contains_eq, ha]
    rfl
  exact absurd (hqueued.symm.trans (hp a hrunning)) (by simp)

/-! ## The end of a turn -/

/-- A turn ends when the slot of an address is no longer running (`endTurn`). -/
theorem Turning.ends (h : Turning p q) (hbefore : p.running.get? a = some slot)
    (hafter : q.running.get? a = none) : q = p.endTurn a false := by
  have still (hr : q.running.get? a = p.running.get? a) : q = p.endTurn a false :=
    absurd (hafter.symm.trans (hr.trans hbefore)) (by simp)
  cases h with
  | judge | hear => exact still rfl
  | skip h =>
    obtain ⟨_, _, _, ⟨-, rfl⟩ | ⟨-, rfl⟩⟩ := turn_skipped h
    · exact still rfl
    · exact still rfl
  | @begin b s _ _ h =>
    obtain ⟨_, _, -, -, -, rfl⟩ := turn_slot h
    rw [Table.get?_insert] at hafter
    split at hafter
    · exact absurd hafter (by simp)
    · exact absurd (hafter.symm.trans hbefore) (by simp)
  | @finish b _ =>
    obtain ⟨_, _, _, h⟩ := endTurn_eq p b
    rw [h, Table.get?_erase] at hafter
    split at hafter
    · rename_i hab
      rw [hab]
    · exact absurd (hafter.symm.trans hbefore) (by simp)
  | schedule s _ =>
    obtain ⟨_, _, _, h⟩ := schedule_eq p _ _ (.script s)
    exact still (by rw [h])
  | part group b =>
    obtain ⟨_, h⟩ := removeMember_eq p group b
    exact still (by rw [h])

/-- Who queues up to run (`enqueue`) queues behind all others. -/
theorem runQueue_enqueue (p : Platform κ) (a : Address) :
    (p.enqueue a).runQueue = p.runQueue ∨ (p.enqueue a).runQueue = p.runQueue ++ [a] := by
  unfold Platform.enqueue
  split
  · exact Or.inl rfl
  · split
    · exact Or.inl rfl
    · exact Or.inr rfl

/-- **When a turn ends** the queue is what it was (`Platform.runQueue`), but for the address itself,
which comes last. -/
theorem Turning.requeues (h : Turning p q) (hi : p.Inv) (hp : p.Apart)
    (hbefore : p.running.get? a = some slot) (hafter : q.running.get? a = none) :
    a ∉ p.runQueue ∧ (q.runQueue = p.runQueue ∨ q.runQueue = p.runQueue ++ [a]) := by
  refine ⟨hp.not_mem hi hbefore, ?_⟩
  rw [h.ends hbefore hafter]
  exact runQueue_enqueue { p with running := p.running.erase a } a

end Troupe.Platform
