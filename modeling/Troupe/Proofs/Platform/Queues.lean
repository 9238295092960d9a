import Troupe.Proofs.Platform.Step

/-!
# The queues of the scheduler

`QueueInv` says how the six collections of the scheduler hang together: an address stands in at most
one queue, at most once, and `queued` knows it; who waits is blocked; slots belong to the
incarnation that lives at their address; and no slot is forgotten, because every address with slots
stands in a queue, unless a slot of it is running.

In the middle of a change one address may have slots and no place. `QueueInvBut p excused` lets some
addresses off, and queueing one of them again mends it (`QueueInvBut.enqueue`). How addresses move
between the two queues is said by the lemmas on `Lined`: `Lined.pushRun`, `Lined.pushWait`,
`Lined.popRun`, `Lined.leaveWait`, `Lined.wake`.

Headlines:
* `QueueInv.schedule`, `QueueInv.scheduleMail`, `QueueInv.skip`, `QueueInv.begin`,
  `QueueInv.finish`, `QueueInv.dismiss`, `QueueInv.register`, `QueueInv.settle`: each function of
  the scheduler keeps the queues in order.
* **`QueueInv.step`**, **`QueueInv.loan`**, **`QueueInv.turning`**, **`QueueInv.dealing`**: so all
  work does.
-/

namespace Troupe.Platform

variable {κ : App} {p q : Platform κ} {a b : Address} {g : Nat} {excused excused' : Address → Prop}

/-! ## Two queues and who stands in them -/

/-- Nobody stands in line twice, and the set (`AddressSet`) knows who does. -/
structure Lined (run wait : List Address) (queued : AddressSet) : Prop where
  run_nodup : run.Nodup
  wait_nodup : wait.Nodup
  apart : ∀ a ∈ run, a ∉ wait
  queued : ∀ a, queued.contains a = true ↔ a ∈ run ∨ a ∈ wait

section Lined

variable {run wait : List Address} {queued : AddressSet}

theorem nodup_concat (h : run.Nodup) (ha : a ∉ run) : (run ++ [a]).Nodup := by
  refine List.nodup_append.mpr ⟨h, by simp, fun x hx y hy => ?_⟩
  rintro rfl
  exact ha (List.mem_singleton.mp hy ▸ hx)

/-- A newcomer queues to run (`Platform.runQueue`). -/
theorem Lined.pushRun (h : Lined run wait queued) (ha : ¬ queued.contains a = true) :
    Lined (run ++ [a]) wait (KeySet.put queued a) := by
  obtain ⟨hrun, hwait⟩ := not_or.mp (mt (h.queued a).mpr ha)
  refine ⟨nodup_concat h.run_nodup hrun, h.wait_nodup, fun x hx hw => ?_, fun x => ?_⟩
  · rcases List.mem_append.mp hx with hx | hx
    · exact h.apart x hx hw
    · exact hwait (List.mem_singleton.mp hx ▸ hw)
  · rw [Table.contains_put, h.queued, List.mem_append, List.mem_singleton]
    grind

/-- A newcomer queues to wait (`Platform.waitQueue`). -/
theorem Lined.pushWait (h : Lined run wait queued) (ha : ¬ queued.contains a = true) :
    Lined run (wait ++ [a]) (KeySet.put queued a) := by
  obtain ⟨hrun, hwait⟩ := not_or.mp (mt (h.queued a).mpr ha)
  refine ⟨h.run_nodup, nodup_concat h.wait_nodup hwait, fun x hx hw => ?_, fun x => ?_⟩
  · rcases List.mem_append.mp hw with hw | hw
    · exact h.apart x hx hw
    · exact hrun (List.mem_singleton.mp hw ▸ hx)
  · rw [Table.contains_put, h.queued, List.mem_append, List.mem_singleton]
    grind

/-- The next one leaves the queue (`Platform.runQueue`). -/
theorem Lined.popRun (h : Lined (a :: run) wait queued) : Lined run wait (queued.erase a) := by
  obtain ⟨ha, hrun⟩ := List.nodup_cons.mp h.run_nodup
  refine ⟨hrun, h.wait_nodup, fun x hx => h.apart x (List.mem_cons_of_mem _ hx), fun x => ?_⟩
  have hwait := h.apart a List.mem_cons_self
  rw [Table.contains_erase, h.queued, List.mem_cons]
  grind

/-- One that waits leaves (`Platform.waitQueue`). -/
theorem Lined.leaveWait (h : Lined run wait queued) (ha : a ∈ wait) :
    Lined run (wait.erase a) (queued.erase a) := by
  refine ⟨h.run_nodup, h.wait_nodup.erase a, fun x hx hw => ?_, fun x => ?_⟩
  · exact h.apart x hx (List.mem_of_mem_erase hw)
  · have hrun : a ∉ run := fun hr => h.apart a hr ha
    rw [Table.contains_erase, h.queued, h.wait_nodup.mem_erase_iff]
    grind

/-- One that waits may run (`Platform.unblock`). -/
theorem Lined.wake (h : Lined run wait queued) (ha : a ∈ wait) :
    Lined (run ++ [a]) (wait.erase a) queued := by
  have hrun : a ∉ run := fun hr => h.apart a hr ha
  refine ⟨nodup_concat h.run_nodup hrun, h.wait_nodup.erase a, fun x hx hw => ?_, fun x => ?_⟩
  · rcases List.mem_append.mp hx with hx | hx
    · exact h.apart x hx (List.mem_of_mem_erase hw)
    · exact (h.wait_nodup.mem_erase_iff.mp hw).1 (List.mem_singleton.mp hx)
  · rw [h.queued, List.mem_append, List.mem_singleton, h.wait_nodup.mem_erase_iff]
    grind

end Lined

/-! ## The invariant -/

/-- The queues are in order (`Lined`), but excused addresses with slots may stand in none. -/
structure QueueInvBut (p : Platform κ) (excused : Address → Prop) : Prop where
  lined : Lined p.runQueue p.waitQueue p.queued
  parked : ∀ a ∈ p.waitQueue, p.isBlocked a = true
  filled : ∀ a slots, p.pending.get? a = some slots → slots ≠ []
  current : ∀ a slots, p.pending.get? a = some slots →
    ∀ s ∈ slots, p.isCurrent a s.generation = true
  placed : ∀ a slots, p.pending.get? a = some slots →
    a ∈ p.runQueue ∨ a ∈ p.waitQueue ∨ excused a

/-- The queues are in order: an address with slots stands in a queue, unless one of them is running
(`Platform.running`). -/
def QueueInv (p : Platform κ) : Prop :=
  p.QueueInvBut fun a => p.running.contains a = true

theorem QueueInv.new (config : Config) (trap : Option κ.Trap) :
    (Platform.new config trap).QueueInv where
  lined :=
    { run_nodup := List.nodup_nil
      wait_nodup := List.nodup_nil
      apart := fun _ h => nomatch h
      queued := fun a => by simp [Platform.new, EmptyCollection.emptyCollection] }
  parked _ h := nomatch h
  filled _ _ h := nomatch h
  current _ _ h := nomatch h
  placed _ _ h := nomatch h

/-! ## Changes elsewhere -/

theorem generation?_eq_some : p.generation? a = some g ↔ p.isCurrent a g = true := by
  rw [isCurrent, beq_iff_eq]

theorem isCurrent_congr (h : q.generation? a = p.generation? a) :
    q.isCurrent a g = p.isCurrent a g := by
  rw [isCurrent, isCurrent, h]

theorem generation?_modifyContext {f : Context κ → Context κ}
    (hf : ∀ c, (f c).generation = c.generation) :
    (p.modifyContext a f).generation? b = p.generation? b := by
  rw [generation?, context?_modifyContext_eq, generation?, Option.map_map]
  congr 1
  funext c
  show (if b = a then f c else c).generation = c.generation
  by_cases h : b = a
  · rw [if_pos h, hf]
  · rw [if_neg h]

/-- The invariant speaks of queues, slots, blocked addresses and generations only. -/
theorem QueueInvBut.congr (h : p.QueueInvBut excused) (hr : q.runQueue = p.runQueue)
    (hw : q.waitQueue = p.waitQueue) (hq : q.queued = p.queued) (hp : q.pending = p.pending)
    (hb : ∀ a, p.isBlocked a = true → q.isBlocked a = true)
    (hg : ∀ a slots, p.pending.get? a = some slots → q.generation? a = p.generation? a)
    (he : ∀ a, excused a → excused' a) : q.QueueInvBut excused' where
  lined := by rw [hr, hw, hq]; exact h.lined
  parked := by rw [hw]; exact fun a ha => hb a (h.parked a ha)
  filled := by rw [hp]; exact h.filled
  current := by
    rw [hp]
    intro a slots hs s hm
    rw [isCurrent_congr (hg a slots hs)]
    exact h.current a slots hs s hm
  placed := by
    rw [hp, hr, hw]
    intro a slots hs
    exact (h.placed a slots hs).imp_right fun h => h.imp_right (he a)

theorem QueueInv.modifyContext (h : p.QueueInv) {f : Context κ → Context κ}
    (hf : ∀ c, (f c).generation = c.generation) : (p.modifyContext a f).QueueInv :=
  QueueInvBut.congr h rfl rfl rfl rfl (fun _ hb => hb)
    (fun _ _ _ => generation?_modifyContext hf) fun _ he => he

/-! ## Queueing and scheduling -/

theorem hasSlots_iff : p.hasSlots a = true ↔ ∃ slots, p.pending.get? a = some slots ∧ slots ≠ [] := by
  rw [hasSlots, Option.any_eq_true]
  simp only [Bool.not_eq_true', List.isEmpty_eq_false_iff]

/-- **Queueing mends** (`Platform.enqueue`): an excused address is in order again once it has
queued, or runs. -/
theorem QueueInvBut.enqueue (h : p.QueueInvBut excused)
    (he : ∀ x, excused x → x = a ∨ p.running.contains x = true) : (p.enqueue a).QueueInv := by
  have weaken (hmem : ∀ slots, p.pending.get? a = some slots →
      p.running.contains a = true ∨ a ∈ p.runQueue ∨ a ∈ p.waitQueue) : p.QueueInv :=
    { h with
      placed := fun x slots hs => by
        rcases h.placed x slots hs with hx | hx | hx
        · exact Or.inl hx
        · exact Or.inr (Or.inl hx)
        · rcases he x hx with rfl | hx
          · rcases hmem slots hs with hx | hx | hx
            · exact Or.inr (Or.inr hx)
            · exact Or.inl hx
            · exact Or.inr (Or.inl hx)
          · exact Or.inr (Or.inr hx) }
  have others {run wait : List Address} (hrun : ∀ x ∈ p.runQueue, x ∈ run)
      (hwait : ∀ x ∈ p.waitQueue, x ∈ wait) (ha : a ∈ run ∨ a ∈ wait) (x : Address)
      (slots : List (Slot κ)) (hs : p.pending.get? x = some slots) :
      x ∈ run ∨ x ∈ wait ∨ p.running.contains x = true := by
    rcases h.placed x slots hs with hx | hx | hx
    · exact Or.inl (hrun x hx)
    · exact Or.inr (Or.inl (hwait x hx))
    · rcases he x hx with rfl | hx
      · exact ha.imp_right Or.inl
      · exact Or.inr (Or.inr hx)
  unfold Platform.enqueue
  split
  · rename_i hc
    refine weaken fun slots hs => ?_
    rw [Bool.or_eq_true, Bool.or_eq_true, Bool.not_eq_true'] at hc
    rcases hc with (hc | hc) | hc
    · exact Or.inl hc
    · exact Or.inr ((h.lined.queued a).mp hc)
    · exact absurd (hasSlots_iff.mpr ⟨slots, hs, h.filled a slots hs⟩) (by simp [hc])
  · rename_i hc
    rw [Bool.or_eq_true, Bool.or_eq_true, not_or, not_or] at hc
    split
    · rename_i hb
      refine { h with lined := h.lined.pushWait hc.1.2, parked := fun x hx => ?_, placed := ?_ }
      · rcases List.mem_append.mp hx with hx | hx
        · exact h.parked x hx
        · exact List.mem_singleton.mp hx ▸ hb
      · exact others (fun _ hx => hx) (fun _ hx => List.mem_append_left _ hx) (Or.inr (by simp))
    · refine { h with lined := h.lined.pushRun hc.1.2, placed := ?_ }
      exact others (fun _ hx => List.mem_append_left _ hx) (fun _ hx => hx) (Or.inl (by simp))

theorem QueueInv.schedule (h : p.QueueInv) (hc : p.isCurrent a g = true) (w : Work κ) :
    (p.schedule a g w).QueueInv := by
  suffices hbut : QueueInvBut
      { p with pending := p.pending.insert a ((p.pending.get? a).getD [] ++ [⟨g, w⟩]) }
      fun x => x = a ∨ p.running.contains x = true from hbut.enqueue fun _ hx => hx
  refine { h with filled := fun x slots hs => ?_, current := fun x slots hs s hm => ?_, placed := ?_ }
  · rcases Table.get?_insert_eq_some.mp hs with ⟨-, rfl⟩ | ⟨-, hs⟩
    · simp
    · exact h.filled x slots hs
  · rcases Table.get?_insert_eq_some.mp hs with ⟨rfl, rfl⟩ | ⟨-, hs⟩
    · rcases List.mem_append.mp hm with hm | hm
      · cases ho : p.pending.get? x with
        | none => exact absurd hm (by simp [ho])
        | some old => exact h.current x old ho s (by simpa [ho] using hm)
      · obtain rfl := List.mem_singleton.mp hm
        exact hc
    · exact h.current x slots hs s hm
  · intro x slots hs
    rcases Table.get?_insert_eq_some.mp hs with ⟨rfl, -⟩ | ⟨-, hs⟩
    · exact Or.inr (Or.inr (Or.inl rfl))
    · exact (h.placed x slots hs).imp_right fun hx => hx.imp_right Or.inr

theorem QueueInv.scheduleMail (h : p.QueueInv) (a : Address) : (p.scheduleMail a).QueueInv := by
  unfold Platform.scheduleMail
  split
  · exact h
  · rename_i c hc
    dsimp only
    split
    · exact h
    · exact h.schedule (isCurrent_iff.mpr ⟨c, hc, rfl⟩) .mail

/-! ## Turns -/

theorem QueueInv.skip (h : p.QueueInv) (ht : p.turn = .skipped q) : q.QueueInv := by
  obtain ⟨a, rest, hr, ⟨hb, rfl⟩ | ⟨hs, rfl⟩⟩ := turn_skipped ht
  · have hpop : Lined rest p.waitQueue (p.queued.erase a) := (hr ▸ h.lined).popRun
    have hout : ¬ (p.queued.erase a).contains a = true := fun hx => (Table.contains_erase.mp hx).1 rfl
    refine { h with lined := hpop.pushWait hout, parked := fun x hx => ?_, placed := ?_ }
    · rcases List.mem_append.mp hx with hx | hx
      · exact h.parked x hx
      · exact List.mem_singleton.mp hx ▸ hb
    · intro x slots hs
      rcases h.placed x slots hs with hx | hx | hx
      · rw [hr] at hx
        rcases List.mem_cons.mp hx with rfl | hx
        · exact Or.inr (Or.inl (by simp))
        · exact Or.inl hx
      · exact Or.inr (Or.inl (List.mem_append_left _ hx))
      · exact Or.inr (Or.inr hx)
  · refine { h with lined := (hr ▸ h.lined).popRun, placed := fun x slots hx => ?_ }
    rcases h.placed x slots hx with hq | hq | hq
    · rw [hr] at hq
      rcases List.mem_cons.mp hq with rfl | hq
      · -- an address without slots
        cases slots with
        | nil => exact absurd rfl (h.filled x [] hx)
        | cons s slots => exact absurd hx (hs s slots)
      · exact Or.inl hq
    · exact Or.inr (Or.inl hq)
    · exact Or.inr (Or.inr hq)

theorem QueueInv.begin {s : Slot κ} (h : p.QueueInv) (ht : p.turn = .slot a s q) : q.QueueInv := by
  obtain ⟨rest, slots, hr, -, hp, rfl⟩ := turn_slot ht
  have hslots (x : Address) (left : List (Slot κ))
      (hs : (if slots.isEmpty then p.pending.erase a else p.pending.insert a slots).get? x =
        some left) : (x = a ∧ left = slots ∧ slots ≠ []) ∨ (x ≠ a ∧ p.pending.get? x = some left) := by
    by_cases he : slots.isEmpty = true
    · rw [if_pos he] at hs
      exact Or.inr (Table.get?_erase_eq_some.mp hs)
    · rw [if_neg he] at hs
      have hne : slots ≠ [] := by simpa using he
      exact (Table.get?_insert_eq_some.mp hs).imp_left fun hx => ⟨hx.1, hx.2, hne⟩
  constructor
  case lined => exact (hr ▸ h.lined).popRun
  case parked => exact h.parked
  case filled =>
    intro x left hs
    rcases hslots x left hs with ⟨-, rfl, hne⟩ | ⟨-, hs⟩
    · exact hne
    · exact h.filled x left hs
  case current =>
    intro x left hs t hm
    rcases hslots x left hs with ⟨rfl, rfl, -⟩ | ⟨-, hs⟩
    · exact h.current x (s :: left) hp t (List.mem_cons_of_mem _ hm)
    · exact h.current x left hs t hm
  case placed =>
    intro x left hs
    by_cases hx : x = a
    · exact Or.inr (Or.inr (Table.contains_insert.mpr (Or.inl hx)))
    · rcases hslots x left hs with ⟨rfl, -⟩ | ⟨-, hs⟩
      · exact absurd rfl hx
      · rcases h.placed x left hs with hq | hq | hq
        · rw [hr] at hq
          exact Or.inl ((List.mem_cons.mp hq).resolve_left hx)
        · exact Or.inr (Or.inl hq)
        · exact Or.inr (Or.inr (Table.contains_insert.mpr (Or.inr hq)))

theorem QueueInv.finish (h : p.QueueInv) (a : Address) : (p.endTurn a false).QueueInv := by
  have hbut : QueueInvBut { p with running := p.running.erase a }
      fun x => p.running.contains x = true := { h with }
  refine hbut.enqueue fun x hx => ?_
  by_cases hxa : x = a
  · exact Or.inl hxa
  · exact Or.inr (Table.contains_erase.mpr ⟨hxa, hx⟩)

/-! ## Actors that come and go, and their tasks -/

theorem QueueInv.enrol (h : p.QueueInv) (actor : κ.Actor) (bh : Behaviour) (t : Template κ)
    (hn : p.context? a = none) : (p.enrol a actor bh t).QueueInv := by
  refine QueueInvBut.congr h rfl rfl rfl rfl (fun _ hb => hb) (fun x slots hs => ?_) fun _ hx => hx
  have hx : x ≠ a := by
    rintro rfl
    obtain ⟨s, hm⟩ := List.exists_mem_of_ne_nil slots (h.filled x slots hs)
    obtain ⟨c, hc, -⟩ := isCurrent_iff.mp (h.current x slots hs s hm)
    exact absurd (hn.symm.trans hc) (by simp)
  rw [generation?, context?_enrol, if_neg hx]
  rfl

/-- Nobody waits at an address for which nothing is scheduled any more (`Platform.unschedule`). -/
theorem QueueInv.dismiss (h : p.QueueInv) (a : Address) : (p.dismiss a).QueueInv := by
  have hgen (x : Address) (hx : x ≠ a) : (p.dismiss a).generation? x = p.generation? x := by
    rw [generation?, context?_dismiss, if_neg hx]
    rfl
  obtain ⟨queued, waitQueue, hq, hmoved⟩ := dismiss_eq p a
  rw [hq] at hgen
  rw [hq]
  -- the others wait as before
  have hwait (x : Address) : x ∈ waitQueue ↔ x ≠ a ∧ x ∈ p.waitQueue := by
    rcases hmoved with ⟨-, -, rfl⟩ | ⟨hw, -, rfl⟩
    · exact h.lined.wait_nodup.mem_erase_iff
    · exact ⟨fun hx => ⟨fun he => hw (he ▸ hx), hx⟩, fun hx => hx.2⟩
  constructor
  case lined =>
    rcases hmoved with ⟨hw, rfl, rfl⟩ | ⟨-, rfl, rfl⟩
    · exact h.lined.leaveWait hw
    · exact h.lined
  case parked =>
    intro x hx
    obtain ⟨hxa, hx⟩ := (hwait x).mp hx
    exact Table.contains_erase.mpr ⟨hxa, h.parked x hx⟩
  case filled => exact fun x slots hs => h.filled x slots (Table.get?_erase_eq_some.mp hs).2
  case current =>
    intro x slots hs s hm
    obtain ⟨hxa, hs⟩ := Table.get?_erase_eq_some.mp hs
    rw [isCurrent_congr (hgen x hxa)]
    exact h.current x slots hs s hm
  case placed =>
    intro x slots hs
    obtain ⟨hxa, hs⟩ := Table.get?_erase_eq_some.mp hs
    exact (h.placed x slots hs).imp_right fun hx => hx.imp_left fun hx => (hwait x).mpr ⟨hxa, hx⟩

theorem QueueInv.register (h : p.QueueInv) (a : Address) (task : κ.Task) :
    (p.registerTask a task).2.QueueInv := by
  refine QueueInvBut.congr h rfl rfl rfl rfl (fun x hb => ?_) (fun _ _ _ => rfl) fun _ hx => hx
  exact Table.contains_insert.mpr (Or.inr hb)

theorem QueueInv.unblock (h : p.QueueInv) (a : Address) (id : Nat) : (p.unblock a id).QueueInv := by
  unfold Platform.unblock
  split
  · exact h
  · dsimp only
    have still (x : Address) (hx : x ≠ a) (hb : p.isBlocked x = true) :
        (p.blocked.erase a).contains x = true :=
      Table.contains_erase.mpr ⟨hx, hb⟩
    split
    · refine QueueInvBut.congr h rfl rfl rfl rfl (fun x hb => ?_) (fun _ _ _ => rfl) fun _ hx => hx
      exact Table.contains_insert.mpr (Or.inr hb)
    · split
      · rename_i hw
        refine { h with lined := h.lined.wake hw, parked := fun x hx => ?_, placed := ?_ }
        · obtain ⟨hxa, hx⟩ := h.lined.wait_nodup.mem_erase_iff.mp hx
          exact still x hxa (h.parked x hx)
        · intro x slots hs
          rcases h.placed x slots hs with hx | hx | hx
          · exact Or.inl (List.mem_append_left _ hx)
          · by_cases hxa : x = a
            · exact Or.inl (List.mem_append_right _ (List.mem_singleton.mpr hxa))
            · exact Or.inr (Or.inl (h.lined.wait_nodup.mem_erase_iff.mpr ⟨hxa, hx⟩))
          · exact Or.inr (Or.inr hx)
      · rename_i hw
        refine { h with parked := fun x hx => ?_ }
        refine still x ?_ (h.parked x hx)
        rintro rfl
        exact hw hx

theorem QueueInv.settle (h : p.QueueInv) (id : Nat) (o : Outcome) :
    (p.settle id o).2.QueueInv := by
  cases he : p.entries.get? id with
  | none =>
    rw [settle_none o he]
    exact h
  | some entry =>
    obtain ⟨_, hs⟩ := settle_some o he
    rw [hs]
    have hu := h.unblock entry.owner id
    exact QueueInvBut.congr hu rfl rfl rfl rfl (fun _ hb => hb) (fun _ _ _ => rfl) fun _ hx => hx

/-! ## The invariant is kept -/

/-- A change of anything but contexts, slots, queues and blocked sets. -/
theorem QueueInv.same (h : p.QueueInv) (hc : q.contexts = p.contexts) (hr : q.runQueue = p.runQueue)
    (hw : q.waitQueue = p.waitQueue) (hq : q.queued = p.queued) (hp : q.pending = p.pending)
    (hb : q.blocked = p.blocked) (hrun : q.running = p.running) : q.QueueInv := by
  refine QueueInvBut.congr h hr hw hq hp (fun a ha => ?_) (fun a _ _ => ?_) fun a ha => ?_
  · rw [isBlocked, hb]
    exact ha
  · rw [generation?, context?, hc]
    rfl
  · rw [hrun]
    exact ha

theorem QueueInv.step (hs : Step p q) (h : p.QueueInv) : q.QueueInv := by
  cases hs with
  | publish | raise | fail | stop | reroute => exact h.same rfl rfl rfl rfl rfl rfl rfl
  | join group a =>
    obtain ⟨_, _, hq, -⟩ := putMember_eq p group a
    rw [hq]
    exact h.same rfl rfl rfl rfl rfl rfl rfl
  | enrol actor bh _ _ _ hn _ => exact h.enrol actor bh _ hn
  | dismiss => exact h.dismiss _
  | mail a env =>
    have hm : (p.putMail a env).QueueInv := h.modifyContext fun _ => rfl
    exact hm.scheduleMail a
  | arm a t =>
    have hm : (p.modifyContext a fun c => { c with receivers := ⟨t, false⟩ :: c.receivers }).QueueInv :=
      h.modifyContext fun _ => rfl
    exact hm.scheduleMail a
  | look a => exact h.scheduleMail a
  | takeMatch ht =>
    obtain ⟨_, _, _, _, _, _, _, _, _, rfl⟩ := takeMatch_eq ht
    exact h.modifyContext fun _ => rfl
  | takeMail | backlog | returnActor => exact h.modifyContext fun _ => rfl
  | @returnMachine m _ _ =>
    have hm : (p.modifyContext m.address fun c => { c with machine := some m }).QueueInv :=
      h.modifyContext fun _ => rfl
    exact hm.enqueue fun _ hx => Or.inr hx
  | register a task => exact h.register a task

theorem QueueInv.loan (hl : Loan p q) (h : p.QueueInv) : q.QueueInv := by
  cases hl <;> exact h.modifyContext fun _ => rfl

theorem QueueInv.turning (ht : Turning p q) (h : p.QueueInv) : q.QueueInv := by
  cases ht with
  | judge | hear => exact h.same rfl rfl rfl rfl rfl rfl rfl
  | skip ht => exact h.skip ht
  | begin _ ht => exact h.begin ht
  | finish => exact h.finish _
  | schedule s hc => exact h.schedule hc (.script s)
  | part group a =>
    obtain ⟨_, hq⟩ := removeMember_eq p group a
    rw [hq]
    exact h.same rfl rfl rfl rfl rfl rfl rfl

theorem QueueInv.dealing (hd : Dealing p q) (h : p.QueueInv) : q.QueueInv := by
  cases hd with
  | settle o => exact h.settle _ o
  | bus | poll | take => exact h.same rfl rfl rfl rfl rfl rfl rfl

end Troupe.Platform
