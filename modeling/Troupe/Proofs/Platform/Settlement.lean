import Troupe.Proofs.Platform.Invariant

/-!
# Registering, asking and settling tasks

As far as tasks are concerned, work comes in three kinds. Most of it registers tasks
(`Registering`): a task that is pending keeps its entry, a new one gets the next number, and it is
told of once (`Registration`). Another kind asks the task that is first in line (`Asking`). The
third settles one task, and `Settlement` says all that this changes: the entry of the task and
nobody else's, whom its owner waits for, and what the bus has told.

`Journal p` says that what the bus has told of tasks is what happened: each task up to the last was
registered once, in order, and those that are not pending any more were settled once each. All work
keeps it, if the application itself publishes nothing about tasks.

Headlines:
* **`registration`**: what `registerTask` (`register_task`) changes.
* **`Rounds.registering`**: work but that on tasks registers tasks, one after the other, and does
  other things.
* **`settlement`**: what `Platform.settle` changes, of a task that is pending and not asked any
  more.
* **`exists_hand`**: the pending tasks are those that are asked, but for one in hand at most.
* **`Journal.registering`**, **`Journal.asking`**, **`Journal.settlement`**: the journal is kept;
  where no task is pending, each was settled (`Journal.perm`).
-/

namespace Troupe.Platform

variable {κ : App} {p q r : Platform κ} {a b : Address} {i id : Nat} {e entry : TaskEntry}
  {o : Outcome} {V : Event → Prop}

/-- A task is on record (`Platform.entries`) and not settled. -/
def Pending (p : Platform κ) (id : Nat) (e : TaskEntry) : Prop :=
  p.entries.get? id = some e ∧ e.outcome = none

/-- An address waits for a task (`Platform.blocked`). -/
def Awaits (p : Platform κ) (a : Address) (id : Nat) : Prop :=
  ∃ ids, p.blocked.get? a = some ids ∧ ids.contains id = true

theorem Pending.unsettled (h : p.Pending id e) : p.Unsettled id e.owner :=
  ⟨e, h.1, h.2, rfl⟩

theorem Unsettled.pending {owner : Address} (h : p.Unsettled id owner) :
    ∃ e, p.Pending id e ∧ e.owner = owner := by
  obtain ⟨e, he, ho, howner⟩ := h
  exact ⟨e, ⟨he, ho⟩, howner⟩

theorem Pending.unique {e' : TaskEntry} (h : p.Pending id e) (h' : p.Pending id e') : e = e' :=
  Option.some.inj (h.1.symm.trans h'.1)

/-- A task that is asked (`taskIds`) is pending. -/
theorem TaskInv.pending (h : p.TaskInv) (hid : id ∈ p.taskIds) : ∃ e, p.Pending id e := by
  obtain ⟨owner, ho⟩ := h.recorded id hid
  exact ho.pending.imp fun _ he => he.1

/-- **The pending tasks** are those that are asked, if none is in hand (`Unpolled`). -/
theorem pending_iff (h : p.TaskInv) (hu : p.Unpolled none) :
    (∃ e, p.Pending id e) ↔ id ∈ p.taskIds :=
  ⟨fun ⟨e, he⟩ => (hu id e.owner he.unsettled).resolve_right (by simp), h.pending⟩

/-- **The pending tasks** are those that are asked, but for one in hand (`Unpolled`). -/
theorem exists_hand (h : p.TaskInv) (hu : ∃ hand, p.Unpolled hand) :
    ∃ hand, (∀ id, (∃ e, p.Pending id e) ↔ id ∈ p.taskIds ∨ hand = some id) ∧
      ∀ id, hand = some id → id ∉ p.taskIds := by
  obtain ⟨hand, hu⟩ := hu
  have hto (id : Nat) : (∃ e, p.Pending id e) → id ∈ p.taskIds ∨ hand = some id :=
    fun ⟨e, he⟩ => hu id e.owner he.unsettled
  by_cases hhand : ∃ id, hand = some id ∧ (∃ e, p.Pending id e) ∧ id ∉ p.taskIds
  · obtain ⟨i, rfl, he, hi⟩ := hhand
    refine ⟨some i, fun id => ⟨hto id, fun hid => hid.elim h.pending fun hi => ?_⟩, fun id hid => ?_⟩
    · exact Option.some.inj hi ▸ he
    · exact Option.some.inj hid ▸ hi
  · -- whatever is in hand is settled or asked
    refine ⟨none, fun id => ⟨fun hid => Or.inl ?_, fun hid => hid.elim h.pending (by simp)⟩,
      fun id hid => absurd hid (by simp)⟩
    by_contra hi
    exact hhand ⟨id, (hto id hid).resolve_left hi, hid, hi⟩

/-! ## Registering -/

/-- No task is registered, asked or settled. Nothing is told of tasks either (`Bus.SameTold`),
unless by the application. -/
structure Aside (V : Event → Prop) (p q : Platform κ) : Prop where
  next : q.nextTask = p.nextTask
  asked : q.taskIds = p.taskIds
  pending : ∀ id e, q.Pending id e ↔ p.Pending id e
  told : (∀ e, V e → e.isOfTask = false) → p.bus.SameTold q.bus

/-- What registering a task changes. It gets the number `p.nextTask`, and is recorded for whoever
lives at the address of its owner, or with the generation 0 if nobody does. -/
structure Registration (p : Platform κ) (owner : Address) (task : κ.Task) (q : Platform κ) :
    Prop where
  next : q.nextTask = p.nextTask + 1
  tasks : q.tasks = p.tasks ++ [(p.nextTask, task)]
  pending : ∀ id e, q.Pending id e ↔
    (id = p.nextTask ∧ e = ⟨owner, (p.generation? owner).getD 0, none⟩) ∨
      (id ≠ p.nextTask ∧ p.Pending id e)
  /-- The owner waits for the task. -/
  awaits : ∀ a id, q.Awaits a id ↔ (a = owner ∧ id = p.nextTask) ∨ p.Awaits a id
  contexts : q.contexts = p.contexts
  raised : q.raised = p.raised
  registered : q.bus.registered = p.bus.registered ++ [p.nextTask]
  settled : q.bus.settled = p.bus.settled

/-- Work that registers tasks (`Registration`), asks none and settles none. -/
def Registering (V : Event → Prop) : Platform κ → Platform κ → Prop :=
  Relation.ReflTransGen fun p q => Aside V p q ∨ ∃ owner task, Registration p owner task q

theorem SameRecords.aside (h : SameRecords p q) : Aside V p q := by
  refine ⟨h.next, congrArg (·.map Prod.fst) h.tasks, fun id e => ?_, fun _ => h.told⟩
  unfold Pending
  rw [h.entries]

/-- A settled task can be forgotten (`Platform.forget`). -/
theorem get?_retain_pending {t : Table Nat TaskEntry} :
    ((t.retain fun _ e => e.owner != a || e.outcome.isNone).get? id = some e ∧ e.outcome = none) ↔
      (t.get? id = some e ∧ e.outcome = none) :=
  ⟨fun h => ⟨get?_of_retain h.1, h.2⟩, fun h => ⟨get?_retain_unsettled h.1 h.2, h.2⟩⟩

theorem Aside.dismiss (p : Platform κ) (a : Address) : Aside V p (p.dismiss a) := by
  obtain ⟨_, _, hq, -⟩ := dismiss_eq p a
  rw [hq]
  exact ⟨rfl, rfl, fun _ _ => get?_retain_pending, fun _ => .publish _ rfl⟩

theorem Aside.announce (h : Announce V p q) : Aside V p q := by
  cases h with
  | publish he => exact ⟨rfl, rfl, fun _ _ => Iff.rfl, fun hV => .publish _ (hV _ he)⟩

/-- After registering a task (`registerTask`), it is pending, and so are those that were. -/
theorem pending_register (p : Platform κ) (owner : Address) (task : κ.Task) :
    (p.registerTask owner task).2.Pending i e ↔
      (i = p.nextTask ∧ e = ⟨owner, (p.generation? owner).getD 0, none⟩) ∨
        (i ≠ p.nextTask ∧ p.Pending i e) := by
  have hentries : (p.registerTask owner task).2.entries =
      (p.entries.retain fun _ e => e.owner != owner || e.outcome.isNone).insert p.nextTask
        ⟨owner, (p.generation? owner).getD 0, none⟩ := rfl
  unfold Pending
  rw [hentries]
  constructor
  · rintro ⟨he, ho⟩
    rcases Table.get?_insert_eq_some.mp he with ⟨rfl, rfl⟩ | ⟨hne, he⟩
    · exact Or.inl ⟨rfl, rfl⟩
    · exact Or.inr ⟨hne, get?_of_retain he, ho⟩
  · rintro (⟨rfl, rfl⟩ | ⟨hne, he, ho⟩)
    · exact ⟨Table.get?_insert_eq_some.mpr (Or.inl ⟨rfl, rfl⟩), rfl⟩
    · exact ⟨Table.get?_insert_eq_some.mpr (Or.inr ⟨hne, get?_retain_unsettled he ho⟩), ho⟩

/-- After registering a task (`registerTask`), its owner waits for it, and everybody for what they
waited for. -/
theorem awaits_register (task : κ.Task) : (p.registerTask a task).2.Awaits b i ↔
    (b = a ∧ i = p.nextTask) ∨ p.Awaits b i := by
  have hblocked : (p.registerTask a task).2.blocked =
      p.blocked.insert a (KeySet.put ((p.blocked.get? a).getD ∅) p.nextTask) := rfl
  unfold Awaits
  rw [hblocked]
  constructor
  · rintro ⟨ids, hids, hi⟩
    rcases Table.get?_insert_eq_some.mp hids with ⟨rfl, rfl⟩ | ⟨-, hids⟩
    · rcases Table.contains_put.mp hi with rfl | hi
      · exact Or.inl ⟨rfl, rfl⟩
      · cases hold : p.blocked.get? b with
        | none =>
          rw [hold] at hi
          exact absurd hi (by simp [EmptyCollection.emptyCollection])
        | some old =>
          rw [hold] at hi
          exact Or.inr ⟨old, rfl, hi⟩
    · exact Or.inr ⟨ids, hids, hi⟩
  · rintro (⟨rfl, rfl⟩ | ⟨ids, hids, hi⟩)
    · exact ⟨_, Table.get?_insert_eq_some.mpr (Or.inl ⟨rfl, rfl⟩),
        Table.contains_put.mpr (Or.inl rfl)⟩
    · by_cases hb : b = a
      · subst hb
        refine ⟨_, Table.get?_insert_eq_some.mpr (Or.inl ⟨rfl, rfl⟩),
          Table.contains_put.mpr (Or.inr ?_)⟩
        rw [hids]
        exact hi
      · exact ⟨ids, Table.get?_insert_eq_some.mpr (Or.inr ⟨hb, hids⟩), hi⟩

/-- **Registering a task** (`registerTask`) is a `Registration`. -/
theorem registration (p : Platform κ) (owner : Address) (task : κ.Task) :
    Registration p owner task (p.registerTask owner task).2 where
  next := rfl
  tasks := rfl
  pending _ _ := pending_register p owner task
  awaits _ _ := awaits_register task
  contexts := rfl
  raised := rfl
  registered := Bus.tasksOf_publish _ _ _
  settled := (Bus.tasksOf_publish _ _ _).trans (List.append_nil _)

theorem Change.registering (h : Change V p q) : Registering V p q := by
  cases h with
  | step h =>
    rcases h.records with hr | hr | ⟨a, rfl⟩
    · exact .single (Or.inl hr.aside)
    · obtain ⟨a, task, rfl⟩ := hr
      exact .single (Or.inr ⟨a, task, registration p a task⟩)
    · exact .single (Or.inl (.dismiss p a))
  | loan h => exact .single (Or.inl h.records.aside)
  | announce h => exact .single (Or.inl (.announce h))

/-- **Work but that on tasks** (`Rounds`) registers tasks, one after the other, and does other
things. -/
theorem Rounds.registering (h : Rounds V p q) : Registering V p q := by
  induction h with
  | refl => exact .refl
  | tail _ h ih =>
    refine Relation.ReflTransGen.trans ih (h.elim Change.registering fun h => ?_)
    exact .single (Or.inl h.records.aside)

/-- **Registering** hands out new numbers, and leaves the tasks with old ones as they are
(`Pending`). -/
theorem Registering.kept (h : Registering V p q) : p.nextTask ≤ q.nextTask ∧
    ∀ id e, id < p.nextTask → (q.Pending id e ↔ p.Pending id e) := by
  induction h with
  | refl => exact ⟨Nat.le_refl _, fun _ _ _ => Iff.rfl⟩
  | @tail r q _ h ih =>
    rcases h with h | ⟨owner, task, h⟩
    · exact ⟨h.next ▸ ih.1, fun id e hid => (h.pending id e).trans (ih.2 id e hid)⟩
    · refine ⟨h.next ▸ Nat.le_succ_of_le ih.1, fun id e hid => ?_⟩
      have hne : id ≠ r.nextTask := Nat.ne_of_lt (Nat.lt_of_lt_of_le hid ih.1)
      rw [h.pending, ← ih.2 id e hid]
      simp [hne]

/-! ## Asking -/

/-- What tasks have answered (`Outcome`). -/
abbrev Heard := Nat → Outcome → Prop

/-- The task that is first in line is asked. It queues again, unless its answer is among `H`. -/
inductive Asking (H : Heard) (p : Platform κ) : Platform κ → Prop
  | again {id : Nat} {t t' : κ.Task} {rest : List (Nat × κ.Task)} :
      p.tasks = (id, t) :: rest → Asking H p { p with tasks := rest ++ [(id, t')] }
  | ready {id : Nat} {t : κ.Task} {rest : List (Nat × κ.Task)} {o : Outcome} :
      p.tasks = (id, t) :: rest → H id o → Asking H p { p with tasks := rest }

/-- Asking (`Asking`) changes what is asked, and nothing else. -/
theorem Asking.eq {H : Heard} (h : Asking H p q) : ∃ tasks, q = { p with tasks } := by
  cases h <;> exact ⟨_, rfl⟩

theorem Asking.mono {H K : Heard} (h : Asking H p q) (hK : ∀ id o, H id o → K id o) :
    Asking K p q := by
  cases h with
  | again htasks => exact .again htasks
  | ready htasks ho => exact .ready htasks (hK _ _ ho)

/-- Pending tasks are asked (`taskIds`), or have answered (`Heard`). -/
def Accounted (H : Heard) (p : Platform κ) : Prop :=
  ∀ id e, p.Pending id e → id ∈ p.taskIds ∨ ∃ o, H id o

theorem Accounted.mono {H K : Heard} (h : Accounted H p) (hK : ∀ id o, H id o → K id o) :
    Accounted K p :=
  fun id e hp => (h id e hp).imp_right fun ⟨o, ho⟩ => ⟨o, hK id o ho⟩

theorem Accounted.registering {H : Heard} (h : Accounted H p) (hr : Registering V p q) :
    Accounted H q := by
  induction hr with
  | refl => exact h
  | tail _ hstep ih =>
    rcases hstep with ha | ⟨owner, task, hr⟩
    · intro id e hp
      rw [ha.asked]
      exact ih id e ((ha.pending id e).mp hp)
    · intro id e hp
      rw [taskIds, hr.tasks, List.map_append, List.mem_append]
      rcases (hr.pending id e).mp hp with ⟨rfl, -⟩ | ⟨-, hp⟩
      · exact Or.inl (Or.inr List.mem_cons_self)
      · exact (ih id e hp).imp_left Or.inl

theorem Accounted.asking {H : Heard} (h : Accounted H p) (ha : Asking H p q) : Accounted H q := by
  intro id e hp
  cases ha with
  | @again i t t' rest htasks =>
    refine (h id e hp).imp_left fun hid => ?_
    rw [taskIds, htasks] at hid
    show id ∈ (rest ++ [(i, t')]).map Prod.fst
    rw [List.map_append]
    exact (List.perm_append_singleton _ _).mem_iff.mpr hid
  | @ready i t rest o htasks ho =>
    refine (h id e hp).elim (fun hid => ?_) Or.inr
    rw [taskIds, htasks] at hid
    rcases List.mem_cons.mp hid with rfl | hid
    · exact Or.inr ⟨o, ho⟩
    · exact Or.inl hid

/-! ## Settling -/

/-- What settling a task (`settle`) changes. -/
structure Settlement (p : Platform κ) (id : Nat) (o : Outcome) (e : TaskEntry) (q : Platform κ) :
    Prop where
  pending : p.Pending id e
  finished : id ∉ p.taskIds
  contexts : q.contexts = p.contexts
  raised : q.raised = p.raised
  tasks : q.tasks = p.tasks
  next : q.nextTask = p.nextTask
  /-- The outcome is noted if the incarnation that registered the task is alive. If it is not, the
  entry is gone. -/
  entry : q.entries.get? id =
    if p.isCurrent e.owner e.generation then some { e with outcome := some o } else none
  others : ∀ i, i ≠ id → q.entries.get? i = p.entries.get? i
  /-- Its owner does not wait for the task any more. Nobody stops waiting for another. -/
  awaits : ∀ a i, q.Awaits a i ↔ p.Awaits a i ∧ ¬ (a = e.owner ∧ i = id)
  registered : q.bus.registered = p.bus.registered
  settled : q.bus.settled = p.bus.settled ++ [id]

/-- An address that has been freed from a task (`unblock`) waits for the others still. -/
theorem awaits_unblock : (p.unblock a id).Awaits b i ↔ p.Awaits b i ∧ ¬ (b = a ∧ i = id) := by
  unfold Awaits
  rw [blocked_unblock]
  by_cases hb : b = a
  · subst hb
    rw [if_pos rfl]
    constructor
    · rintro ⟨ids, hids, hi⟩
      obtain ⟨old, hold, rfl⟩ := Option.map_eq_some_iff.mp (Option.filter_eq_some_iff.mp hids).1
      obtain ⟨hne, hi⟩ := Table.contains_erase.mp hi
      exact ⟨⟨old, hold, hi⟩, fun h => hne h.2⟩
    · rintro ⟨⟨old, hold, hi⟩, hne⟩
      have hrest : (old.erase id).contains i = true :=
        Table.contains_erase.mpr ⟨fun h => hne ⟨rfl, h⟩, hi⟩
      refine ⟨old.erase id, Option.filter_eq_some_iff.mpr ⟨by rw [hold, Option.map_some], ?_⟩, hrest⟩
      rw [Table.isEmpty_of_contains hrest]
      rfl
  · rw [if_neg hb]
    simp [hb]

/-- **Settling** (`settle`) a pending task that is not asked any more. It answers the owner if the
incarnation that registered the task is alive. -/
theorem settlement (o : Outcome) (hp : p.Pending id e) (hid : id ∉ p.taskIds) :
    Settlement p id o e (p.settle id o).2 ∧
      (p.settle id o).1 = if p.isCurrent e.owner e.generation then some e.owner else none := by
  obtain ⟨reason, hs⟩ := settle_some o hp.1
  obtain ⟨blocked, runQueue, waitQueue, hu⟩ := unblock_eq p e.owner id
  have hfreed (a : Address) (i : Nat) : (p.settle id o).2.Awaits a i ↔
      (p.unblock e.owner id).Awaits a i := by
    rw [hs]
    exact Iff.rfl
  have hentries := get?_settle o hp.1
  rw [hs, hu] at hentries ⊢
  refine ⟨⟨hp, hid, rfl, rfl, rfl, rfl, ?_, fun i hi => ?_, fun a i => ?_, ?_, ?_⟩, rfl⟩
  · exact (hentries id).trans (if_pos rfl)
  · exact (hentries i).trans (if_neg hi)
  · rw [hs, hu] at hfreed
    rw [hfreed, ← hu]
    exact awaits_unblock
  · exact (Bus.tasksOf_publish _ _ _).trans (List.append_nil _)
  · exact Bus.tasksOf_publish _ _ _

/-- After settling a task, the others are pending as before (`Pending`). -/
theorem Settlement.pending_iff (h : Settlement p id o e q) :
    q.Pending i entry ↔ i ≠ id ∧ p.Pending i entry := by
  unfold Pending
  by_cases hi : i = id
  · subst hi
    rw [h.entry]
    constructor
    · rintro ⟨hentry, ho⟩
      split at hentry
      · exact absurd ((congrArg TaskEntry.outcome (Option.some.inj hentry)).trans ho) (by simp)
      · exact absurd hentry (by simp)
    · exact fun h => absurd rfl h.1
  · rw [h.others i hi]
    exact ⟨fun h => ⟨hi, h⟩, And.right⟩

theorem Accounted.settlement {H : Heard} (h : Accounted H p) (hs : Settlement p id o e q) :
    Accounted H q := by
  intro i e' hp
  rw [taskIds, hs.tasks]
  exact h i e' (hs.pending_iff.mp hp).2

/-! ## What is told -/

/-- What the bus has told of tasks (`Bus.registered`, `Bus.settled`) is what happened. -/
structure Journal (p : Platform κ) : Prop where
  first : 0 < p.nextTask
  /-- Each task up to the last was registered once, in order. -/
  registered : p.bus.registered = List.range' 1 (p.nextTask - 1)
  /-- No task was settled twice. -/
  settled : p.bus.settled.Nodup
  /-- A task that was registered was settled, or it is pending. -/
  known : ∀ id, id ∈ p.bus.registered ↔ id ∈ p.bus.settled ∨ ∃ e, p.Pending id e
  /-- Not both. -/
  apart : ∀ id e, p.Pending id e → id ∉ p.bus.settled

theorem Journal.aside (h : p.Journal) (ha : Aside V p q) (hV : ∀ e, V e → e.isOfTask = false) :
    q.Journal := by
  have htold := ha.told hV
  refine ⟨ha.next ▸ h.first, ?_, htold.settled ▸ h.settled, fun id => ?_, fun id e hp => ?_⟩
  · rw [htold.registered, ha.next, h.registered]
  · rw [htold.registered, htold.settled, h.known id]
    simp only [ha.pending]
  · rw [htold.settled]
    exact h.apart id e ((ha.pending id e).mp hp)

/-- **The journal is kept** when a task is registered (`Registration`). -/
theorem Journal.registration {owner : Address} {task : κ.Task} (h : p.Journal)
    (hr : Registration p owner task q) : q.Journal := by
  have hnew : p.nextTask ∉ p.bus.settled := by
    intro hid
    have hold := (h.known _).mpr (Or.inl hid)
    rw [h.registered, List.mem_range'_1] at hold
    have hfirst := h.first
    omega
  refine ⟨hr.next ▸ Nat.succ_pos _, ?_, hr.settled ▸ h.settled, fun id => ?_, fun id e hp => ?_⟩
  · rw [hr.registered, hr.next, h.registered, Nat.add_sub_cancel]
    have hlast : List.range' 1 (p.nextTask - 1 + 1) =
        List.range' 1 (p.nextTask - 1) ++ [1 + (p.nextTask - 1)] := List.range'_1_concat
    rw [Nat.add_sub_cancel' h.first, Nat.sub_add_cancel h.first] at hlast
    exact hlast.symm
  · rw [hr.registered, hr.settled, List.mem_append, List.mem_singleton, h.known id]
    simp only [hr.pending]
    by_cases hid : id = p.nextTask
    · simp [hid]
    · simp [hid]
  · rw [hr.settled]
    rcases (hr.pending id e).mp hp with ⟨rfl, -⟩ | ⟨-, hp⟩
    · exact hnew
    · exact h.apart id e hp

/-- **The journal is kept** by work but that on tasks (`Registering`). -/
theorem Journal.registering (h : p.Journal) (hr : Registering V p q)
    (hV : ∀ e, V e → e.isOfTask = false) : q.Journal := by
  induction hr with
  | refl => exact h
  | tail _ hstep ih =>
    rcases hstep with ha | ⟨owner, task, hr⟩
    · exact ih.aside ha hV
    · exact ih.registration hr

/-- **The journal is kept** when a task is asked (`Asking`). -/
theorem Journal.asking {H : Heard} (h : p.Journal) (ha : Asking H p q) : q.Journal := by
  obtain ⟨_, rfl⟩ := ha.eq
  exact ⟨h.first, h.registered, h.settled, h.known, h.apart⟩

/-- **The journal is kept** when a task is settled (`Settlement`). -/
theorem Journal.settlement (h : p.Journal) (hs : Settlement p id o e q) : q.Journal := by
  have hnew := h.apart id e hs.pending
  refine ⟨hs.next ▸ h.first, ?_, ?_, fun i => ?_, fun i e' hp => ?_⟩
  · rw [hs.registered, hs.next, h.registered]
  · rw [hs.settled]
    exact List.nodup_append.mpr ⟨h.settled, List.nodup_singleton id, by
      rintro i hi j hj rfl
      exact hnew (List.mem_singleton.mp hj ▸ hi)⟩
  · rw [hs.registered, hs.settled, List.mem_append, List.mem_singleton, h.known i]
    simp only [hs.pending_iff]
    by_cases hi : i = id
    · subst hi
      exact ⟨fun _ => Or.inl (Or.inr rfl), fun _ => Or.inr ⟨e, hs.pending⟩⟩
    · simp [hi]
  · obtain ⟨hi, hp⟩ := hs.pending_iff.mp hp
    rw [hs.settled, List.mem_append, List.mem_singleton, not_or]
    exact ⟨h.apart i e' hp, hi⟩

/-- Where no task is pending, each that was registered was settled (`Bus.registered`,
`Bus.settled`). -/
theorem Journal.perm (h : p.Journal) (hidle : ∀ id e, ¬ p.Pending id e) :
    p.bus.settled.Perm p.bus.registered := by
  refine (List.perm_ext_iff_of_nodup h.settled (h.registered ▸ List.nodup_range')).mpr fun id => ?_
  rw [h.known id]
  simp [hidle]

end Troupe.Platform
