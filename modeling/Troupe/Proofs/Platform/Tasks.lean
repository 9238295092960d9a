import Mathlib.Data.List.Nodup
import Troupe.Proofs.Platform.Step

/-!
# Tasks and who waits for them

`TaskInv` says that the records of the tasks are in order: tasks that are asked (`taskIds`) have
unsettled entries, and an address is blocked by unsettled tasks of its own only, and by one at
least.

`Unpolled p hand` is the other half: an unsettled task is among those that are asked, or it is the
one in hand, finished and about to be settled. Settling it empties the hand (`Unpolled.settle`).

What `registerTask`, `unblock` and `settle` do to the records is said by `register_records`,
`blocked_unblock` and `get?_settle`. A settled entry may be forgotten, an unsettled one is not
(`get?_retain_unsettled`).

Headlines:
* **`TaskInv.step`**, **`TaskInv.loan`**, **`TaskInv.turning`**, **`TaskInv.dealing`**: all work
  keeps the records in order.
* **`Step.records`**, **`Turning.records`**: work but that on tasks registers a task, dismisses an
  actor, or leaves the records alone (`SameRecords`).
* **`not_isBlocked_of_tasks`**: a platform that asks no task any more blocks nobody.
-/

namespace Troupe.Platform

variable {κ : App} {p q : Platform κ} {a b : Address} {id : Nat} {hand : Option Nat}

/-- The records of the tasks are in order (`Platform.entries`, `Platform.blocked`,
`Platform.tasks`). -/
structure TaskInv (p : Platform κ) : Prop where
  nodup : p.taskIds.Nodup
  recorded : ∀ id ∈ p.taskIds, ∃ owner, p.Unsettled id owner
  /-- Who is blocked waits for a task. -/
  held : ∀ a ids, p.blocked.get? a = some ids → ids.isEmpty = false
  waited : ∀ a ids, p.blocked.get? a = some ids → ∀ id, ids.contains id = true → p.Unsettled id a
  fresh : ∀ id e, p.entries.get? id = some e → id < p.nextTask

theorem TaskInv.new (config : Config) (trap : Option κ.Trap) :
    (Platform.new config trap).TaskInv where
  nodup := List.nodup_nil
  recorded _ h := nomatch h
  held _ _ h := nomatch h
  waited _ _ h := nomatch h
  fresh _ _ h := nomatch h

theorem Unpolled.new (config : Config) (trap : Option κ.Trap) :
    (Platform.new config trap).Unpolled none := by
  rintro id owner ⟨e, he, -⟩
  exact nomatch he

/-- The invariant speaks of tasks, entries and blocked sets only. -/
theorem TaskInv.congr (h : p.TaskInv) (ht : q.tasks = p.tasks) (he : q.entries = p.entries)
    (hb : q.blocked = p.blocked) (hn : q.nextTask = p.nextTask) : q.TaskInv where
  nodup := by rw [taskIds, ht]; exact h.nodup
  recorded := by rw [taskIds, ht]; unfold Unsettled; rw [he]; exact h.recorded
  held := by rw [hb]; exact h.held
  waited := by rw [hb]; unfold Unsettled; rw [he]; exact h.waited
  fresh := by rw [he, hn]; exact h.fresh

theorem Unpolled.congr (h : p.Unpolled hand) (ht : q.tasks = p.tasks) (he : q.entries = p.entries) :
    q.Unpolled hand := by
  unfold Unpolled Unsettled taskIds
  rw [ht, he]
  exact h

/-! ## Registering and forgetting -/

/-- What an address no longer wants to know of (`forget`) are settled tasks. -/
theorem get?_retain_unsettled {t : Table Nat TaskEntry} {e : TaskEntry}
    (h : t.get? id = some e) (ho : e.outcome = none) :
    (t.retain fun _ e => e.owner != a || e.outcome.isNone).get? id = some e := by
  rw [Table.get?_retain, h]
  simp [Option.filter, ho]

theorem get?_of_retain {t : Table Nat TaskEntry} {f : Nat → TaskEntry → Bool} {e : TaskEntry}
    (h : (t.retain f).get? id = some e) : t.get? id = some e := by
  rw [Table.get?_retain, Option.filter_eq_some_iff] at h
  exact h.1

/-- What registering a task does to the records (`registerTask`). -/
theorem register_records (p : Platform κ) (a : Address) (task : κ.Task) :
    ∃ entry : TaskEntry, entry.owner = a ∧ entry.outcome = none ∧
      (p.registerTask a task).2.entries =
        (p.entries.retain fun _ e => e.owner != a || e.outcome.isNone).insert p.nextTask entry ∧
      (p.registerTask a task).2.taskIds = p.taskIds ++ [p.nextTask] ∧
      (p.registerTask a task).2.blocked =
        p.blocked.insert a (KeySet.put ((p.blocked.get? a).getD ∅) p.nextTask) ∧
      (p.registerTask a task).2.nextTask = p.nextTask + 1 := by
  refine ⟨⟨a, (p.generation? a).getD 0, none⟩, rfl, rfl, rfl, ?_, rfl, rfl⟩
  simp [taskIds, registerTask, publish]

theorem Unsettled.lt (h : p.TaskInv) {owner : Address} (hu : p.Unsettled id owner) :
    id < p.nextTask := by
  obtain ⟨e, he, -⟩ := hu
  exact h.fresh id e he

theorem Unsettled.register (h : p.TaskInv) (task : κ.Task) {owner : Address}
    (hu : p.Unsettled id owner) : (p.registerTask a task).2.Unsettled id owner := by
  have hne : id ≠ p.nextTask := Nat.ne_of_lt (hu.lt h)
  obtain ⟨e, he, ho, howner⟩ := hu
  obtain ⟨_, -, -, hentries, -⟩ := register_records p a task
  refine ⟨e, ?_, ho, howner⟩
  rw [hentries, Table.get?_insert, if_neg hne]
  exact get?_retain_unsettled he ho

theorem TaskInv.register (h : p.TaskInv) (a : Address) (task : κ.Task) :
    (p.registerTask a task).2.TaskInv := by
  obtain ⟨entry, howner, hout, hentries, hids, hblocked, hnext⟩ := register_records p a task
  have hnew : (p.registerTask a task).2.Unsettled p.nextTask a :=
    ⟨entry, by rw [hentries, Table.get?_insert, if_pos rfl], hout, howner⟩
  constructor
  case nodup =>
    rw [hids]
    refine List.nodup_append.mpr ⟨h.nodup, List.nodup_singleton _, fun x hx y hy => ?_⟩
    obtain rfl := List.mem_singleton.mp hy
    obtain ⟨owner, hu⟩ := h.recorded x hx
    exact Nat.ne_of_lt (hu.lt h)
  case recorded =>
    intro i hi
    rw [hids] at hi
    rcases List.mem_append.mp hi with hi | hi
    · obtain ⟨owner, hu⟩ := h.recorded i hi
      exact ⟨owner, hu.register h task⟩
    · obtain rfl := List.mem_singleton.mp hi
      exact ⟨a, hnew⟩
  case held =>
    intro x ids hx
    rw [hblocked] at hx
    rcases Table.get?_insert_eq_some.mp hx with ⟨-, rfl⟩ | ⟨-, hx⟩
    · exact Table.isEmpty_put _ _
    · exact h.held x ids hx
  case waited =>
    intro x ids hx i hi
    rw [hblocked] at hx
    rcases Table.get?_insert_eq_some.mp hx with ⟨rfl, rfl⟩ | ⟨-, hx⟩
    · rcases Table.contains_put.mp hi with rfl | hi
      · exact hnew
      · cases ho : p.blocked.get? x with
        | none =>
          rw [ho] at hi
          exact absurd hi (by simp [EmptyCollection.emptyCollection])
        | some old =>
          rw [ho] at hi
          exact (h.waited x old ho i hi).register h task
    · exact (h.waited x ids hx i hi).register h task
  case fresh =>
    intro i e he
    rw [hnext]
    rw [hentries] at he
    rcases Table.get?_insert_eq_some.mp he with ⟨rfl, -⟩ | ⟨-, he⟩
    · exact Nat.lt_succ_self _
    · exact Nat.lt_succ_of_lt (h.fresh i e (get?_of_retain he))

theorem Unpolled.register (h : p.Unpolled hand) (a : Address) (task : κ.Task) :
    (p.registerTask a task).2.Unpolled hand := by
  obtain ⟨_, -, -, hentries, hids, -, -⟩ := register_records p a task
  rintro i owner ⟨e, he, ho, howner⟩
  rw [hids]
  rw [hentries] at he
  rcases Table.get?_insert_eq_some.mp he with ⟨hi, -⟩ | ⟨-, he⟩
  · exact Or.inl (List.mem_append_right _ (List.mem_singleton.mpr hi))
  · exact (h i owner ⟨e, get?_of_retain he, ho, howner⟩).imp_left (List.mem_append_left _)

theorem TaskInv.dismiss (h : p.TaskInv) (a : Address) : (p.dismiss a).TaskInv := by
  obtain ⟨queued, waitQueue, hq, -⟩ := dismiss_eq p a
  rw [hq]
  have hu (i : Nat) (owner : Address) (hi : p.Unsettled i owner) :
      ∃ e, (p.entries.retain fun _ e => e.owner != a || e.outcome.isNone).get? i = some e ∧
        e.outcome = none ∧ e.owner = owner := by
    obtain ⟨e, he, ho, howner⟩ := hi
    exact ⟨e, get?_retain_unsettled he ho, ho, howner⟩
  have hb (x : Address) (ids : KeySet Nat) (hx : (p.blocked.erase a).get? x = some ids) :
      p.blocked.get? x = some ids :=
    (Table.get?_erase_eq_some.mp hx).2
  constructor
  case nodup => exact h.nodup
  case recorded =>
    intro i hi
    obtain ⟨owner, ho⟩ := h.recorded i hi
    exact ⟨owner, hu i owner ho⟩
  case held => exact fun x ids hx => h.held x ids (hb x ids hx)
  case waited => exact fun x ids hx i hi => hu i x (h.waited x ids (hb x ids hx) i hi)
  case fresh => exact fun i e he => h.fresh i e (get?_of_retain he)

theorem Unpolled.dismiss (h : p.Unpolled hand) (a : Address) : (p.dismiss a).Unpolled hand := by
  obtain ⟨_, _, hq, -⟩ := dismiss_eq p a
  rw [hq]
  rintro i owner ⟨e, he, ho, howner⟩
  exact h i owner ⟨e, get?_of_retain he, ho, howner⟩

/-! ## Asking and settling -/

/-- For whom an address waits when it has been freed from a task (`unblock`): for what is left, if
anything is. -/
theorem blocked_unblock :
    (p.unblock a id).blocked.get? b =
      if b = a then ((p.blocked.get? a).map (·.erase id)).filter fun ids => !ids.isEmpty
      else p.blocked.get? b := by
  unfold unblock
  split
  · rename_i hnone
    split
    · rename_i hb
      rw [hb, hnone]
      rfl
    · rfl
  · rename_i old hold
    rw [hold, Option.map_some]
    dsimp only
    cases hrest : (old.erase id).isEmpty with
    | false =>
      rw [Option.filter_some_pos (by simp [hrest])]
      exact Table.get?_insert _ _ _ _
    | true =>
      rw [Option.filter_some_neg (by simp [hrest])]
      rw [if_neg (by simp)]
      split <;> exact Table.get?_erase _ _ _

/-- What is on record after a task has been settled (`settle`). -/
theorem get?_settle {e : TaskEntry} (o : Outcome) (he : p.entries.get? id = some e) (i : Nat) :
    (p.settle id o).2.entries.get? i =
      if i = id then
        if p.isCurrent e.owner e.generation then some { e with outcome := some o } else none
      else p.entries.get? i := by
  obtain ⟨_, hs⟩ := settle_some o he
  rw [hs]
  dsimp only
  have hinsert : (p.entries.insert id { e with outcome := some o }).get? i =
      if i = id then some { e with outcome := some o } else p.entries.get? i :=
    Table.get?_insert _ _ _ _
  split
  · exact hinsert
  · rw [Table.get?_erase, hinsert]
    split <;> rfl

/-- After settling a task, the unsettled ones are the others (`Unsettled`). -/
theorem unsettled_settle {e : TaskEntry} (o : Outcome) (he : p.entries.get? id = some e)
    {i : Nat} {owner : Address} :
    (p.settle id o).2.Unsettled i owner ↔ i ≠ id ∧ p.Unsettled i owner := by
  unfold Unsettled
  rw [get?_settle o he]
  by_cases hi : i = id
  · rw [if_pos hi]
    split <;> simp [hi]
  · rw [if_neg hi]
    simp [hi]

theorem TaskInv.settle (h : p.TaskInv) (o : Outcome) (hid : id ∉ p.taskIds) :
    (p.settle id o).2.TaskInv := by
  cases he : p.entries.get? id with
  | none =>
    rw [settle_none o he]
    exact h
  | some entry =>
    have hids : (p.settle id o).2.taskIds = p.taskIds := by
      obtain ⟨_, _, _, _, _, hq⟩ := settle_eq p id o
      rw [hq]
      rfl
    have hnext : (p.settle id o).2.nextTask = p.nextTask := by
      obtain ⟨_, _, _, _, _, hq⟩ := settle_eq p id o
      rw [hq]
    have hblocked : (p.settle id o).2.blocked = (p.unblock entry.owner id).blocked := by
      obtain ⟨_, hs⟩ := settle_some o he
      rw [hs]
    constructor
    case nodup => exact hids ▸ h.nodup
    case recorded =>
      intro i hi
      rw [hids] at hi
      obtain ⟨owner, hu⟩ := h.recorded i hi
      exact ⟨owner, (unsettled_settle o he).mpr ⟨fun hii => hid (hii ▸ hi), hu⟩⟩
    case held =>
      intro x ids hx
      rw [hblocked, blocked_unblock] at hx
      split at hx
      · simpa using (Option.filter_eq_some_iff.mp hx).2
      · exact h.held x ids hx
    case waited =>
      intro x ids hx i hi
      rw [hblocked, blocked_unblock] at hx
      split at hx
      · rename_i hxo
        subst hxo
        obtain ⟨old, hold, rfl⟩ := Option.map_eq_some_iff.mp (Option.filter_eq_some_iff.mp hx).1
        obtain ⟨hne, hi⟩ := Table.contains_erase.mp hi
        exact (unsettled_settle o he).mpr ⟨hne, h.waited _ old hold i hi⟩
      · rename_i hxo
        have hu := h.waited x ids hx i hi
        refine (unsettled_settle o he).mpr ⟨?_, hu⟩
        -- whoever waited for the settled task owned it
        rintro rfl
        obtain ⟨e, he', -, howner⟩ := hu
        obtain rfl := Option.some.inj (he'.symm.trans he)
        exact hxo howner.symm
    case fresh =>
      intro i e hi
      rw [hnext]
      rw [get?_settle o he] at hi
      split at hi
      · rename_i hid
        exact hid ▸ h.fresh id entry he
      · exact h.fresh i e hi

/-- Settling the task in hand empties the hand (`Unpolled`). -/
theorem Unpolled.settle (h : p.Unpolled (some id)) (o : Outcome) :
    (p.settle id o).2.Unpolled none := by
  intro i owner hu
  cases he : p.entries.get? id with
  | none =>
    rw [settle_none o he] at hu ⊢
    refine (h i owner hu).imp_right fun hi => ?_
    obtain rfl := Option.some.inj hi
    obtain ⟨e, he', -⟩ := hu
    exact absurd (he.symm.trans he') (by simp)
  | some entry =>
    obtain ⟨hne, hu⟩ := (unsettled_settle o he).mp hu
    obtain ⟨_, _, _, _, _, hq⟩ := settle_eq p id o
    rw [hq]
    exact (h i owner hu).imp_right fun hi => absurd (Option.some.inj hi).symm hne

theorem TaskInv.poll {t t' : κ.Task} {rest : List (Nat × κ.Task)} (h : p.TaskInv)
    (ht : p.tasks = (id, t) :: rest) : TaskInv { p with tasks := rest ++ [(id, t')] } := by
  have hids : p.taskIds = id :: rest.map Prod.fst := by rw [taskIds, ht, List.map_cons]
  have hperm : ((rest ++ [(id, t')]).map Prod.fst).Perm p.taskIds := by
    rw [hids, List.map_append]
    exact List.perm_append_singleton _ _
  exact
    { h with
      nodup := hperm.nodup_iff.mpr h.nodup
      recorded := fun i hi => h.recorded i (hperm.mem_iff.mp hi) }

theorem Unpolled.poll {t t' : κ.Task} {rest : List (Nat × κ.Task)} (h : p.Unpolled hand)
    (ht : p.tasks = (id, t) :: rest) : Unpolled { p with tasks := rest ++ [(id, t')] } hand := by
  have hids : p.taskIds = id :: rest.map Prod.fst := by rw [taskIds, ht, List.map_cons]
  intro i owner hu
  refine (h i owner hu).imp_left fun hi => ?_
  rw [hids] at hi
  show i ∈ (rest ++ [(id, t')]).map Prod.fst
  rw [List.map_append]
  exact (List.perm_append_singleton _ _).mem_iff.mpr hi

theorem TaskInv.take {t : κ.Task} {rest : List (Nat × κ.Task)} (h : p.TaskInv)
    (ht : p.tasks = (id, t) :: rest) : TaskInv { p with tasks := rest } := by
  have hids : p.taskIds = id :: rest.map Prod.fst := by rw [taskIds, ht, List.map_cons]
  have hnodup := h.nodup
  have hrec := h.recorded
  rw [hids] at hnodup hrec
  exact
    { h with
      nodup := (List.nodup_cons.mp hnodup).2
      recorded := fun i hi => hrec i (List.mem_cons_of_mem _ hi) }

/-- A finished task is taken in hand (`Unpolled`), and it is asked no more. -/
theorem Unpolled.take {t : κ.Task} {rest : List (Nat × κ.Task)} (h : p.Unpolled none)
    (hp : p.TaskInv) (ht : p.tasks = (id, t) :: rest) :
    Unpolled { p with tasks := rest } (some id) ∧ id ∉ rest.map Prod.fst := by
  have hids : p.taskIds = id :: rest.map Prod.fst := by rw [taskIds, ht, List.map_cons]
  refine ⟨fun i owner hu => ?_, (List.nodup_cons.mp (hids ▸ hp.nodup)).1⟩
  rcases h i owner hu with hi | hi
  · rw [hids] at hi
    rcases List.mem_cons.mp hi with rfl | hi
    · exact Or.inr rfl
    · exact Or.inl hi
  · exact absurd hi (by simp)

/-! ## The invariant is kept -/

/-- The records of the tasks are the same, and nothing was told of tasks (`Bus.SameTold`). -/
structure SameRecords (p q : Platform κ) : Prop where
  tasks : q.tasks = p.tasks
  entries : q.entries = p.entries
  blocked : q.blocked = p.blocked
  next : q.nextTask = p.nextTask
  told : p.bus.SameTold q.bus

/-- **Steps and tasks**: a step registers a task (`registerTask`), dismisses an actor, or leaves the
records alone. -/
theorem Step.records (h : Step p q) : SameRecords p q ∨
    (∃ a task, q = (p.registerTask a task).2) ∨ ∃ a, q = p.dismiss a := by
  have mailed (p : Platform κ) (a : Address) : SameRecords p (p.scheduleMail a) := by
    obtain ⟨_, _, _, _, h⟩ := scheduleMail_eq p a
    rw [h]
    exact ⟨rfl, rfl, rfl, rfl, .refl _⟩
  cases h with
  | publish he => exact Or.inl ⟨rfl, rfl, rfl, rfl, .publish _ he⟩
  | raise | enrol => exact Or.inl ⟨rfl, rfl, rfl, rfl, .publish _ rfl⟩
  | fail | stop | reroute | takeMail | backlog | returnActor =>
    exact Or.inl ⟨rfl, rfl, rfl, rfl, .refl _⟩
  | join group a =>
    obtain ⟨_, _, hq, -, htold⟩ := putMember_eq p group a
    rw [hq]
    exact Or.inl ⟨rfl, rfl, rfl, rfl, htold⟩
  | dismiss => exact Or.inr (Or.inr ⟨_, rfl⟩)
  | mail a env =>
    obtain ⟨h₁, h₂, h₃, h₄, h₅⟩ := mailed (p.putMail a env) a
    exact Or.inl ⟨h₁, h₂, h₃, h₄, h₅⟩
  | arm a t =>
    obtain ⟨h₁, h₂, h₃, h₄, h₅⟩ := mailed
      (p.modifyContext a fun c => { c with receivers := ⟨t, false⟩ :: c.receivers }) a
    exact Or.inl ⟨h₁, h₂, h₃, h₄, h₅⟩
  | look a => exact Or.inl (mailed p a)
  | takeMatch h =>
    obtain ⟨_, _, _, _, _, _, _, _, _, rfl⟩ := takeMatch_eq h
    exact Or.inl ⟨rfl, rfl, rfl, rfl, .refl _⟩
  | @returnMachine m _ _ =>
    obtain ⟨_, _, _, hq⟩ :=
      enqueue_eq (p.modifyContext m.address fun c => { c with machine := some m }) m.address
    rw [hq]
    exact Or.inl ⟨rfl, rfl, rfl, rfl, .refl _⟩
  | register a task => exact Or.inr (Or.inl ⟨a, task, rfl⟩)

theorem Loan.records (h : Loan p q) : SameRecords p q := by
  cases h <;> exact ⟨rfl, rfl, rfl, rfl, .refl _⟩

/-- **Turning and tasks**: turning leaves the records alone (`SameRecords`). -/
theorem Turning.records (h : Turning p q) : SameRecords p q := by
  cases h with
  | judge => exact ⟨rfl, rfl, rfl, rfl, .refl _⟩
  | hear htold => exact ⟨rfl, rfl, rfl, rfl, htold⟩
  | skip ht =>
    obtain ⟨_, _, _, ⟨-, rfl⟩ | ⟨-, rfl⟩⟩ := turn_skipped ht
    · exact ⟨rfl, rfl, rfl, rfl, .refl _⟩
    · exact ⟨rfl, rfl, rfl, rfl, .refl _⟩
  | begin _ ht =>
    obtain ⟨_, _, _, _, _, rfl⟩ := turn_slot ht
    exact ⟨rfl, rfl, rfl, rfl, .refl _⟩
  | @finish a _ =>
    obtain ⟨_, _, _, hq⟩ := endTurn_eq p a
    rw [hq]
    exact ⟨rfl, rfl, rfl, rfl, .refl _⟩
  | @schedule a g w _ =>
    obtain ⟨_, _, _, hq⟩ := schedule_eq p a g (.script w)
    rw [hq]
    exact ⟨rfl, rfl, rfl, rfl, .refl _⟩
  | part group a =>
    obtain ⟨_, hq⟩ := removeMember_eq p group a
    rw [hq]
    exact ⟨rfl, rfl, rfl, rfl, .refl _⟩

theorem SameRecords.taskInv (hr : SameRecords p q) (h : p.TaskInv) : q.TaskInv :=
  h.congr hr.tasks hr.entries hr.blocked hr.next

theorem SameRecords.unpolled (hr : SameRecords p q) (h : p.Unpolled hand) : q.Unpolled hand :=
  h.congr hr.tasks hr.entries

theorem TaskInv.step (hs : Step p q) (h : p.TaskInv) : q.TaskInv := by
  rcases hs.records with hr | ⟨a, task, rfl⟩ | ⟨a, rfl⟩
  · exact hr.taskInv h
  · exact h.register a task
  · exact h.dismiss a

theorem TaskInv.loan (hl : Loan p q) (h : p.TaskInv) : q.TaskInv :=
  hl.records.taskInv h

theorem TaskInv.turning (ht : Turning p q) (h : p.TaskInv) : q.TaskInv :=
  ht.records.taskInv h

theorem TaskInv.dealing (hd : Dealing p q) (h : p.TaskInv) : q.TaskInv := by
  cases hd with
  | poll htasks => exact h.poll htasks
  | take _ htasks => exact h.take htasks
  | settle o hid => exact h.settle o hid
  | bus => exact h.congr rfl rfl rfl rfl

/-- Steps (`Step`) ask for every task that they register, and settle none. -/
theorem Unpolled.step (hs : Step p q) (h : p.Unpolled hand) : q.Unpolled hand := by
  rcases hs.records with hr | ⟨a, task, rfl⟩ | ⟨a, rfl⟩
  · exact hr.unpolled h
  · exact h.register a task
  · exact h.dismiss a

/-- Nested work (`Nested`) asks for every task that it registers, and settles none. -/
theorem Unpolled.nested {V : Event → Prop} (hpq : Nested V p q) (h : p.Unpolled hand) :
    q.Unpolled hand :=
  hpq.keeps (fun _ _ => Unpolled.step) (fun _ _ hl => hl.records.unpolled)
    (fun _ _ h => h.congr rfl rfl) h

/-- At most one task is taken in hand (`Dealing`). -/
theorem Unpolled.dealing (hd : Dealing p q) (hp : p.TaskInv) (h : p.Unpolled hand) :
    ∃ hand, q.Unpolled hand := by
  cases hd with
  | bus => exact ⟨hand, h.congr rfl rfl⟩
  | poll htasks => exact ⟨hand, h.poll htasks⟩
  | take hu htasks => exact ⟨_, (hu.take hp htasks).1⟩
  | @settle id o _ =>
    refine ⟨hand, ?_⟩
    cases he : p.entries.get? id with
    | none =>
      rw [settle_none o he]
      exact h
    | some entry =>
      obtain ⟨_, _, _, _, _, hq⟩ := settle_eq p id o
      intro i owner hu
      have hold := ((unsettled_settle o he).mp hu).2
      rw [hq]
      exact h i owner hold

/-- **No tasks, nobody blocked.** (`isBlocked`) -/
theorem not_isBlocked_of_tasks (h : p.TaskInv) (hu : p.Unpolled none) (ht : p.tasks = [])
    (a : Address) : p.isBlocked a = false := by
  rw [← Bool.not_eq_true, isBlocked, Table.contains_eq, Option.isSome_iff_exists]
  rintro ⟨ids, hids⟩
  obtain ⟨id, hmem⟩ := Table.exists_contains (h.held a ids hids)
  rcases hu id a (h.waited a ids hids id hmem) with hi | hi
  · rw [taskIds, ht] at hi
    exact List.not_mem_nil hi
  · exact absurd hi (by simp)

end Troupe.Platform
