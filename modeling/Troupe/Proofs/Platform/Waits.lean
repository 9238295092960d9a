import Troupe.Proofs.Platform.Settlement

/-!
# For which tasks an address waits

A task is recorded for the incarnation that lives at the address of its owner when it is registered,
or with the generation 0, which nobody has, if nobody lives there. `WaitInv` says what follows for
those who wait: an address waits for pending tasks of its own only (`Awaits`), each recorded for the
incarnation that lives there or for nobody (`Stray`), and whoever lives there waits for all pending
tasks that are recorded for it (`Occupied`).

It is kept when a task is registered (`WaitInv.register`), when one is settled (`WaitInv.settle`),
and when actors come (`WaitInv.enrol`) and go (`WaitInv.dismiss`), and so by all work
(`WaitInv.outer`).

Headlines:
* **`WaitInv.isBlocked_iff`**: where no task is stray, those are blocked who live and have a pending
  task.
* **`Stray.outer`**: a stray task was registered when nobody lived at the address.
-/

namespace Troupe.Platform

variable {κ : App} {p q : Platform κ} {a b : Address} {i id : Nat} {e : TaskEntry}
  {V : Event → Prop}

/-- The address waits for a task (`Awaits`) that was registered when nobody lived there. -/
def Stray (p : Platform κ) (a : Address) : Prop :=
  ∃ id e, p.Awaits a id ∧ p.Pending id e ∧ e.generation = 0

/-- An incarnation has a pending task (`Pending`): one that is recorded for it. -/
def Occupied (p : Platform κ) (a : Address) (g : Nat) : Prop :=
  ∃ id e, p.Pending id e ∧ e.owner = a ∧ e.generation = g

/-- Those who wait (`Awaits`) are in order. -/
structure WaitInv (p : Platform κ) : Prop where
  /-- Generations begin with 1. -/
  begun : 0 < p.nextGeneration
  living : ∀ a g, p.isCurrent a g = true → 0 < g
  dated : ∀ id e, p.Pending id e → e.generation < p.nextGeneration
  waited : ∀ a id, p.Awaits a id → ∃ e, p.Pending id e ∧ e.owner = a ∧
    (e.generation = 0 ∨ p.isCurrent a e.generation = true)
  bound : ∀ id e, p.Pending id e → p.isCurrent e.owner e.generation = true → p.Awaits e.owner id

theorem WaitInv.new (config : Config) (trap : Option κ.Trap) :
    (Platform.new config trap).WaitInv where
  begun := Nat.one_pos
  living _ _ h := nomatch h
  dated _ _ h := nomatch h.1
  waited _ _ := fun ⟨_, h, _⟩ => nomatch h
  bound _ _ h := nomatch h.1

/-! ## What it says -/

/-- Where there are no empty sets of tasks, those are blocked who wait for one (`isBlocked`). -/
theorem TaskInv.isBlocked_iff (h : p.TaskInv) : p.isBlocked a = true ↔ ∃ id, p.Awaits a id := by
  rw [isBlocked, Table.contains_eq, Option.isSome_iff_exists]
  constructor
  · rintro ⟨ids, hids⟩
    obtain ⟨id, hid⟩ := Table.exists_contains (h.held a ids hids)
    exact ⟨id, ids, hids, hid⟩
  · rintro ⟨_, ids, hids, -⟩
    exact ⟨ids, hids⟩

/-- An address that a stray task holds up is blocked (`isBlocked`). -/
theorem Stray.isBlocked (h : p.Stray a) (ht : p.TaskInv) : p.isBlocked a = true := by
  obtain ⟨id, _, hwait, -⟩ := h
  exact ht.isBlocked_iff.mpr ⟨id, hwait⟩

/-- **Who is blocked** (`isBlocked`), where no task is stray (`Stray`). -/
theorem WaitInv.isBlocked_iff (h : p.WaitInv) (ht : p.TaskInv) (hs : ¬ p.Stray a) :
    p.isBlocked a = true ↔ ∃ c, p.context? a = some c ∧ p.Occupied a c.generation := by
  rw [ht.isBlocked_iff]
  constructor
  · rintro ⟨id, hwait⟩
    obtain ⟨e, hp, howner, hzero | hcur⟩ := h.waited a id hwait
    · exact absurd ⟨id, e, hwait, hp, hzero⟩ hs
    · obtain ⟨c, hc, hg⟩ := isCurrent_iff.mp hcur
      exact ⟨c, hc, id, e, hp, howner, hg.symm⟩
  · rintro ⟨c, hc, id, e, hp, rfl, hg⟩
    exact ⟨id, h.bound id e hp (isCurrent_iff.mpr ⟨c, hc, hg.symm⟩)⟩

/-! ## Steps -/

/-- The invariant speaks of generations, pending tasks and those who wait only. -/
theorem WaitInv.congr (h : p.WaitInv) (hg : ∀ a, q.generation? a = p.generation? a)
    (hn : q.nextGeneration = p.nextGeneration) (hp : ∀ id e, q.Pending id e ↔ p.Pending id e)
    (hw : ∀ a id, q.Awaits a id ↔ p.Awaits a id) : q.WaitInv where
  begun := hn ▸ h.begun
  living a g hcur := h.living a g (isCurrent_congr (hg a) ▸ hcur)
  dated id e he := hn ▸ h.dated id e ((hp id e).mp he)
  waited a id hwait := by
    obtain ⟨e, he, howner, hdate⟩ := h.waited a id ((hw a id).mp hwait)
    rw [← isCurrent_congr (hg a)] at hdate
    exact ⟨e, (hp id e).mpr he, howner, hdate⟩
  bound id e he hcur := (hw _ _).mpr (h.bound id e ((hp id e).mp he)
    (isCurrent_congr (hg e.owner) ▸ hcur))

theorem SameRecords.waitInv (hr : SameRecords p q) (h : p.WaitInv)
    (hg : ∀ a, q.generation? a = p.generation? a) (hn : q.nextGeneration = p.nextGeneration) :
    q.WaitInv := by
  refine h.congr hg hn (fun id e => ?_) fun a id => ?_
  · unfold Pending
    rw [hr.entries]
  · unfold Awaits
    rw [hr.blocked]

/-- **Registering** (`registerTask`): whoever lives at the address of the owner waits for the new
task. -/
theorem WaitInv.register (h : p.WaitInv) (hi : p.Inv) (a : Address) (task : κ.Task) :
    (p.registerTask a task).2.WaitInv where
  begun := h.begun
  living := h.living
  dated id e he := by
    rcases (pending_register p a task).mp he with ⟨rfl, rfl⟩ | ⟨-, he⟩
    · show (p.generation? a).getD 0 < p.nextGeneration
      cases hg : p.generation? a with
      | none => exact h.begun
      | some g =>
        obtain ⟨c, hc, rfl⟩ := isCurrent_iff.mp (generation?_eq_some.mp hg)
        exact hi.table.fresh a c hc
    · exact h.dated id e he
  waited b i hwait := by
    rcases (awaits_register task).mp hwait with ⟨rfl, rfl⟩ | hwait
    · refine ⟨_, (pending_register p b task).mpr (Or.inl ⟨rfl, rfl⟩), rfl, ?_⟩
      cases hg : p.generation? b with
      | none => exact Or.inl rfl
      | some g => exact Or.inr (generation?_eq_some.mp hg)
    · obtain ⟨e, he, howner, hdate⟩ := h.waited b i hwait
      have hne : i ≠ p.nextTask := Nat.ne_of_lt (hi.tasks.fresh i e he.1)
      exact ⟨e, (pending_register p a task).mpr (Or.inr ⟨hne, he⟩), howner, hdate⟩
  bound i e he hcur := by
    rw [awaits_register]
    rcases (pending_register p a task).mp he with ⟨rfl, rfl⟩ | ⟨-, he⟩
    · exact Or.inl ⟨rfl, rfl⟩
    · exact Or.inr (h.bound i e he hcur)

theorem pending_dismiss : (p.dismiss a).Pending id e ↔ p.Pending id e := by
  obtain ⟨_, _, hq, -⟩ := dismiss_eq p a
  rw [hq]
  exact get?_retain_pending

theorem awaits_dismiss : (p.dismiss a).Awaits b id ↔ b ≠ a ∧ p.Awaits b id := by
  obtain ⟨_, _, hq, -⟩ := dismiss_eq p a
  rw [hq]
  unfold Awaits
  constructor
  · rintro ⟨ids, hids, hid⟩
    obtain ⟨hb, hids⟩ := Table.get?_erase_eq_some.mp hids
    exact ⟨hb, ids, hids, hid⟩
  · rintro ⟨hb, ids, hids, hid⟩
    exact ⟨ids, Table.get?_erase_eq_some.mpr ⟨hb, hids⟩, hid⟩

theorem isCurrent_dismiss {g : Nat} :
    (p.dismiss a).isCurrent b g = true ↔ b ≠ a ∧ p.isCurrent b g = true := by
  rw [isCurrent_iff, isCurrent_iff]
  constructor
  · rintro ⟨c, hc, hg⟩
    obtain ⟨hb, hc⟩ := context?_dismiss_eq_some.mp hc
    exact ⟨hb, c, hc, hg⟩
  · rintro ⟨hb, c, hc, hg⟩
    exact ⟨c, context?_dismiss_eq_some.mpr ⟨hb, hc⟩, hg⟩

/-- **Dismissing** (`dismiss`): whoever waits at the address does not wait any more. -/
theorem WaitInv.dismiss (h : p.WaitInv) (a : Address) : (p.dismiss a).WaitInv where
  begun := by
    obtain ⟨_, _, hq, -⟩ := dismiss_eq p a
    rw [hq]
    exact h.begun
  living b g hcur := h.living b g (isCurrent_dismiss.mp hcur).2
  dated id e he := by
    obtain ⟨_, _, hq, -⟩ := dismiss_eq p a
    rw [hq]
    exact h.dated id e (pending_dismiss.mp he)
  waited b id hwait := by
    obtain ⟨hb, hwait⟩ := awaits_dismiss.mp hwait
    obtain ⟨e, he, howner, hdate⟩ := h.waited b id hwait
    exact ⟨e, pending_dismiss.mpr he, howner, hdate.imp_right fun hcur =>
      isCurrent_dismiss.mpr ⟨hb, hcur⟩⟩
  bound id e he hcur := by
    obtain ⟨hb, hcur⟩ := isCurrent_dismiss.mp hcur
    exact awaits_dismiss.mpr ⟨hb, h.bound id e (pending_dismiss.mp he) hcur⟩

theorem isCurrent_enrol {actor : κ.Actor} {bh : Behaviour} {t : Template κ} {g : Nat} :
    (p.enrol a actor bh t).isCurrent b g = true ↔
      (b = a ∧ g = p.nextGeneration) ∨ (b ≠ a ∧ p.isCurrent b g = true) := by
  rw [isCurrent_iff, isCurrent_iff]
  constructor
  · rintro ⟨c, hc, hg⟩
    rcases context?_enrol_eq_some.mp hc with ⟨hb, rfl⟩ | ⟨hb, hc⟩
    · exact Or.inl ⟨hb, hg.symm⟩
    · exact Or.inr ⟨hb, c, hc, hg⟩
  · rintro (⟨hb, rfl⟩ | ⟨hb, c, hc, hg⟩)
    · exact ⟨_, context?_enrol_eq_some.mpr (Or.inl ⟨hb, rfl⟩), rfl⟩
    · exact ⟨c, context?_enrol_eq_some.mpr (Or.inr ⟨hb, hc⟩), hg⟩

/-- **Enrolling** (`enrol`): nothing is recorded for a new incarnation. -/
theorem WaitInv.enrol (h : p.WaitInv) (actor : κ.Actor) (bh : Behaviour) (t : Template κ)
    (hnone : p.context? a = none) : (p.enrol a actor bh t).WaitInv where
  begun := Nat.succ_pos _
  living b g hcur := by
    rcases isCurrent_enrol.mp hcur with ⟨-, rfl⟩ | ⟨-, hcur⟩
    · exact h.begun
    · exact h.living b g hcur
  dated id e he := Nat.lt_succ_of_lt (h.dated id e he)
  waited b id hwait := by
    obtain ⟨e, he, howner, hdate⟩ := h.waited b id hwait
    refine ⟨e, he, howner, hdate.imp_right fun hcur => isCurrent_enrol.mpr (Or.inr ⟨?_, hcur⟩)⟩
    rintro rfl
    obtain ⟨c, hc, -⟩ := isCurrent_iff.mp hcur
    exact absurd (hnone.symm.trans hc) (by simp)
  bound id e he hcur := by
    rcases isCurrent_enrol.mp hcur with ⟨-, hnew⟩ | ⟨-, hcur⟩
    · exact absurd hnew (Nat.ne_of_lt (h.dated id e he))
    · exact h.bound id e he hcur

/-- After settling a task that is on record, the others are pending as before (`Pending`). -/
theorem pending_settle {entry : TaskEntry} (o : Outcome) (hentry : p.entries.get? id = some entry) :
    (p.settle id o).2.Pending i e ↔ i ≠ id ∧ p.Pending i e := by
  unfold Pending
  rw [get?_settle o hentry]
  by_cases hi : i = id
  · rw [if_pos hi]
    refine ⟨fun ⟨he, ho⟩ => ?_, fun h => absurd hi h.1⟩
    split at he
    · exact absurd ((congrArg TaskEntry.outcome (Option.some.inj he)).trans ho) (by simp)
    · exact absurd he (by simp)
  · rw [if_neg hi]
    exact ⟨fun h => ⟨hi, h⟩, And.right⟩

/-- **Settling** (`settle`): the owner of the task does not wait for it any more. -/
theorem WaitInv.settle (h : p.WaitInv) (id : Nat) (o : Outcome) : (p.settle id o).2.WaitInv := by
  cases hentry : p.entries.get? id with
  | none =>
    rw [settle_none o hentry]
    exact h
  | some entry =>
    have hpending (i : Nat) (e : TaskEntry) : (p.settle id o).2.Pending i e ↔
        i ≠ id ∧ p.Pending i e := pending_settle o hentry
    have hawaits (b : Address) (i : Nat) : (p.settle id o).2.Awaits b i ↔
        p.Awaits b i ∧ ¬ (b = entry.owner ∧ i = id) := by
      obtain ⟨_, hs⟩ := settle_some o hentry
      rw [hs]
      exact awaits_unblock
    obtain ⟨_, _, _, _, _, hq⟩ := settle_eq p id o
    rw [hq] at hpending hawaits ⊢
    refine ⟨h.begun, h.living, fun i e he => h.dated i e ((hpending i e).mp he).2,
      fun b i hwait => ?_, fun i e he hcur => ?_⟩
    · obtain ⟨hwait, hother⟩ := (hawaits b i).mp hwait
      obtain ⟨e, he, rfl, hdate⟩ := h.waited b i hwait
      refine ⟨e, (hpending i e).mpr ⟨?_, he⟩, rfl, hdate⟩
      rintro rfl
      exact hother ⟨congrArg TaskEntry.owner (Option.some.inj (he.1.symm.trans hentry)), rfl⟩
    · obtain ⟨hne, he⟩ := (hpending i e).mp he
      exact (hawaits _ i).mpr ⟨h.bound i e he hcur, fun h => hne h.2⟩

/-! ## The invariant is kept -/

theorem generation?_of_identity? (h : q.identity? a = p.identity? a) :
    q.generation? a = p.generation? a := by
  have hid (p : Platform κ) : p.generation? a = (p.identity? a).map Identity.generation := by
    unfold generation? identity?
    rw [Option.map_map]
    rfl
  rw [hid, hid, h]

theorem WaitInv.step (hs : Step p q) (hi : p.Inv) (h : p.WaitInv) : q.WaitInv := by
  rcases hs.table with ⟨hid, hn, -⟩ | ⟨group, a, rfl⟩ | ⟨a, actor, bh, t, -, -, -, hnone, -, rfl⟩ |
    ⟨a, -, rfl⟩
  · rcases hs.records with hr | ⟨a, task, rfl⟩ | ⟨a, rfl⟩
    · exact hr.waitInv h (fun a => generation?_of_identity? (hid a)) hn
    · exact h.register hi a task
    · exact h.dismiss a
  · obtain ⟨_, _, hq, -⟩ := putMember_eq p group a
    rw [hq]
    exact h.congr (fun _ => rfl) rfl (fun _ _ => Iff.rfl) fun _ _ => Iff.rfl
  · exact h.enrol actor bh t hnone
  · exact h.dismiss a

theorem WaitInv.change (hc : Change V p q) (hi : p.Inv) (h : p.WaitInv) : q.WaitInv := by
  cases hc with
  | step hs => exact h.step hs hi
  | loan hl =>
    refine hl.records.waitInv h (fun a => generation?_of_identity? hl.identity?) ?_
    cases hl <;> rfl
  | announce ha =>
    cases ha
    exact h.congr (fun _ => rfl) rfl (fun _ _ => Iff.rfl) fun _ _ => Iff.rfl

theorem WaitInv.turning (ht : Turning p q) (h : p.WaitInv) : q.WaitInv := by
  have hg (a : Address) : q.generation? a = p.generation? a :=
    congrArg (Option.map Context.generation) (context?_turning ht)
  refine ht.records.waitInv h hg ?_
  rcases ht.table with ⟨-, hn, -⟩ | ⟨group, a, rfl⟩
  · exact hn
  · obtain ⟨_, hq⟩ := removeMember_eq p group a
    rw [hq]

theorem WaitInv.dealing (hd : Dealing p q) (h : p.WaitInv) : q.WaitInv := by
  cases hd with
  | poll | take | bus =>
    exact h.congr (fun _ => rfl) rfl (fun _ _ => Iff.rfl) fun _ _ => Iff.rfl
  | settle o _ => exact h.settle _ o

theorem WaitInv.rounds (hpq : Rounds V p q) (hi : p.Inv) (h : p.WaitInv) : q.WaitInv := by
  induction hpq with
  | refl => exact h
  | tail hpq hstep ih =>
    rcases hstep with hc | ht
    · exact ih.change hc (hi.rounds hpq)
    · exact ih.turning ht

/-- **All work** (`Outer`) keeps those who wait in order. -/
theorem WaitInv.outer (hpq : Outer V p q) (hi : p.Inv) (h : p.WaitInv) : q.WaitInv := by
  induction hpq with
  | refl => exact h
  | tail hpq hstep ih =>
    rcases hstep with hr | hd
    · exact ih.rounds hr (hi.outer hpq)
    · exact ih.dealing hd

/-! ## Where stray tasks come from -/

theorem Stray.mono (hp : ∀ id e, q.Pending id e → p.Pending id e)
    (hw : ∀ id, q.Awaits a id → p.Awaits a id) (h : q.Stray a) : p.Stray a := by
  obtain ⟨id, e, hwait, he, hzero⟩ := h
  exact ⟨id, e, hw id hwait, hp id e he, hzero⟩

theorem SameRecords.stray (hr : SameRecords p q) : q.Stray a → p.Stray a := by
  refine Stray.mono (fun id e he => ?_) fun id hwait => ?_
  · unfold Pending at he ⊢
    rwa [← hr.entries]
  · unfold Awaits at hwait ⊢
    rwa [← hr.blocked]

/-- A task is stray (`Stray`) if nobody lives at the address of its owner when it is registered. -/
theorem stray_register (h : p.WaitInv) (hi : p.Inv) (task : κ.Task) :
    (p.registerTask b task).2.Stray a ↔ p.Stray a ∨ (a = b ∧ p.context? b = none) := by
  constructor
  · rintro ⟨id, e, hwait, he, hzero⟩
    rcases (pending_register p b task).mp he with ⟨rfl, rfl⟩ | ⟨hne, he⟩
    · rcases (awaits_register task).mp hwait with ⟨rfl, -⟩ | hwait
      · refine Or.inr ⟨rfl, Option.eq_none_iff_forall_ne_some.mpr fun c hc => ?_⟩
        have hgen : p.generation? a = some c.generation := congrArg (Option.map _) hc
        have hdate : c.generation = 0 := by
          rw [show c.generation = (p.generation? a).getD 0 by rw [hgen]; rfl]
          exact hzero
        have hcur : p.isCurrent a c.generation = true := isCurrent_iff.mpr ⟨c, hc, rfl⟩
        exact absurd (h.living a _ hcur) (Nat.not_lt.mpr (Nat.le_of_eq hdate))
      · obtain ⟨e, he, -⟩ := h.waited a _ hwait
        exact absurd (hi.tasks.fresh _ e he.1) (Nat.lt_irrefl _)
    · rcases (awaits_register task).mp hwait with ⟨-, hnew⟩ | hwait
      · exact absurd hnew hne
      · exact Or.inl ⟨id, e, hwait, he, hzero⟩
  · rintro (⟨id, e, hwait, he, hzero⟩ | ⟨rfl, hnone⟩)
    · exact ⟨id, e, (awaits_register task).mpr (Or.inr hwait), (pending_register p b task).mpr
        (Or.inr ⟨Nat.ne_of_lt (hi.tasks.fresh id e he.1), he⟩), hzero⟩
    · refine ⟨p.nextTask, _, (awaits_register task).mpr (Or.inl ⟨rfl, rfl⟩),
        (pending_register p a task).mpr (Or.inl ⟨rfl, rfl⟩), ?_⟩
      show (p.generation? a).getD 0 = 0
      unfold generation?
      rw [hnone]
      rfl

theorem stray_dismiss (h : (p.dismiss b).Stray a) : p.Stray a :=
  h.mono (fun _ _ => pending_dismiss.mp) fun _ hwait => (awaits_dismiss.mp hwait).2

theorem Stray.change (hc : Change V p q) (hi : p.Inv) (hw : p.WaitInv) (h : q.Stray a) :
    p.Stray a ∨ ∃ task, p.context? a = none ∧ q = (p.registerTask a task).2 := by
  cases hc with
  | step hs =>
    rcases hs.records with hr | ⟨b, task, rfl⟩ | ⟨b, rfl⟩
    · exact Or.inl (hr.stray h)
    · rcases (stray_register hw hi task).mp h with h | ⟨rfl, hnone⟩
      · exact Or.inl h
      · exact Or.inr ⟨task, hnone, rfl⟩
    · exact Or.inl (stray_dismiss h)
  | loan hl => exact Or.inl (hl.records.stray h)
  | announce ha =>
    cases ha
    exact Or.inl h

theorem Stray.dealing (hd : Dealing p q) (h : q.Stray a) : p.Stray a := by
  cases hd with
  | poll | take | bus => exact h
  | @settle id o _ =>
    cases hentry : p.entries.get? id with
    | none => rwa [settle_none o hentry] at h
    | some entry =>
      refine h.mono (fun i e he => ((pending_settle o hentry).mp he).2) fun i hwait => ?_
      obtain ⟨_, hs⟩ := settle_some o hentry
      rw [hs] at hwait
      exact (awaits_unblock.mp hwait).1

theorem Stray.rounds (hpq : Rounds V p q) (hi : p.Inv) (hw : p.WaitInv) (h : q.Stray a) :
    p.Stray a ∨ ∃ r task, Rounds V p r ∧ r.context? a = none ∧
      Rounds V (r.registerTask a task).2 q := by
  induction hpq with
  | refl => exact Or.inl h
  | @tail p' q' hpq hstep ih =>
    have hbefore : p'.Stray a ∨ ∃ task, p'.context? a = none ∧ q' = (p'.registerTask a task).2 := by
      rcases hstep with hc | ht
      · exact h.change hc (hi.rounds hpq) (hw.rounds hpq hi)
      · exact Or.inl (ht.records.stray h)
    rcases hbefore with hbefore | ⟨task, hnone, rfl⟩
    · rcases ih hbefore with hp | ⟨r, task, hpr, hnone, hrq⟩
      · exact Or.inl hp
      · exact Or.inr ⟨r, task, hpr, hnone, hrq.tail hstep⟩
    · exact Or.inr ⟨_, task, hpq, hnone, .refl _⟩

/-- **Where a stray task comes from** (`Stray`): it was registered when nobody lived at the address.
-/
theorem Stray.outer (hpq : Outer V p q) (hi : p.Inv) (hw : p.WaitInv) (h : q.Stray a) :
    p.Stray a ∨ ∃ r task, Outer V p r ∧ r.context? a = none ∧
      Outer V (r.registerTask a task).2 q := by
  induction hpq with
  | refl => exact Or.inl h
  | @tail p' q' hpq hstep ih =>
    have hbefore : p'.Stray a ∨ ∃ r task, Rounds V p' r ∧ r.context? a = none ∧
        Rounds V (r.registerTask a task).2 q' := by
      rcases hstep with hr | hd
      · exact h.rounds hr (hi.outer hpq) (hw.outer hpq hi)
      · exact Or.inl (h.dealing hd)
    rcases hbefore with hbefore | ⟨r, task, hr, hnone, hrq⟩
    · rcases ih hbefore with hp | ⟨r, task, hpr, hnone, hrq⟩
      · exact Or.inl hp
      · exact Or.inr ⟨r, task, hpr, hnone, hrq.tail hstep⟩
    · exact Or.inr ⟨r, task, hpq.tail (Or.inl hr), hnone, hrq.outer⟩

end Troupe.Platform
