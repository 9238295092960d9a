import Troupe.Proofs.Moments

/-!
# Whose outcomes are kept

The outcome of a task is kept for its owner to use (`task_state`), and only as long as there is one.
`Platform.Claimed` says that outcomes are kept for live actors only.

* Settling a task whose owner is gone forgets it (`Claimed.settle`). So does registering another
  task for the same owner, since what earlier tasks came to is dropped then (`Claimed.register`).
* Removing an owner forgets what its tasks came to (`Claimed.dismiss`, for `unschedule`); tasks that
  are pending have no outcome yet, and stay.
* Nothing else touches the entries (`Claimed.step`, `Claimed.turning`), and actors go in no other
  way than by a dismissal (`Step.lives`).

Headlines:
* **`Claimed.outer`**: all work keeps it so.
* **`Moment.Reach.claimed`**: at every moment that is reached, the owner of a settled task is alive.
-/

namespace Troupe

variable {κ : App}

namespace Platform

variable {p q : Platform κ} {V : Event → Prop}

/-- Outcomes (`TaskEntry.outcome`) are kept for live actors only. -/
def Claimed (p : Platform κ) : Prop :=
  ∀ id e, p.entries.get? id = some e → e.outcome ≠ none → p.isLive e.owner = true

theorem Claimed.of_entries (h : p.Claimed) (he : q.entries = p.entries)
    (hl : ∀ a, p.isLive a = true → q.isLive a = true) : q.Claimed :=
  fun id e hid ho => hl _ (h id e (he ▸ hid) ho)

theorem Claimed.dismiss (h : p.Claimed) (a : Address) : (p.dismiss a).Claimed := by
  intro id e hid ho
  obtain ⟨_, _, hq, -⟩ := dismiss_eq p a
  rw [hq] at hid
  change (p.entries.retain _).get? id = some e at hid
  rw [Table.get?_retain, Option.filter_eq_some_iff] at hid
  obtain ⟨hid, hkept⟩ := hid
  obtain ⟨c, hc⟩ := isLive_iff.mp (h id e hid ho)
  have hne : e.owner ≠ a := by
    intro he
    simp [he, ho] at hkept
  exact isLive_iff.mpr ⟨c, context?_dismiss_eq_some.mpr ⟨hne, hc⟩⟩

theorem Claimed.register (h : p.Claimed) (a : Address) (task : κ.Task) :
    (p.registerTask a task).2.Claimed := by
  obtain ⟨entry, -, hout, hentries, -⟩ := register_records p a task
  intro id e hid ho
  rw [hentries] at hid
  rcases Table.get?_insert_eq_some.mp hid with ⟨-, rfl⟩ | ⟨-, hid⟩
  · exact absurd hout ho
  · exact h id e (get?_of_retain hid) ho

/-- A step lets all actors live but the one that it dismisses (`Platform.dismiss`). -/
theorem Step.lives (h : Step p q) :
    (∀ a, p.isLive a = true → q.isLive a = true) ∨ ∃ a, q = p.dismiss a := by
  rcases h.table with ⟨hid, -⟩ | ⟨group, a, rfl⟩ | ⟨a, actor, b, t, -, -, -, -, -, rfl⟩ |
    ⟨a, -, rfl⟩
  · exact Or.inl fun a ha => (isLive_congr (hid a)).trans ha
  · refine Or.inl fun b hb => ?_
    rw [isLive_iff, context?_putMember]
    exact isLive_iff.mp hb
  · refine Or.inl fun b hb => ?_
    rw [isLive_iff, context?_enrol]
    split
    · exact ⟨_, rfl⟩
    · exact isLive_iff.mp hb
  · exact Or.inr ⟨a, rfl⟩

theorem Claimed.step (hs : Step p q) (h : p.Claimed) : q.Claimed := by
  rcases hs.records with hr | ⟨a, task, rfl⟩ | ⟨a, rfl⟩
  · rcases hs.lives with hl | ⟨a, rfl⟩
    · exact h.of_entries hr.entries hl
    · exact h.dismiss a
  · exact h.register a task
  · exact h.dismiss a

theorem Claimed.turning (ht : Turning p q) (h : p.Claimed) : q.Claimed := by
  refine h.of_entries ht.records.entries fun a ha => ?_
  rcases ht.table with ⟨hid, -⟩ | ⟨group, b, rfl⟩
  · exact (isLive_congr (hid a)).trans ha
  · obtain ⟨_, hq⟩ := removeMember_eq p group b
    rw [hq]
    exact ha

/-- A task is settled (`Platform.settle`) for an owner that is alive, or forgotten. -/
theorem Claimed.settle (h : p.Claimed) (id : Nat) (o : Outcome) : (p.settle id o).2.Claimed := by
  cases hid : p.entries.get? id with
  | none =>
    rw [settle_none o hid]
    exact h
  | some entry =>
    have hlive (a : Address) : (p.settle id o).2.isLive a = p.isLive a := by
      obtain ⟨_, _, _, _, _, hq⟩ := settle_eq p id o
      rw [hq]
      rfl
    intro i e hi ho
    rw [hlive]
    rw [get?_settle o hid] at hi
    split at hi
    · split at hi
      · rename_i hcurrent
        obtain rfl := Option.some.inj hi
        obtain ⟨c, hc, -⟩ := isCurrent_iff.mp hcurrent
        exact isLive_iff.mpr ⟨c, hc⟩
      · exact absurd hi (by simp)
    · exact h i e hi ho

theorem Claimed.dealing (hd : Dealing p q) (h : p.Claimed) : q.Claimed := by
  cases hd with
  | poll | take | bus => exact h.of_entries rfl fun _ ha => ha
  | settle o _ => exact h.settle _ o

/-- **All work** (`Outer`) keeps outcomes for live actors only. -/
theorem Claimed.outer (hw : Outer V p q) (h : p.Claimed) : q.Claimed := by
  have nested (p q : Platform κ) (hw : Nested V p q) (h : p.Claimed) : q.Claimed :=
    hw.keeps (fun _ _ => Claimed.step)
      (fun p q hl h => h.of_entries hl.records.entries fun a ha =>
        (isLive_congr (p := p) hl.identity?).trans ha)
      (fun _ _ h => h.of_entries rfl fun _ ha => ha) h
  exact hw.keeps (fun _ _ hr => hr.keeps nested fun _ _ => Claimed.turning)
    (fun _ _ => Claimed.dealing) h

end Platform

/-- **At every moment that is reached** the owner of a settled task is alive (`Platform.Claimed`).
-/
theorem Moment.Reach.claimed {code : Code κ} {m : Moment κ} (h : Reach code m) :
    m.stage.platform.Claimed := by
  obtain ⟨config, trap, subs, w, hlater⟩ := h
  obtain ⟨bus, -, hnew⟩ := new_platform config trap subs w
  refine Platform.Claimed.outer (hlater.ok (ok_new config trap subs w)).2 fun id e hid => ?_
  change (Stage.new config trap subs w).platform.entries.get? id = some e at hid
  rw [hnew] at hid
  exact nomatch hid

end Troupe
