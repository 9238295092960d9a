import Troupe.Table.Basic

/-!
# Ordered tables through their entries

`Table.get?` is the view of a table, which stands for the ordered maps of the source's `State` and
`Platform`: it finds exactly the entries (`get?_eq_some_iff`), each operation has one equation
through it (`get?_empty`, `get?_insert`, `get?_erase`, `get?_modify`, `get?_retain`,
`get?_mapValues`), and two tables that answer alike are equal (`ext_get?`). That is so because a
table carries the order of its keys (`Table.ascending`), so no key stands there twice
(`key_unique`).

Headlines:
* **`Table.get?_eq_some_iff`**: what is found is what is there.
* **`Table.ext_get?`**: a table is what it answers.
-/

namespace Troupe.Table

variable {κ ν : Type} [Ord κ] [DecidableEq κ]

@[simp] theorem get?_empty (k : κ) : (empty : Table κ ν).get? k = none := rfl

@[simp] theorem contains_eq (t : Table κ ν) (k : κ) : t.contains k = (t.get? k).isSome := by
  rw [contains, get?, Option.isSome_map, Bool.eq_iff_iff, List.find?_isSome, List.any_eq_true]

@[simp] theorem get?_modify (t : Table κ ν) (k : κ) (f : ν → ν) (k' : κ) :
    (t.modify k f).get? k' = if k' = k then (t.get? k).map f else t.get? k' := by
  obtain ⟨l, hl⟩ := t
  simp only [get?, modify, mapValues]
  clear hl
  induction l with
  | nil => simp
  | cons e l ih =>
    by_cases he : e.1 = k'
    · by_cases hk : e.1 = k
      · simp [he, ← hk]
      · have hne : ¬ k' = k := fun h => hk (he.trans h)
        simp [he, hne]
    · by_cases hk : e.1 = k
      · have hne : ¬ k' = k := fun h => he (hk.trans h.symm)
        have hne' : ¬ k = k' := fun h => hne h.symm
        simpa [hk, hne, hne'] using ih
      · simpa [he, hk] using ih

@[simp] theorem get?_mapValues {μ : Type} (t : Table κ ν) (f : κ → ν → μ) (k : κ) :
    (t.mapValues f).get? k = (t.get? k).map (f k) := by
  obtain ⟨l, hl⟩ := t
  simp only [get?, mapValues]
  clear hl
  induction l with
  | nil => simp
  | cons e l ih =>
    by_cases he : e.1 = k
    · simp [he]
    · simpa [he] using ih

variable [Std.LawfulEqOrd κ]

omit [DecidableEq κ] in
theorem key_unique {t : Table κ ν} {a b : κ × ν} (ha : a ∈ t.entries) (hb : b ∈ t.entries)
    (h : a.1 = b.1) : a = b := by
  obtain ⟨l, hl⟩ := t
  change a ∈ l at ha
  change b ∈ l at hb
  induction l with
  | nil => simp at ha
  | cons e l ih =>
    obtain ⟨he, hl⟩ := List.pairwise_cons.mp hl
    have self (x : κ) : compare x x ≠ .lt := by simp [Std.ReflCmp.compare_self]
    rcases List.mem_cons.mp ha with rfl | ha'
    · rcases List.mem_cons.mp hb with rfl | hb'
      · rfl
      · exact absurd (h ▸ he b hb') (self _)
    · rcases List.mem_cons.mp hb with rfl | hb'
      · exact absurd (h ▸ he a ha') (self _)
      · exact ih hl ha' hb'

theorem get?_eq_some_iff {t : Table κ ν} {k : κ} {v : ν} :
    t.get? k = some v ↔ (k, v) ∈ t.entries := by
  constructor
  · intro h
    obtain ⟨⟨k', v'⟩, hf, rfl⟩ := Option.map_eq_some_iff.mp h
    have hk : k' = k := by simpa using List.find?_some hf
    exact hk ▸ List.mem_of_find?_eq_some hf
  · intro h
    cases hf : t.entries.find? fun e => e.1 = k with
    | none => simpa using List.find?_eq_none.mp hf _ h
    | some e =>
      have he := List.mem_of_find?_eq_some hf
      have hk : e.1 = k := by simpa using List.find?_some hf
      simp [get?, hf, key_unique he h hk]

theorem mem_keys_iff {t : Table κ ν} {k : κ} : k ∈ t.keys ↔ (t.get? k).isSome := by
  simp only [keys, List.mem_map, Option.isSome_iff_exists]
  constructor
  · rintro ⟨⟨k, v⟩, h, rfl⟩
    exact ⟨v, get?_eq_some_iff.mpr h⟩
  · rintro ⟨v, h⟩
    exact ⟨(k, v), get?_eq_some_iff.mp h, rfl⟩

@[simp] theorem get?_retain (t : Table κ ν) (p : κ → ν → Bool) (k : κ) :
    (t.retain p).get? k = (t.get? k).filter (p k) := by
  ext v
  simp only [get?_eq_some_iff, retain, List.mem_filter, Option.filter_eq_some_iff]

@[simp] theorem get?_erase (t : Table κ ν) (k k' : κ) :
    (t.erase k).get? k' = if k' = k then none else t.get? k' := by
  rw [erase, get?_retain]
  by_cases h : k' = k <;> cases t.get? k' <;> simp [h, Option.filter]

theorem get?_erase_eq_some {t : Table κ ν} {k k' : κ} {v : ν} :
    (t.erase k).get? k' = some v ↔ k' ≠ k ∧ t.get? k' = some v := by
  rw [get?_erase]
  by_cases h : k' = k
  · simp [h]
  · simp [h]

theorem contains_erase {t : Table κ ν} {k k' : κ} :
    (t.erase k).contains k' = true ↔ k' ≠ k ∧ t.contains k' = true := by
  rw [contains_eq, get?_erase, contains_eq]
  by_cases h : k' = k
  · simp [h]
  · simp [h]

theorem isEmpty_iff {t : Table κ ν} : t.isEmpty = true ↔ ∀ k, t.get? k = none := by
  rw [isEmpty, List.isEmpty_iff, List.eq_nil_iff_forall_not_mem]
  constructor
  · intro h k
    cases hk : t.get? k with
    | none => rfl
    | some v => exact absurd (get?_eq_some_iff.mp hk) (h (k, v))
  · rintro h ⟨k, v⟩ hm
    exact absurd (get?_eq_some_iff.mpr hm) (by simp [h k])

theorem isEmpty_of_contains {t : Table κ ν} {k : κ} (h : t.contains k = true) :
    t.isEmpty = false := by
  rw [← Bool.not_eq_true, isEmpty_iff]
  intro hnone
  rw [contains_eq, hnone k] at h
  exact absurd h (by simp)

theorem exists_contains {t : Table κ ν} (h : t.isEmpty = false) : ∃ k, t.contains k = true := by
  unfold isEmpty at h
  cases he : t.entries with
  | nil =>
    rw [he] at h
    exact absurd h (by simp)
  | cons e rest =>
    have hget : t.get? e.1 = some e.2 := get?_eq_some_iff.mpr (he ▸ List.mem_cons_self)
    exact ⟨e.1, by rw [contains_eq, hget]; rfl⟩

variable [Std.TransOrd κ]

omit [DecidableEq κ] in
theorem mem_putEntry_iff {k : κ} {v : ν} {l : List (κ × ν)} {e : κ × ν}
    (h : l.Pairwise fun a b => compare a.1 b.1 = .lt) :
    e ∈ putEntry k v l ↔ e = (k, v) ∨ (e.1 ≠ k ∧ e ∈ l) := by
  induction l with
  | nil => simp [putEntry]
  | cons a l ih =>
    obtain ⟨ha, hl⟩ := List.pairwise_cons.mp h
    have self (x : κ) : compare x x = .eq := Std.ReflCmp.compare_self
    rw [putEntry]
    split
    next hk =>
      have hne : ∀ b ∈ a :: l, b.1 ≠ k := by
        rintro b hb rfl
        rcases List.mem_cons.mp hb with rfl | hb
        · simp at hk
        · simpa [self] using Std.TransCmp.lt_trans hk (ha b hb)
      rw [List.mem_cons]
      exact or_congr_right ⟨fun he => ⟨hne e he, he⟩, And.right⟩
    next hk =>
      obtain rfl := Std.LawfulEqCmp.eq_of_compare hk
      have hne : ∀ b ∈ l, b.1 ≠ a.1 := by
        intro b hb he
        simpa [he, self] using ha b hb
      rw [List.mem_cons, List.mem_cons]
      refine or_congr_right ⟨fun he => ⟨hne e he, Or.inr he⟩, ?_⟩
      rintro ⟨hk, rfl | he⟩
      · exact absurd rfl hk
      · exact he
    next hk =>
      have hne : a.1 ≠ k := by
        rintro rfl
        simp at hk
      rw [List.mem_cons, ih hl, List.mem_cons]
      constructor
      · rintro (rfl | rfl | ⟨hk, he⟩)
        · exact Or.inr ⟨hne, Or.inl rfl⟩
        · exact Or.inl rfl
        · exact Or.inr ⟨hk, Or.inr he⟩
      · rintro (rfl | ⟨hk, rfl | he⟩)
        · exact Or.inr (Or.inl rfl)
        · exact Or.inl rfl
        · exact Or.inr (Or.inr ⟨hk, he⟩)

@[simp] theorem get?_insert (t : Table κ ν) (k : κ) (v : ν) (k' : κ) :
    (t.insert k v).get? k' = if k' = k then some v else t.get? k' := by
  ext w
  rw [get?_eq_some_iff, insert, mem_putEntry_iff t.ascending]
  by_cases h : k' = k
  · simp [h, eq_comm]
  · simp [h, get?_eq_some_iff]

@[simp] theorem get?_put (s : KeySet κ) (k k' : κ) :
    (KeySet.put s k).get? k' = if k' = k then some () else s.get? k' :=
  get?_insert s k () k'

/-- What a table holds after an insertion (`insert`) is new or was there before. -/
theorem get?_insert_eq_some {t : Table κ ν} {k k' : κ} {v w : ν} :
    (t.insert k v).get? k' = some w ↔ (k' = k ∧ w = v) ∨ (k' ≠ k ∧ t.get? k' = some w) := by
  rw [get?_insert]
  by_cases h : k' = k
  · simp [h, eq_comm]
  · simp [h]

theorem contains_insert {t : Table κ ν} {k k' : κ} {v : ν} :
    (t.insert k v).contains k' = true ↔ k' = k ∨ t.contains k' = true := by
  rw [contains_eq, get?_insert, contains_eq]
  by_cases h : k' = k
  · simp [h]
  · simp [h]

theorem contains_put {s : KeySet κ} {k k' : κ} :
    (KeySet.put s k).contains k' = true ↔ k' = k ∨ s.contains k' = true :=
  contains_insert

theorem isEmpty_put (s : KeySet κ) (k : κ) : (KeySet.put s k).isEmpty = false := by
  rw [← Bool.not_eq_true, isEmpty_iff]
  intro h
  have hk := h k
  rw [get?_put, if_pos rfl] at hk
  exact absurd hk (by simp)

/-- Tables that answer alike (`get?`) are equal. -/
theorem ext_get? {t u : Table κ ν} (h : ∀ k, t.get? k = u.get? k) : t = u := by
  obtain ⟨l, hl⟩ := t
  obtain ⟨m, hm⟩ := u
  have hmem (e : κ × ν) : e ∈ l ↔ e ∈ m := by
    have := h e.1
    rw [Option.ext_iff] at this
    simpa [get?_eq_some_iff] using this e.2
  have hperm : l.Perm m := by
    refine (List.perm_ext_iff_of_nodup ?_ ?_).mpr hmem
    · exact hl.imp fun hab he => by subst he; simp [Std.ReflCmp.compare_self] at hab
    · exact hm.imp fun hab he => by subst he; simp [Std.ReflCmp.compare_self] at hab
  have : l = m := hperm.eq_of_pairwise
    (fun a b _ _ hab hba => by
      have := Std.TransCmp.lt_trans hab hba
      simp [Std.ReflCmp.compare_self] at this) hl hm
  subst this
  rfl

end Troupe.Table
