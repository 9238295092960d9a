import Mathlib.Data.List.Nodup
import Mathlib.Data.List.Range
import Troupe.Machine.Heap

/-!
# Heaps in order

A heap is in order when its free list holds each empty cell once and no others (`Heap.Ok`). Both
operations keep it so (`Ok.alloc`, `Ok.release`), and so does emptying many cells (`Ok.releaseAll`).

The free list is a stack that `Heap.alloc` takes from first, and only when it is empty the heap
grows. Releasing a cell that is empty already changes nothing, so no cell comes to stand on the list
twice, and the number of cells never shrinks (`length_release`).

What a heap says after a use is said by equations (`get?_release`, `get?_releaseAll`), which need no
order. That the cell an object gets was empty does: if a cell in use stood on the free list, the
object in it would be lost.

Headlines:
* **`Ok.get?_alloc`**: an object gets a cell that was empty, and the other cells stay as they are.
* **`Ok.live_eq`**: the number of occupied cells, which `live` says, is the length of any list of
  them.
-/

namespace Troupe.Heap

variable {α : Type} {h : Heap α} {i j : Nat} {x : α} {is : List Nat}

/-- The free list (`Heap.free`) holds each empty cell once, and no others. -/
structure Ok (h : Heap α) : Prop where
  nodup : h.free.Nodup
  mem_free : ∀ i, i ∈ h.free ↔ i < h.cells.length ∧ h.get? i = none

theorem Ok.empty : Ok (∅ : Heap α) :=
  ⟨.nil, fun _ => iff_of_false List.not_mem_nil fun h => Nat.not_lt_zero _ h.1⟩

theorem get?_of_length_le (hi : h.cells.length ≤ i) : h.get? i = none := by
  unfold get?
  rw [List.getElem?_eq_none hi]
  rfl

theorem lt_of_get? (hi : h.get? i = some x) : i < h.cells.length := by
  by_contra hle
  rw [get?_of_length_le (Nat.le_of_not_lt hle)] at hi
  exact absurd hi (by simp)

/-! ## Taking a cell -/

/-- **An object gets an empty cell** (`alloc`), and the other cells stay as they are. -/
theorem Ok.get?_alloc (hh : h.Ok) (x : α) : h.get? (h.alloc x).1 = none ∧
    ∀ j, (h.alloc x).2.get? j = if j = (h.alloc x).1 then some x else h.get? j := by
  obtain ⟨cells, free⟩ := h
  cases free with
  | nil =>
    refine ⟨get?_of_length_le (Nat.le_refl _), fun j => ?_⟩
    show ((cells ++ [some x])[j]?).join = if j = cells.length then some x else (cells[j]?).join
    rw [List.getElem?_append]
    split
    · rename_i hlt
      rw [if_neg (Nat.ne_of_lt hlt)]
    · rename_i hge
      rcases Nat.eq_or_lt_of_le (Nat.le_of_not_lt hge) with rfl | hlt
      · simp
      · have hpos : j - cells.length ≠ 0 := Nat.sub_ne_zero_of_lt hlt
        rw [if_neg (Nat.ne_of_gt hlt), List.getElem?_eq_none (Nat.le_of_lt hlt),
          List.getElem?_eq_none (by simpa using Nat.one_le_iff_ne_zero.mpr hpos)]
  | cons i rest =>
    obtain ⟨hlt, hnone⟩ := (hh.mem_free i).mp List.mem_cons_self
    refine ⟨hnone, fun j => ?_⟩
    show ((cells.set i (some x))[j]?).join = if j = i then some x else (cells[j]?).join
    rw [List.getElem?_set]
    by_cases hj : i = j
    · rw [if_pos hj, if_pos hlt, if_pos hj.symm]
      rfl
    · rw [if_neg hj, if_neg (Ne.symm hj)]

theorem Ok.alloc (hh : h.Ok) (x : α) : (h.alloc x).2.Ok := by
  have hget := (hh.get?_alloc x).2
  obtain ⟨cells, free⟩ := h
  cases free with
  | nil =>
    refine ⟨.nil, fun i => iff_of_false List.not_mem_nil fun ⟨hlt, hnone⟩ => ?_⟩
    have hlt : i < (cells ++ [some x]).length := hlt
    rw [hget] at hnone
    split at hnone
    · exact absurd hnone (by simp)
    · rename_i hne
      -- the old heap was full, so this cell would have been free
      have hold : i < cells.length := by
        rw [List.length_append, List.length_singleton] at hlt
        exact Nat.lt_of_le_of_ne (Nat.le_of_lt_succ hlt) hne
      exact absurd ((hh.mem_free i).mpr ⟨hold, hnone⟩) List.not_mem_nil
  | cons k rest =>
    have hnodup := List.nodup_cons.mp hh.nodup
    refine ⟨hnodup.2, fun i => ?_⟩
    rw [hget i]
    show i ∈ rest ↔ i < (cells.set k (some x)).length ∧ (if i = k then some x else _) = none
    rw [List.length_set]
    by_cases hi : i = k
    · rw [if_pos hi]
      exact iff_of_false (hi ▸ hnodup.1) fun h => absurd h.2 (by simp)
    · rw [if_neg hi, ← hh.mem_free i]
      exact ⟨List.mem_cons_of_mem k, fun h => (List.mem_cons.mp h).resolve_left hi⟩

/-! ## Emptying cells -/

theorem get?_release : (h.release i).get? j = if j = i then none else h.get? j := by
  unfold release
  split
  · show ((h.cells.set i none)[j]?).join = if j = i then none else (h.cells[j]?).join
    rw [List.getElem?_set]
    by_cases hj : i = j
    · rw [if_pos hj, if_pos hj.symm]
      split
      · rfl
      · rfl
    · rw [if_neg hj, if_neg (Ne.symm hj)]
  · rename_i hnone
    split
    · rename_i hj
      rw [hj]
      exact Option.not_isSome_iff_eq_none.mp hnone
    · rfl

theorem length_release : (h.release i).cells.length = h.cells.length := by
  unfold release
  split
  · exact List.length_set
  · rfl

theorem Ok.release (hh : h.Ok) (i : Nat) : (h.release i).Ok := by
  by_cases hi : (h.get? i).isSome
  · have hfree : (h.release i).free = i :: h.free := by
      unfold Heap.release
      rw [if_pos hi]
    obtain ⟨x, hx⟩ := Option.isSome_iff_exists.mp hi
    have hfresh : i ∉ h.free := fun hmem => by
      rw [((hh.mem_free i).mp hmem).2] at hx
      exact absurd hx (by simp)
    refine ⟨hfree ▸ List.nodup_cons.mpr ⟨hfresh, hh.nodup⟩, fun j => ?_⟩
    rw [hfree, length_release, get?_release, List.mem_cons, hh.mem_free j]
    by_cases hj : j = i
    · rw [if_pos hj]
      exact iff_of_true (Or.inl hj) ⟨hj ▸ lt_of_get? hx, rfl⟩
    · rw [if_neg hj]
      exact or_iff_right hj
  · unfold Heap.release
    rw [if_neg hi]
    exact hh

theorem get?_releaseAll : (h.releaseAll is).get? j = if j ∈ is then none else h.get? j := by
  induction is generalizing h with
  | nil => rfl
  | cons i is ih =>
    show ((h.release i).releaseAll is).get? j = _
    rw [ih, get?_release]
    by_cases hj : j ∈ is
    · rw [if_pos hj, if_pos (List.mem_cons_of_mem i hj)]
    · rw [if_neg hj]
      by_cases hi : j = i
      · rw [if_pos hi, if_pos (hi ▸ List.mem_cons_self)]
      · rw [if_neg hi, if_neg fun h => (List.mem_cons.mp h).elim hi hj]

theorem Ok.releaseAll (hh : h.Ok) (is : List Nat) : (h.releaseAll is).Ok := by
  induction is generalizing h with
  | nil => exact hh
  | cons i is ih => exact ih (hh.release i)

theorem releaseAll_append (is js : List Nat) :
    h.releaseAll (is ++ js) = (h.releaseAll is).releaseAll js :=
  List.foldl_append

/-! ## Counting -/

/-- **The number of occupied cells** (`live`) is the length of a list of them. -/
theorem Ok.live_eq (hh : h.Ok) (hn : is.Nodup) (his : ∀ i, i ∈ is ↔ (h.get? i).isSome) :
    h.live = is.length := by
  have hperm : (is ++ h.free).Perm (List.range h.cells.length) := by
    have hdisjoint : List.Disjoint is h.free := fun i hi hf => by
      have hsome := (his i).mp hi
      rw [((hh.mem_free i).mp hf).2] at hsome
      exact absurd hsome (by simp)
    rw [List.perm_ext_iff_of_nodup (hn.append hh.nodup hdisjoint) List.nodup_range]
    intro i
    rw [List.mem_append, his, hh.mem_free, List.mem_range]
    cases hx : h.get? i with
    | none => simp
    | some x => simpa using lt_of_get? hx
  have hlength := hperm.length_eq
  rw [List.length_append, List.length_range] at hlength
  unfold live
  omega

end Troupe.Heap
