import Mathlib.Data.List.Perm.Subperm
import Troupe.Proofs.Machine.Heap

/-!
# The cells of a heap

However a heap is used (`Heap.Use`), whatever is released (`Heap.release`) and however often, its
free list holds each empty cell once (`Heap.Ok`). So an object never gets a cell that another one
has, and a cell that was released may be released again without harm until it is handed out again
(`Heap.alloc`, `Heap.handed`). The free list is a stack, as that of the source's `Heap`: what was
released last is handed out first.

Headlines:
* **`Heap.cells_in_order`**: what users may rely on after any sequence of uses (`Heap.Slab`).
* `Heap.Ok.on`, `Heap.Ok.after`: one use, and any number of them, keep the free list in order.
* `Heap.Ok.stays_occupied`, `Heap.Ok.stays_empty`: a cell changes only if it is released or handed
  out.
-/

namespace Troupe.Heap

/-- What is done with a heap: an object is put into it (`Heap.alloc`), or a cell is released, be it
occupied, empty or not there at all. -/
inductive Use (α : Type)
  | alloc (x : α)
  | release (i : Nat)

variable {α : Type} {h : Heap α} {i j : Nat} {x : α} {us : List (Use α)}

/-- The heap after it. -/
def Use.on (h : Heap α) : Use α → Heap α
  | alloc x => (h.alloc x).2
  | release i => h.release i

/-- The heap after one use and another (`Use.on`). -/
def after (h : Heap α) (us : List (Use α)) : Heap α :=
  us.foldl Use.on h

/-- The cells that are handed out meanwhile (`Heap.alloc`), in order. -/
def handed (h : Heap α) : List (Use α) → List Nat
  | [] => []
  | .alloc x :: us => (h.alloc x).1 :: (h.alloc x).2.handed us
  | .release i :: us => (h.release i).handed us

/-! ## One use, and another -/

theorem Ok.on (hh : h.Ok) (u : Use α) : (u.on h).Ok := by
  cases u with
  | alloc x => exact hh.alloc x
  | release i => exact hh.release i

theorem Ok.after (hh : h.Ok) (us : List (Use α)) : (h.after us).Ok := by
  induction us generalizing h with
  | nil => exact hh
  | cons u us ih => exact ih (hh.on u)

theorem release_of_none (hi : h.get? i = none) : h.release i = h := by
  unfold release
  rw [hi]
  rfl

/-- **What is empty stays empty** until it is handed out (`Heap.handed`). -/
theorem Ok.stays_empty (hh : h.Ok) (hi : h.get? i = none) (hus : i ∉ h.handed us) :
    (h.after us).get? i = none := by
  induction us generalizing h with
  | nil => exact hi
  | cons u us ih =>
    refine ih (hh.on u) ?_ ?_
    · cases u with
      | alloc x =>
        have hne : i ≠ (h.alloc x).1 := fun he => hus (he ▸ List.mem_cons_self)
        exact ((hh.get?_alloc x).2 i).trans ((if_neg hne).trans hi)
      | release j =>
        refine get?_release.trans ?_
        rw [hi, ite_self]
    · cases u with
      | alloc x => exact fun hmem => hus (List.mem_cons_of_mem _ hmem)
      | release j => exact hus

/-- **What is occupied stays so**, by the same object, and is not handed out until it is released
(`Heap.release`). -/
theorem Ok.stays_occupied (hh : h.Ok) (hi : h.get? i = some x) (hus : .release i ∉ us) :
    (h.after us).get? i = some x ∧ i ∉ h.handed us := by
  induction us generalizing h with
  | nil => exact ⟨hi, List.not_mem_nil⟩
  | cons u us ih =>
    obtain ⟨hu, hlater⟩ := not_or.mp (mt List.mem_cons.mpr hus)
    cases u with
    | alloc y =>
      obtain ⟨hempty, hget⟩ := hh.get?_alloc y
      have hne : i ≠ (h.alloc y).1 := by
        rintro rfl
        exact absurd (hi.symm.trans hempty) (by simp)
      obtain ⟨hkept, hnot⟩ := ih (hh.alloc y) ((hget i).trans ((if_neg hne).trans hi)) hlater
      exact ⟨hkept, fun hmem => (List.mem_cons.mp hmem).elim hne hnot⟩
    | release j =>
      have hne : i ≠ j := fun he => hu (he ▸ rfl)
      exact ih (hh.release j) (get?_release.trans ((if_neg hne).trans hi)) hlater

/-! ## Counting -/

/-- **The number of occupied cells** is what is counted (`Heap.live`). -/
theorem Ok.live_eq_countP (hh : h.Ok) : h.live = h.cells.countP Option.isSome := by
  have hcells : h.cells = (List.range h.cells.length).map h.get? := by
    refine List.ext_getElem (by simp) fun i hi _ => ?_
    simp [get?, hi]
  have hcount : h.cells.countP Option.isSome =
      ((List.range h.cells.length).filter fun i => (h.get? i).isSome).length := by
    rw [← List.countP_eq_length_filter]
    conv_lhs => rw [hcells, List.countP_map]
    rfl
  rw [hcount]
  refine hh.live_eq (List.nodup_range.filter _) fun i => ?_
  rw [List.mem_filter, List.mem_range]
  refine and_iff_right_of_imp fun hi => ?_
  obtain ⟨x, hx⟩ := Option.isSome_iff_exists.mp hi
  exact lt_of_get? hx

theorem Ok.length_free_le (hh : h.Ok) : h.free.length ≤ h.cells.length := by
  have hsub : h.free ⊆ List.range h.cells.length := fun i hi =>
    List.mem_range.mpr ((hh.mem_free i).mp hi).1
  have hle := (hh.nodup.subperm hsub).length_le
  rwa [List.length_range] at hle

/-! ## What users may rely on -/

/-- What is known of a heap: of its cells, of its free list, and of what a use makes of them. -/
structure Slab (h : Heap α) : Prop where
  /-- The free list holds each empty cell once, and no others. -/
  free : h.free.Nodup ∧ ∀ i, i ∈ h.free ↔ h.cells[i]? = some none
  /-- Those that are not empty are counted. -/
  live : h.live = h.cells.countP Option.isSome ∧ h.live + h.free.length = h.cells.length
  /-- An object gets an empty cell, where it is found, and nothing else changes. -/
  alloc : ∀ x, h.get? (h.alloc x).1 = none ∧
    ∀ j, (h.alloc x).2.get? j = if j = (h.alloc x).1 then some x else h.get? j
  /-- The number of the cell fits into a word of 32 bits, as long as fewer cells are there than
  such a word can tell apart. -/
  word : h.cells.length < UInt32.size → ∀ x, (UInt32.ofNat (h.alloc x).1).toNat = (h.alloc x).1
  /-- Nothing changes but the cell that is released. -/
  release : ∀ i j, (h.release i).get? j = if j = i then none else h.get? j
  /-- It may be released again, until it is handed out. -/
  again : ∀ i us, i ∉ (h.release i).handed us →
    ((h.release i).after us).release i = (h.release i).after us
  /-- Until it is released, an object is where it is, and its cell is not handed out. -/
  kept : ∀ i x us, h.get? i = some x → .release i ∉ us →
    (h.after us).get? i = some x ∧ i ∉ h.handed us

theorem Ok.alloc_le (hh : h.Ok) (x : α) : (h.alloc x).1 ≤ h.cells.length := by
  unfold Heap.alloc
  split
  · rename_i i rest hfree
    exact Nat.le_of_lt ((hh.mem_free i).mp (hfree ▸ List.mem_cons_self)).1
  · exact Nat.le_refl _

theorem mem_free_cells_iff : (i < h.cells.length ∧ h.get? i = none) ↔ h.cells[i]? = some none := by
  unfold get?
  constructor
  · rintro ⟨hlt, hnone⟩
    rw [List.getElem?_eq_getElem hlt] at hnone ⊢
    exact congrArg some hnone
  · intro hcell
    exact ⟨(List.getElem?_eq_some_iff.mp hcell).1, by rw [hcell]; rfl⟩

theorem Ok.slab (hh : h.Ok) : h.Slab where
  free := ⟨hh.nodup, fun i => (hh.mem_free i).trans mem_free_cells_iff⟩
  live := ⟨hh.live_eq_countP, Nat.sub_add_cancel hh.length_free_le⟩
  alloc := hh.get?_alloc
  word hlt x := UInt32.toNat_ofNat_of_lt' (Nat.lt_of_le_of_lt (hh.alloc_le x) hlt)
  release _ _ := get?_release
  again i _ hus :=
    release_of_none ((hh.release i).stays_empty (get?_release.trans (if_pos rfl)) hus)
  kept _ _ _ hi hus := hh.stays_occupied hi hus

/-- **The cells are in order** (`Heap.Slab`) after any sequence of uses. -/
theorem cells_in_order (us : List (Use α)) : ((∅ : Heap α).after us).Slab :=
  (Ok.empty.after us).slab

/-- A cell that was released twice (`Heap.release`) is handed out once. -/
theorem released_twice : ∃ h : Heap Nat,
    (∅ : Heap Nat).after [.alloc 5, .alloc 6, .release 0, .release 0] = h ∧ h.Slab ∧
      h.free = [0] ∧ h.live = 1 ∧ h.handed [.alloc 7, .alloc 8] = [0, 2] ∧ h.get? 1 = some 6 :=
  ⟨_, rfl, cells_in_order _, rfl, rfl, rfl, rfl⟩

end Troupe.Heap
