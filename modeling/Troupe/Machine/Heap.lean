/-!
# Heaps

The heap of a machine (`Heap`), in which texts, messages and templates are kept while scripts run. A
cell is named by its number, and who holds the number of a cell is no concern of the heap: frames
own cells (`Frame.owned`) and release them when they are left.

* `Heap.get?` reads a cell, if it is in use.
* `Heap.alloc` takes the cell that was freed last, or a new one behind all others.
* `Heap.release` empties a cell; released twice, or never handed out, it stays as it is.
* `Heap.releaseAll` empties several, and `Heap.live` counts the cells that are in use.

That a heap never hands out a cell that is in use, and that `Heap.live` is right, is shown in
`Troupe.Proofs.Machine.Heap`, from an order of its cells and its list of empty ones that both
operations keep (`Heap.Ok`). What it comes to for any sequence of uses is said in
`Troupe.Proofs.Guarantee.Cells`.

Out of scope: numbers of cells are not bounded. They are 32-bit words in the source, so what is said
here holds of a heap with fewer cells than that.
-/

namespace Troupe

/-- Numbered cells, and the numbers of the empty ones, the latest freed first (`Heap`). -/
structure Heap (α : Type) where
  cells : List (Option α)
  free : List Nat

namespace Heap

variable {α : Type}

/-- The heap without cells (`Heap::new`). -/
def empty : Heap α :=
  ⟨[], []⟩

instance : EmptyCollection (Heap α) := ⟨empty⟩

/-- The object in a cell (`Heap::get`). -/
def get? (h : Heap α) (i : Nat) : Option α :=
  h.cells[i]?.join

/-- Puts an object into a cell and answers its number (`Heap::alloc`). -/
def alloc (h : Heap α) (x : α) : Nat × Heap α :=
  match h.free with
  | i :: rest => (i, ⟨h.cells.set i (some x), rest⟩)
  | [] => (h.cells.length, ⟨h.cells ++ [some x], []⟩)

/-- Empties a cell (`Heap::release`). -/
def release (h : Heap α) (i : Nat) : Heap α :=
  if (h.get? i).isSome then ⟨h.cells.set i none, i :: h.free⟩ else h

/-- The number of occupied cells (`Heap::live`). -/
def live (h : Heap α) : Nat :=
  h.cells.length - h.free.length

/-- Empties cells in order (`release`). -/
def releaseAll (h : Heap α) (is : List Nat) : Heap α :=
  is.foldl release h

end Heap

end Troupe
