/-!
# Ordered tables

A `Table` is a finite map whose entries stand in strictly ascending order of their keys, and that
order is part of it (`Table.ascending`). Every operation keeps it: `insert`, `erase`, `modify`,
`retain`, `mapValues`. A `KeySet` is a table without values.

Tables stand for two kinds of collection. Where the source keeps an ordered map (`BTreeMap`), the
order of the entries is the order in which they are found. Where it keeps an unordered one
(`HashMap`, `HashSet`), nobody asks for an order, and having one does no harm.

* `ascending_putEntry` is what carries the order through an insertion (`putEntry`); the other
  operations only leave entries out or change values.
* What the operations do to the entries is said in `Troupe.Table.Lemmas`, through `Table.get?`.
* Looking a key up goes through the entries. Tables are small, and no result depends on how long it
  takes.
-/

namespace Troupe

/-- A finite map with its entries in ascending key order (`BTreeMap`). -/
structure Table (κ ν : Type) [Ord κ] where
  entries : List (κ × ν)
  ascending : entries.Pairwise fun a b => compare a.1 b.1 = .lt

namespace Table

variable {κ ν : Type} [Ord κ]

/-- The table without entries. -/
def empty : Table κ ν :=
  ⟨[], List.Pairwise.nil⟩

instance : EmptyCollection (Table κ ν) := ⟨empty⟩

instance : Inhabited (Table κ ν) := ⟨empty⟩

/-- The keys, in ascending order. -/
def keys (t : Table κ ν) : List κ :=
  t.entries.map Prod.fst

/-- The number of entries. -/
def size (t : Table κ ν) : Nat :=
  t.entries.length

/-- Whether there is no entry (`entries`). -/
def isEmpty (t : Table κ ν) : Bool :=
  t.entries.isEmpty

/-- The entries that pass a test (`retain`). -/
def retain (t : Table κ ν) (p : κ → ν → Bool) : Table κ ν :=
  ⟨t.entries.filter fun e => p e.1 e.2, t.ascending.sublist List.filter_sublist⟩

/-- Changes every value. -/
def mapValues {μ : Type} (t : Table κ ν) (f : κ → ν → μ) : Table κ μ :=
  ⟨t.entries.map fun e => (e.1, f e.1 e.2), List.pairwise_map.mpr t.ascending⟩

/-- Puts an entry into an ascending list, over an entry of that key (`insert`). -/
def putEntry (k : κ) (v : ν) : List (κ × ν) → List (κ × ν)
  | [] => [(k, v)]
  | e :: rest =>
    match compare k e.1 with
    | .lt => (k, v) :: e :: rest
    | .eq => (k, v) :: rest
    | .gt => e :: putEntry k v rest

theorem mem_putEntry {k : κ} {v : ν} {l : List (κ × ν)} {e : κ × ν} (h : e ∈ putEntry k v l) :
    e = (k, v) ∨ e ∈ l := by
  induction l with
  | nil => simpa [putEntry] using h
  | cons a l ih =>
    rw [putEntry] at h
    split at h <;> grind

theorem ascending_putEntry [Std.TransOrd κ] {k : κ} {v : ν} {l : List (κ × ν)}
    (h : l.Pairwise fun a b => compare a.1 b.1 = .lt) :
    (putEntry k v l).Pairwise fun a b => compare a.1 b.1 = .lt := by
  induction l with
  | nil => simp [putEntry]
  | cons a l ih =>
    obtain ⟨ha, hl⟩ := List.pairwise_cons.mp h
    rw [putEntry]
    split
    next hk =>
      refine List.pairwise_cons.mpr ⟨fun b hb => ?_, h⟩
      rcases List.mem_cons.mp hb with rfl | hb
      · exact hk
      · exact Std.TransCmp.lt_trans hk (ha b hb)
    next hk =>
      exact List.pairwise_cons.mpr ⟨fun b hb => Std.TransCmp.lt_of_eq_of_lt hk (ha b hb), hl⟩
    next hk =>
      refine List.pairwise_cons.mpr ⟨fun b hb => ?_, ih hl⟩
      rcases mem_putEntry hb with rfl | hb
      · exact Std.OrientedCmp.lt_of_gt hk
      · exact ha b hb

/-- Puts an entry, over an entry of that key (`putEntry`). -/
def insert [Std.TransOrd κ] (t : Table κ ν) (k : κ) (v : ν) : Table κ ν :=
  ⟨putEntry k v t.entries, ascending_putEntry t.ascending⟩

variable [DecidableEq κ]

/-- The value at a key (`entries`). -/
def get? (t : Table κ ν) (k : κ) : Option ν :=
  (t.entries.find? fun e => e.1 = k).map Prod.snd

/-- Whether a key has an entry (`entries`). -/
def contains (t : Table κ ν) (k : κ) : Bool :=
  t.entries.any fun e => e.1 = k

/-- Removes the entry of a key (`retain`). -/
def erase (t : Table κ ν) (k : κ) : Table κ ν :=
  t.retain fun k' _ => k' ≠ k

/-- Changes the value at a key, if there is one (`mapValues`). -/
def modify (t : Table κ ν) (k : κ) (f : ν → ν) : Table κ ν :=
  t.mapValues fun k' v => if k' = k then f v else v

end Table

/-- A finite set of keys (`Table`, the source's `BTreeSet`). -/
abbrev KeySet (κ : Type) [Ord κ] := Table κ Unit

/-- Puts a key into a set (`insert`). -/
def KeySet.put {κ : Type} [Ord κ] [Std.TransOrd κ] (s : KeySet κ) (k : κ) : KeySet κ :=
  s.insert k ()

end Troupe
