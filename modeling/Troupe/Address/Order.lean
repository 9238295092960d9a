import Troupe.Address.Basic
import Troupe.Table.Basic

/-!
# The order of addresses

Addresses are ordered by their written forms (`Address.chars`), character by character:
`Address.compare_eq` says so. It is the order of the source's tables, which compares the bytes of
the texts; that the two agree is shown in `Troupe.Proofs.Address.Bytes`.

The order is total and tells addresses apart, because `Address.chars_inj` does, so tables can be
keyed by addresses (`Table`, `AddressSet`), and `Address.sort` brings a list into it.

A sibling whose identifier extends another's may fall between that one and its children: `/a`,
`/a-b`, `/a/b`. So what lives below an address is not what comes right behind it in a table. Whoever
looks for it has to begin at `Address.subtreeStart` (`Platform.descendants`), from where on it does
stand in one stretch.
-/

namespace Troupe

namespace Address

instance : Ord Address := ⟨fun a b => compare a.chars b.chars⟩

theorem compare_eq (a b : Address) : compare a b = compare a.chars b.chars := rfl

instance : Std.TransOrd Address where
  eq_swap {a b} :=
    show compare a.chars b.chars = (compare b.chars a.chars).swap from Std.OrientedCmp.eq_swap
  isLE_trans {a b c} (h₁ : (compare a.chars b.chars).isLE) (h₂ : (compare b.chars c.chars).isLE) :=
    show (compare a.chars c.chars).isLE from Std.TransCmp.isLE_trans h₁ h₂

instance : Std.LawfulEqOrd Address where
  compare_self {a} := show compare a.chars a.chars = .eq from Std.ReflCmp.compare_self
  eq_of_compare {a b} (h : compare a.chars b.chars = .eq) :=
    chars_inj (Std.LawfulEqCmp.eq_of_compare h)

/-- The addresses in ascending order (`compare_eq`). -/
def sort (as : List Address) : List Address :=
  as.mergeSort fun a b => (compare a b).isLE

end Address

/-- A set of addresses, in the order of the written forms (`KeySet`). -/
abbrev AddressSet := KeySet Address

end Troupe
