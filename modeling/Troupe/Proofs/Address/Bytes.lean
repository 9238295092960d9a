import Mathlib.Data.Char
import Mathlib.Tactic.SplitIfs
import Troupe.Proofs.Address.Subtree

/-!
# Texts as bytes

Texts are kept as bytes (`utf8`), and what compares them, or looks at what they start with, goes by
bytes. That comes to the same as going by characters: the bytes of two characters differ, and where
they first do so the smaller character has the smaller byte. `Precedes` says that two lists of bytes
differ before either ends, and which is the smaller where they first do; `Precedes.cons` goes on
past a byte that is the same and `Precedes.head` decides.

Headlines:
* **`precedes_of_lt`**: characters are in the order of their bytes.
* **`compare_utf8`**: texts are in the order of their bytes.
* **`utf8_prefix_iff`**: a text starts with another if its bytes start with those of the other.
* `Address.compare_bytes`: the order of addresses is that of their bytes (`Address.bytes`).
-/

namespace Troupe

/-- The bytes of a text (`String.utf8EncodeChar`, one character after the other). -/
def utf8 (cs : List Char) : List UInt8 :=
  (String.ofList cs).toByteArray.data.toList

theorem utf8_eq_flatMap (cs : List Char) : utf8 cs = cs.flatMap String.utf8EncodeChar := by
  rw [utf8, String.toByteArray_ofList, List.utf8Encode, List.toList_data_toByteArray]

theorem utf8_cons (c : Char) (cs : List Char) :
    utf8 (c :: cs) = String.utf8EncodeChar c ++ utf8 cs := by
  rw [utf8_eq_flatMap, utf8_eq_flatMap, List.flatMap_cons]

theorem utf8_append (cs ds : List Char) : utf8 (cs ++ ds) = utf8 cs ++ utf8 ds := by
  rw [utf8_eq_flatMap, utf8_eq_flatMap, utf8_eq_flatMap, List.flatMap_append]

theorem utf8_cons_ne_nil (c : Char) (cs : List Char) : utf8 (c :: cs) ≠ [] := by
  rw [utf8_cons]
  exact List.append_ne_nil_of_left_ne_nil String.utf8EncodeChar_ne_nil _

/-! ## The first difference -/

/-- Two lists of bytes differ before either ends, and where they first do so `xs` has the smaller
byte. -/
def Precedes (xs ys : List UInt8) : Prop :=
  ∃ shared x xs' y ys', xs = shared ++ x :: xs' ∧ ys = shared ++ y :: ys' ∧ x < y

namespace Precedes

variable {xs ys : List UInt8} {m n : Nat}

theorem cons (b : UInt8) (h : Precedes xs ys) : Precedes (b :: xs) (b :: ys) := by
  obtain ⟨shared, x, xs', y, ys', rfl, rfl, hlt⟩ := h
  exact ⟨b :: shared, x, xs', y, ys', rfl, rfl, hlt⟩

theorem head (h : m < n) (hn : n < 256) : Precedes (.ofNat m :: xs) (.ofNat n :: ys) := by
  refine ⟨[], _, xs, _, ys, rfl, rfl, ?_⟩
  rw [UInt8.lt_iff_toNat_lt, UInt8.toNat_ofNat', UInt8.toNat_ofNat']
  omega

/-- The first byte decides, or the others do (`Precedes`). -/
theorem digit (h : m ≤ n) (hn : n < 256) (hrest : m = n → Precedes xs ys) :
    Precedes (.ofNat m :: xs) (.ofNat n :: ys) := by
  rcases Nat.lt_or_eq_of_le h with hlt | rfl
  · exact .head hlt hn
  · exact .cons _ (hrest rfl)

theorem compare_append (h : Precedes xs ys) (as bs : List UInt8) :
    compare (xs ++ as) (ys ++ bs) = .lt := by
  obtain ⟨shared, x, xs', y, ys', rfl, rfl, hlt⟩ := h
  have hxy : compare x y = .lt := compareOfLessAndEq_eq_lt.mpr hlt
  rw [List.append_assoc, List.append_assoc, compare_append_left, List.cons_append, List.cons_append,
    List.compare_cons_cons, hxy]
  rfl

theorem not_begins (h : Precedes xs ys) (as bs : List UInt8) :
    ¬ xs ++ as <+: ys ++ bs ∧ ¬ ys ++ bs <+: xs ++ as := by
  obtain ⟨shared, x, xs', y, ys', rfl, rfl, hlt⟩ := h
  have hne : x ≠ y := fun he => UInt8.lt_irrefl y (he ▸ hlt)
  rw [List.append_assoc, List.append_assoc, List.prefix_append_right_inj,
    List.prefix_append_right_inj, List.cons_append, List.cons_append, List.cons_prefix_cons,
    List.cons_prefix_cons]
  exact ⟨fun h => hne h.1, fun h => hne h.1.symm⟩

end Precedes

/-- **Characters are in the order of their bytes.** (`Precedes`) The first byte tells how many there
are, which is more for greater characters; and of as many bytes each is a digit of the character. -/
theorem precedes_of_lt {c d : Char} (h : c < d) :
    Precedes (String.utf8EncodeChar c) (String.utf8EncodeChar d) := by
  have hlt : c.val.toNat < d.val.toNat := h
  have hd : d.val.toNat < 0x110000 := by
    rcases d.valid with hd | hd
    · exact Nat.lt_trans hd (by decide)
    · exact hd.2
  unfold String.utf8EncodeChar
  generalize c.val.toNat = m at hlt
  generalize d.val.toNat = n at hlt hd
  dsimp only
  by_cases h₁ : n ≤ 0x7f
  · rw [if_pos h₁, if_pos (by omega)]
    exact .head hlt (by omega)
  by_cases h₂ : n ≤ 0x7ff
  · rw [if_neg h₁, if_pos h₂, if_pos (show m ≤ 0x7ff by omega)]
    split_ifs
    · exact .head (by omega) (by omega)
    · exact .digit (by omega) (by omega) fun _ => .head (by omega) (by omega)
  by_cases h₃ : n ≤ 0xffff
  · rw [if_neg h₁, if_neg h₂, if_pos h₃, if_pos (show m ≤ 0xffff by omega)]
    split_ifs
    · exact .head (by omega) (by omega)
    · exact .head (by omega) (by omega)
    · exact .digit (by omega) (by omega) fun _ => .digit (by omega) (by omega) fun _ =>
        .head (by omega) (by omega)
  · rw [if_neg h₁, if_neg h₂, if_neg h₃]
    split_ifs
    · exact .head (by omega) (by omega)
    · exact .head (by omega) (by omega)
    · exact .head (by omega) (by omega)
    · exact .digit (by omega) (by omega) fun _ => .digit (by omega) (by omega) fun _ =>
        .digit (by omega) (by omega) fun _ => .head (by omega) (by omega)

/-! ## Texts -/

theorem compare_utf8_of_lt {c d : Char} (h : c < d) (cs ds : List Char) :
    compare (utf8 (c :: cs)) (utf8 (d :: ds)) = compare (c :: cs) (d :: ds) := by
  have hcd : compare c d = .lt := compareOfLessAndEq_eq_lt.mpr h
  rw [utf8_cons, utf8_cons, List.compare_cons_cons, hcd]
  exact (precedes_of_lt h).compare_append _ _

/-- **Texts are in the order of their bytes** (`utf8`). -/
theorem compare_utf8 (cs ds : List Char) : compare (utf8 cs) (utf8 ds) = compare cs ds := by
  induction cs generalizing ds with
  | nil =>
    cases ds with
    | nil => rfl
    | cons d ds =>
      obtain ⟨b, bs, hb⟩ := List.exists_cons_of_ne_nil (utf8_cons_ne_nil d ds)
      rw [hb]
      rfl
  | cons c cs ih =>
    cases ds with
    | nil =>
      obtain ⟨b, bs, hb⟩ := List.exists_cons_of_ne_nil (utf8_cons_ne_nil c cs)
      rw [hb]
      rfl
    | cons d ds =>
      rcases lt_trichotomy c d with hlt | rfl | hgt
      · exact compare_utf8_of_lt hlt cs ds
      · rw [utf8_cons, utf8_cons, compare_append_left, ih]
        exact (compare_append_left [c] cs ds).symm
      · rw [Std.OrientedOrd.eq_swap, compare_utf8_of_lt hgt, ← Std.OrientedOrd.eq_swap]

/-- **What a text starts with** is what its bytes start with (`utf8`). -/
theorem utf8_prefix_iff (cs ds : List Char) : utf8 cs <+: utf8 ds ↔ cs <+: ds := by
  constructor
  · intro h
    induction cs generalizing ds with
    | nil => exact List.nil_prefix
    | cons c cs ih =>
      cases ds with
      | nil => exact absurd (List.prefix_nil.mp h) (utf8_cons_ne_nil c cs)
      | cons d ds =>
        rw [utf8_cons, utf8_cons] at h
        rcases lt_trichotomy c d with hlt | rfl | hgt
        · exact absurd h ((precedes_of_lt hlt).not_begins _ _).1
        · exact List.cons_prefix_cons.mpr ⟨rfl, ih ds ((List.prefix_append_right_inj _).mp h)⟩
        · exact absurd h ((precedes_of_lt hgt).not_begins _ _).2
  · rintro ⟨rest, rfl⟩
    exact ⟨utf8 rest, (utf8_append cs rest).symm⟩

/-! ## Addresses -/

namespace Address

/-- The bytes of a written address (`Address.chars`). -/
def bytes (a : Address) : List UInt8 :=
  utf8 a.chars

/-- The bytes that everything below an address starts with (`Address.subtreeStart`). -/
def startBytes (a : Address) : List UInt8 :=
  utf8 a.subtreeStart

/-- **The order of addresses** is that of their bytes (`bytes`). -/
theorem compare_bytes (a b : Address) : compare a.bytes b.bytes = compare a b :=
  compare_utf8 _ _

end Address

end Troupe
