import Mathlib.Data.List.Infix
import Troupe.Proofs.Address.Parsing
import Troupe.Proofs.Address.Subtree

/-!
# Addresses as lists of identifiers

An address other than the discard address is a list of identifiers (`Address.ids`), and each list of
identifiers (`IsId`) is one such address. Its text has each identifier behind a separator
(`written`), and no other text can be read. All that addresses are asked (`Address.parent`,
`Address.isBelow`, `Address.ancestry`, `Address.depth`) is said of these lists.

That the text says the same comes from cutting it at its separators (`pieces`, `flatMap_pieces`): a
path is written with as many of them as it has steps (`Path.count_body`), and going down adds pieces
(`Path.body_of_descend`). Above and below are then first parts of lists (`Path.mem_before_iff`,
`Path.isBelow_total`), and, in the written form, of texts (`Address.isBelow_iff_text`).

Headlines:
* **`Address.parse?_eq_some_iff`**: what can be read is what is written.
* **`Path.ids_injective`**, **`Path.exists_ids`**: paths are lists of identifiers, one to one.
* **`Path.isBelow_iff_ids`**, **`Path.ids_lineage`**: going down is making the list longer.
* `Address.make_isOk_iff`: an address is made from an identifier, below every address but the
  discard address.
-/

namespace Troupe

/-- A text that can name an actor: it is not empty, holds no `separator` and is not the `selfToken`.
-/
structure IsId (id : String) : Prop where
  nonempty : id ≠ ""
  whole : separator ∉ id.toList
  other : id ≠ selfToken

/-- The text of a list of identifiers: each behind a separator (`separator`), or the separator alone
if there is none. -/
def written (ids : List String) : String :=
  String.ofList (if ids = [] then [separator] else ids.flatMap fun id => separator :: id.toList)

/-! ## Identifiers -/

theorem idFlaw?_eq_none_iff {cs : List Char} :
    idFlaw? cs = none ↔ cs ≠ [] ∧ separator ∉ cs ∧ cs ≠ ['$'] := by
  unfold idFlaw? separator
  by_cases hempty : cs = []
  · simp [hempty]
  · by_cases hsep : '/' ∈ cs
    · simp [hempty, hsep]
    · by_cases hself : cs = ['$']
      · simp [hself]
      · simp [hempty, hsep, hself]

theorem isId_iff {id : String} : IsId id ↔ idFlaw? id.toList = none := by
  have hempty : id = "" ↔ id.toList = [] := by rw [← String.toList_inj]; rfl
  have hself : id = selfToken ↔ id.toList = ['$'] := by rw [← String.toList_inj]; rfl
  rw [idFlaw?_eq_none_iff, ne_eq, ne_eq, ← hempty, ← hself]
  exact ⟨fun h => ⟨h.nonempty, h.whole, h.other⟩, fun h => ⟨h.1, h.2.1, h.2.2⟩⟩

namespace Segment

theorem toList_text (s : Segment) : s.text.toList = s.chars :=
  String.toList_ofList

theorem isId_text (s : Segment) : IsId s.text :=
  isId_iff.mpr (s.toList_text ▸ s.flawless)

theorem text_injective : Function.Injective text := by
  intro s t h
  have hchars := congrArg String.toList h
  rw [toList_text, toList_text] at hchars
  exact ext_chars hchars

theorem exists_text {id : String} (h : IsId id) : ∃ s : Segment, s.text = id :=
  ⟨⟨id.toList, isId_iff.mp h⟩, String.ofList_toList⟩

theorem chars_of_ofChars {cs : List Char} {s : Segment} (h : ofChars cs = .ok s) :
    s.chars = cs := by
  unfold ofChars at h
  split at h
  · exact congrArg chars (Except.ok.inj h).symm
  · exact absurd h (by simp)

theorem text_of_ofChars {id : String} {s : Segment} (h : ofChars id.toList = .ok s) :
    s.text = id := by
  rw [text, chars_of_ofChars h, String.ofList_toList]

theorem ofChars_toList_text (s : Segment) : ofChars s.text.toList = .ok s := by
  rw [toList_text, ofChars_chars]

end Segment

/-! ## Paths -/

namespace Path

/-- The identifiers along a path (`Segment.text`), as texts. -/
def ids (p : Path) : List String :=
  p.segments.map Segment.text

variable {p q : Path}

@[simp] theorem ids_root : root.ids = [] := rfl

@[simp] theorem ids_child (p : Path) (s : Segment) : (p.child s).ids = p.ids ++ [s.text] := by
  simp [ids, segments]

theorem isId_of_mem_ids {id : String} (h : id ∈ p.ids) : IsId id := by
  obtain ⟨s, -, rfl⟩ := List.mem_map.mp h
  exact s.isId_text

theorem ids_injective : Function.Injective ids := by
  intro p q h
  induction p generalizing q with
  | root => cases q <;> simp_all
  | child p s ih =>
    cases q with
    | root => simp at h
    | child q t =>
      rw [ids_child, ids_child] at h
      obtain ⟨hids, hlast⟩ := List.append_inj' h rfl
      rw [ih hids, Segment.text_injective (List.cons.inj hlast).1]

theorem exists_ids {ids : List String} (h : ∀ id ∈ ids, IsId id) : ∃ p : Path, p.ids = ids := by
  induction ids using List.reverseRecOn with
  | nil => exact ⟨root, rfl⟩
  | append_singleton ids id ih =>
    obtain ⟨p, hp⟩ := ih fun i hi => h i (List.mem_append_left _ hi)
    obtain ⟨s, hs⟩ := Segment.exists_text (h id (by simp))
    exact ⟨p.child s, by rw [ids_child, hp, hs]⟩

theorem depth_eq_length (p : Path) : p.depth = p.ids.length := by
  induction p with
  | root => rfl
  | child p s ih => rw [depth, ids_child, List.length_append, ih]; rfl

theorem body_eq_flatMap (p : Path) : p.body = p.ids.flatMap fun id => separator :: id.toList := by
  induction p with
  | root => rfl
  | child p s ih =>
    rw [body, ids_child, List.flatMap_append, ih, List.flatMap_singleton, Segment.toList_text]
    rfl

/-- The separators of a written path are its steps (`Path.depth`). -/
theorem count_body (p : Path) : p.body.count separator = p.depth := by
  induction p with
  | root => rfl
  | child p s ih =>
    have hnone : s.chars.count separator = 0 := List.count_eq_zero.mpr s.separator_notMem
    rw [body, List.count_append, ih, show ('/' : Char) = separator from rfl, List.count_cons_self,
      hnone, depth]

/-! ### Above and below -/

theorem mem_lineage_iff : q ∈ p.lineage ↔ q = p ∨ p.isBelow q = true := by
  induction p with
  | root => simp [lineage, isBelow]
  | child p s ih =>
    rw [lineage, List.mem_cons, ih, isBelow, Bool.or_eq_true, beq_iff_eq, eq_comm (a := p)]

/-- Above a path is what comes behind it in its lineage (`Path.lineage`). -/
theorem mem_tail_lineage_iff : q ∈ p.lineage.tail ↔ p.isBelow q = true := by
  cases p with
  | root => simp [lineage, isBelow]
  | child p s =>
    rw [lineage, List.tail_cons, mem_lineage_iff, isBelow, Bool.or_eq_true, beq_iff_eq,
      eq_comm (a := p)]

theorem isBelow_of_mem_lineage {s : Segment} (h : q ∈ p.lineage) :
    (child p s).isBelow q = true := by
  rw [isBelow, Bool.or_eq_true, beq_iff_eq, eq_comm]
  exact mem_lineage_iff.mp h

/-- What stands before a path in a lineage (`Path.lineage`) is what of the lineage is below it. -/
theorem mem_before_iff {before after : List Path} (h : p.lineage = before ++ q :: after)
    {r : Path} : r ∈ before ↔ r ∈ p.lineage ∧ r.isBelow q = true := by
  induction p generalizing before with
  | root =>
    cases before with
    | nil =>
      rw [lineage, List.mem_singleton]
      refine ⟨fun hr => absurd hr List.not_mem_nil, ?_⟩
      rintro ⟨rfl, hbelow⟩
      exact absurd hbelow (by simp [isBelow])
    | cons b before => simp [lineage] at h
  | child p s ih =>
    rw [lineage] at h
    cases before with
    | nil =>
      obtain rfl : child p s = q := (List.cons.inj h).1
      simp only [List.not_mem_nil, false_iff, not_and]
      intro hr hbelow
      have hself : (child p s).isBelow (child p s) = true := by
        rcases mem_lineage_iff.mp hr with rfl | hr
        · exact hbelow
        · exact isBelow_trans hr hbelow
      exact absurd (depth_lt_of_isBelow hself) (Nat.lt_irrefl _)
    | cons b before =>
      obtain ⟨rfl, htail⟩ := List.cons.inj h
      have hbelow : (child p s).isBelow q = true :=
        isBelow_of_mem_lineage (htail ▸ List.mem_append_right before List.mem_cons_self)
      rw [List.mem_cons, ih htail, lineage, List.mem_cons, or_and_right]
      exact or_congr_left ⟨fun hr => ⟨hr, hr ▸ hbelow⟩, And.left⟩

/-- Of two paths in one lineage (`Path.lineage`), one passes through the other. -/
theorem isBelow_total {q r : Path} (hq : q ∈ p.lineage) (hr : r ∈ p.lineage) :
    q = r ∨ q.isBelow r = true ∨ r.isBelow q = true := by
  induction p with
  | root => exact Or.inl ((List.mem_singleton.mp hq).trans (List.mem_singleton.mp hr).symm)
  | child p s ih =>
    rcases List.mem_cons.mp hq with rfl | hq <;> rcases List.mem_cons.mp hr with rfl | hr
    · exact Or.inl rfl
    · exact Or.inr (Or.inl (isBelow_of_mem_lineage hr))
    · exact Or.inr (Or.inr (isBelow_of_mem_lineage hq))
    · exact ih hq hr

/-- **Above and below** (`Path.ids`) are shorter and longer lists. -/
theorem isBelow_iff_ids : p.isBelow q = true ↔ q.ids <+: p.ids ∧ q.ids ≠ p.ids := by
  induction p with
  | root => simp [isBelow]
  | child p s ih =>
    have hlonger : q.ids <+: p.ids → q.ids ≠ p.ids ++ [s.text] := by
      intro h he
      have hle := he ▸ h.length_le
      rw [List.length_append, List.length_singleton] at hle
      omega
    have hself : p = q ∨ p.isBelow q = true ↔ q.ids <+: p.ids := by
      rw [ih]
      refine ⟨?_, fun h => ?_⟩
      · rintro (rfl | h)
        · exact List.prefix_rfl
        · exact h.1
      · by_cases he : q.ids = p.ids
        · exact Or.inl (ids_injective he).symm
        · exact Or.inr ⟨h, he⟩
    rw [isBelow, Bool.or_eq_true, beq_iff_eq, hself, ids_child, List.prefix_concat_iff]
    exact ⟨fun h => ⟨Or.inr h, hlonger h⟩, fun h => h.1.resolve_left h.2⟩

/-- **The lineage** (`Path.lineage`) lists the first parts, the whole first. -/
theorem ids_lineage (p : Path) : p.lineage.map ids = p.ids.inits.reverse := by
  induction p with
  | root => rfl
  | child p s ih =>
    rw [lineage, List.map_cons, ih, ids_child, List.inits_append]
    simp

end Path

/-! ## Reading -/

/-- A text is its pieces (`pieces`), with separators between them. -/
theorem flatMap_pieces (cs : List Char) :
    (pieces cs).flatMap (separator :: ·) = separator :: cs := by
  induction cs with
  | nil => rfl
  | cons c cs ih =>
    rw [pieces]
    by_cases hc : c = '/'
    · rw [if_pos hc, List.flatMap_cons, ih, hc]
      rfl
    · rw [if_neg hc]
      cases hcs : pieces cs with
      | nil => exact absurd hcs (pieces_ne_nil cs)
      | cons w ws =>
        rw [hcs, List.flatMap_cons, List.cons_append, List.cons.injEq] at ih
        simp [ih.2]

/-- Going down (`Path.descend`) adds the pieces to what is written. -/
theorem Path.body_of_descend {p q : Path} {ws : List (List Char)} (h : p.descend ws = some q) :
    q.body = p.body ++ ws.flatMap (separator :: ·) := by
  induction ws generalizing p with
  | nil => simp_all [descend]
  | cons w ws ih =>
    rw [descend] at h
    split at h
    · rename_i s hs
      obtain rfl := Segment.chars_of_ofChars hs
      rw [ih h, body]
      simp [separator]
    · exact absurd h (by simp)

namespace Address

/-- **What can be read** (`parse?`) is what is written. -/
theorem parse?_eq_some_iff {s : String} {a : Address} : parse? s = some a ↔ s = a.text := by
  refine ⟨fun h => ?_, fun h => h ▸ a.parse?_text⟩
  have hchars : s.toList = a.chars := by
    unfold parse? at h
    split at h
    · rename_i hs
      rw [hs, ← Option.some.inj h]
      rfl
    · rename_i hs
      rw [hs, ← Option.some.inj h]
      rfl
    · rename_i hs
      obtain ⟨p, hp, rfl⟩ := Option.map_eq_some_iff.mp h
      have hbody := Path.body_of_descend hp
      rw [flatMap_pieces] at hbody
      cases p with
      | root => exact absurd hbody (by simp [Path.body])
      | child p t => exact hs.trans hbody.symm
    · exact absurd h (by simp)
  rw [text, ← hchars, String.ofList_toList]

theorem text_injective : Function.Injective text := by
  intro a b h
  have hread : some a = some b := by rw [← parse?_text a, h, parse?_text]
  exact Option.some.inj hread

/-! ## Making -/

variable {p a : Address} {id : String}

theorem make_eq_ok_iff :
    make p id = .ok a ↔ ∃ q s, p = path q ∧ id = s.text ∧ a = path (q.child s) := by
  constructor
  · intro h
    unfold make child at h
    cases hs : Segment.ofChars id.toList with
    | error flaw => simp [hs] at h
    | ok s =>
      obtain rfl : s.text = id := Segment.text_of_ofChars hs
      cases p with
      | discard => simp [hs] at h
      | path q => exact ⟨q, s, rfl, rfl, by simpa [hs, eq_comm] using h⟩
  · rintro ⟨q, s, rfl, rfl, rfl⟩
    unfold make child
    rw [s.ofChars_toList_text]

/-- **An address is made** (`make`) from an identifier, below every address but the discard address.
-/
theorem make_isOk_iff : (∃ a, make p id = .ok a) ↔ IsId id ∧ p ≠ discard := by
  constructor
  · rintro ⟨a, h⟩
    obtain ⟨q, s, rfl, rfl, -⟩ := make_eq_ok_iff.mp h
    exact ⟨s.isId_text, by simp⟩
  · rintro ⟨hid, hp⟩
    obtain ⟨s, rfl⟩ := Segment.exists_text hid
    cases p with
    | discard => exact absurd rfl hp
    | path q => exact ⟨path (q.child s), make_eq_ok_iff.mpr ⟨q, s, rfl, rfl, rfl⟩⟩

/-! ## Addresses as lists -/

/-- The identifiers of an address (`Path.ids`); the discard address has none, like the root. -/
def ids : Address → List String
  | discard => []
  | path p => p.ids

theorem chars_eq_body {p : Path} (h : p ≠ .root) : (path p).chars = p.body := by
  cases p with
  | root => exact absurd rfl h
  | child p s => rfl

theorem text_path (p : Path) : (path p).text = written p.ids := by
  unfold text written
  cases p with
  | root => rfl
  | child p s =>
    rw [chars_eq_body (by simp), Path.body_eq_flatMap, if_neg (by simp)]

/-- What an address below the root is written like: its parent, a separator and its identifier. -/
theorem chars_child (p : Path) (s : Segment) :
    (path (p.child s)).chars = p.body ++ separator :: s.chars := rfl

theorem mem_ancestry_iff {a b : Address} (ha : a ≠ discard) : b ∈ a.ancestry ↔ a.Within b := by
  cases a with
  | discard => exact absurd rfl ha
  | path p =>
    rw [ancestry, Within]
    cases b with
    | discard => simp [isBelow]
    | path q =>
      rw [List.mem_map_of_injective fun _ _ => path.inj, Path.mem_lineage_iff, path.injEq,
        eq_comm]
      rfl

/-- What an address is reached through before another one on the way up (`ancestry`) is below that
one. -/
theorem mem_before_ancestry_iff {a b k : Address} {before after : List Address} (ha : a ≠ discard)
    (h : a.ancestry = before ++ b :: after) :
    k ∈ before ↔ a.Within k ∧ k.isBelow b = true := by
  cases a with
  | discard => exact absurd rfl ha
  | path p =>
    rw [← mem_ancestry_iff ha]
    rw [ancestry, List.map_eq_append_iff] at h
    obtain ⟨before, rest, hsplit, rfl, hrest⟩ := h
    obtain ⟨q, after, rfl, rfl, rfl⟩ := List.map_eq_cons_iff.mp hrest
    rw [ancestry]
    cases k with
    | discard => simp
    | path r =>
      rw [List.mem_map_of_injective fun _ _ => path.inj,
        List.mem_map_of_injective fun _ _ => path.inj, Path.mem_before_iff hsplit]
      rfl

/-- Of two places that something is at or below (`Within`), one is at or below the other. -/
theorem Within.total {a b k : Address} (hk : k ≠ discard) (ha : k.Within a) (hb : k.Within b) :
    a.Within b ∨ b.isBelow a = true := by
  cases k with
  | discard => exact absurd rfl hk
  | path p =>
    rw [← mem_ancestry_iff hk] at ha hb
    obtain ⟨q, hq, rfl⟩ := List.mem_map.mp ha
    obtain ⟨r, hr, rfl⟩ := List.mem_map.mp hb
    rcases Path.isBelow_total hq hr with rfl | h | h
    · exact Or.inl (.refl _)
    · exact Or.inl (Or.inr h)
    · exact Or.inr h

/-- Below, in the written form (`subtreeStart`), for all addresses. -/
theorem isBelow_iff_text {a b : Address} :
    a.isBelow b = true ↔ b.subtreeStart <+: a.chars ∧ a ≠ b := by
  by_cases ha : a = root
  · subst ha
    have hroot : root.isBelow b = false := by cases b <;> rfl
    simp only [hroot, Bool.false_eq_true, false_iff, not_and, not_not]
    intro h
    match b with
    | discard => exact absurd h (by simp [subtreeStart, root, chars])
    | path .root => rfl
    | path (.child p s) =>
      have hlen := h.length_le
      simp [subtreeStart, root, chars, Path.body] at hlen
      omega
  · rw [subtreeStart_prefix_iff ha]
    refine ⟨fun h => ⟨h, ?_⟩, And.left⟩
    rintro rfl
    exact absurd h (by rw [isBelow_irrefl]; simp)

end Address

end Troupe
