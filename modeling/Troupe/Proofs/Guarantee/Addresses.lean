import Troupe.Message.Decode
import Troupe.Proofs.Address.Encoding

/-!
# Addresses are lists of identifiers

An address other than the discard address is a list of identifiers (`Address.ids`), written with a
separator before each (`Address.text`), and every question about addresses is one about these lists
and about these texts: what can be read (`Address.parse`, the source's `Address::parse`), what can
be made (`Address.make`), who is whose parent (`Address.parent`), and who is below whom
(`Address.isBelow`, the source's `is_descendant_of`). The discard address stands apart: nothing is
above or below it.

`Address.Listed` says how an address and its list hang together, `Address.Made` what making an
address from a parent and an identifier comes to, and `Address.Compared` what two addresses have to
do with one another. A message carries an address as its text (`Message.toAddress_eq_ok_iff`), and
an envelope carries two (`Envelope.ofMessage_toMessage`).

Headlines:
* **`Address.faithful`**: what can be read, what can be made, and what it says.
* `Address.existsUnique_ids`: each list of identifiers is that of one address.
-/

namespace Troupe

/-! ## Messages -/

/-- An address stands in a message as its text (`Address.text`). -/
theorem Message.toAddress_eq_ok_iff {m : Message} {a : Address} :
    m.toAddress = .ok a ↔ m = .string a.text := by
  cases m with
  | string s =>
    rw [toAddress, Message.string.injEq, ← Address.parse?_eq_some_iff, Address.parse]
    cases Address.parse? s <;> simp [Except.mapError]
  | null | bool | number | array | object => simp [toAddress]

theorem Envelope.toMessage_eq (e : Envelope) : e.toMessage =
    .object [("from", .string e.source.text), ("message", e.message),
      ("to", .string e.target.text)] := by
  have hkeys : compare "message" "from" = .gt ∧ compare "to" "from" = .gt ∧
      compare "to" "message" = .gt := by decide
  simp [toMessage, Message.ofFields, Message.putField, hkeys]

theorem Envelope.ofMessage_toMessage (e : Envelope) : ofMessage e.toMessage = .ok e := by
  have hread (a : Address) : (Message.string a.text).toAddress = .ok a :=
    Message.toAddress_eq_ok_iff.mpr rfl
  rw [toMessage_eq, ofMessage]
  simp [Draft.readField, hread, Except.map, Draft.finish, bind, Except.bind, pure, Except.pure]

namespace Address

variable {a b p : Address} {id : String}

theorem parse_eq_ok_iff {s : String} : parse s = .ok a ↔ s = a.text := by
  rw [← parse?_eq_some_iff, parse]
  cases parse? s <;> simp

/-! ## One address -/

/-- What is known of an address as a list of identifiers (`Address.ids`). -/
structure Listed (a : Address) : Prop where
  /-- Each of them can name an actor. -/
  valid : ∀ id ∈ a.ids, IsId id
  text : a.text = written a.ids
  depth : a.depth = a.ids.length
  id : a.id = a.ids.getLast?.getD ""
  /-- One step up drops the last one. -/
  parent : a.parent ≠ discard ∧ a.parent.ids = a.ids.dropLast
  /-- Going up passes through all first parts of the list, from the whole to the empty one. -/
  ancestry : discard ∉ a.ancestry ∧ a.ancestry.map ids = a.ids.inits.reverse
  /-- The last separator of the text stands between the parent and the last identifier. -/
  cut : a ≠ root → separator ∉ a.id.toList ∧
    a.chars = (if a.parent = root then [] else a.parent.chars) ++ separator :: a.id.toList
  /-- There is a separator for each identifier. -/
  count : a ≠ root → a.chars.count separator = a.depth

theorem listed (h : a ≠ discard) : a.Listed := by
  cases a with
  | discard => exact absurd rfl h
  | path p =>
    refine ⟨fun id hid => Path.isId_of_mem_ids hid, text_path p, p.depth_eq_length,
      ?_, ?_, ?_, ?_, ?_⟩
    · cases p with
      | root => rfl
      | child p s => simp [Address.id, Address.ids]
    · cases p with
      | root => exact ⟨by simp [Address.parent, root], rfl⟩
      | child p s => simp [Address.parent, Address.ids]
    · refine ⟨by simp [Address.ancestry], ?_⟩
      rw [Address.ancestry, List.map_map]
      exact p.ids_lineage
    · intro hroot
      cases p with
      | root => exact absurd rfl hroot
      | child p s =>
        refine ⟨s.toList_text ▸ s.separator_notMem, ?_⟩
        rw [chars_child, Address.id, s.toList_text, Address.parent]
        cases p with
        | root => rfl
        | child p t => rw [if_neg (by simp [root]), chars_eq_body (by simp)]
    · intro hroot
      rw [chars_eq_body fun hp => hroot (congrArg path hp), Path.count_body]
      rfl

/-- **One to one**: a list of identifiers is one address (`Address.ids`). -/
theorem existsUnique_ids {ids : List String} (h : ∀ id ∈ ids, IsId id) :
    ∃! a : Address, a ≠ discard ∧ a.ids = ids := by
  obtain ⟨p, hp⟩ := Path.exists_ids h
  refine ⟨path p, ⟨by simp, hp⟩, ?_⟩
  rintro a ⟨ha, hids⟩
  cases a with
  | discard => exact absurd rfl ha
  | path q => exact congrArg path (Path.ids_injective (hids.trans hp.symm))

/-- **The texts of addresses** (`Address.text`). -/
theorem exists_text_iff {s : String} : (∃ a, s = text a) ↔
    s = "/" ∨ s = "?" ∨ ∃ ids, ids ≠ [] ∧ (∀ id ∈ ids, IsId id) ∧ s = written ids := by
  constructor
  · rintro ⟨a, rfl⟩
    match a with
    | discard => exact Or.inr (Or.inl rfl)
    | path .root => exact Or.inl rfl
    | path (.child p t) =>
      exact Or.inr (Or.inr ⟨_, by simp, fun _ => Path.isId_of_mem_ids, text_path (p.child t)⟩)
  · rintro (rfl | rfl | ⟨ids, -, hids, rfl⟩)
    · exact ⟨root, rfl⟩
    · exact ⟨discard, rfl⟩
    · obtain ⟨p, rfl⟩ := Path.exists_ids hids
      exact ⟨path p, (text_path p).symm⟩

/-! ## Going down -/

/-- What is known of the address that is made for an identifier below an address (`Address.make`).
-/
structure Made (p : Address) (id : String) (a : Address) : Prop where
  other : a ≠ discard
  ids : a.ids = p.ids ++ [id]
  parent : a.parent = p
  id : a.id = id
  read : parse a.text = .ok a

theorem made (h : make p id = .ok a) : p.Made id a := by
  obtain ⟨q, s, rfl, rfl, rfl⟩ := make_eq_ok_iff.mp h
  exact ⟨by simp, q.ids_child s, rfl, rfl, parse_text _⟩

/-! ## Above and below -/

/-- What is known of two addresses, by `Address.ids` and by `Address.text`. -/
structure Compared (a b : Address) : Prop where
  /-- To be below is to have the longer list. -/
  lists : a.isBelow b = true ↔ b.ids <+: a.ids ∧ b.ids ≠ a.ids
  /-- What is above is passed through on the way up. -/
  ancestry : a.isBelow b = true ↔ b ∈ a.ancestry.tail

theorem compared (ha : a ≠ discard) (hb : b ≠ discard) : a.Compared b := by
  match a, b with
  | discard, _ => exact absurd rfl ha
  | path _, discard => exact absurd rfl hb
  | path p, path q =>
    refine ⟨Path.isBelow_iff_ids, ?_⟩
    rw [ancestry, ← List.map_tail, List.mem_map_of_injective fun _ _ => path.inj]
    exact Path.mem_tail_lineage_iff.symm

/-- **Addresses are lists of identifiers** (`Address.Listed`), and their texts say the same. -/
theorem faithful :
    (∀ s, (∃ a, parse s = .ok a) ↔
      s = "/" ∨ s = "?" ∨ ∃ ids, ids ≠ [] ∧ (∀ id ∈ ids, IsId id) ∧ s = written ids) ∧
    (∀ s a, parse s = .ok a ↔ s = a.text) ∧
    (∀ m a, Message.toAddress m = .ok a ↔ m = .string a.text) ∧
    (∀ e, Envelope.ofMessage (Envelope.toMessage e) = .ok e) ∧
    (∀ ids, (∀ id ∈ ids, IsId id) → ∃! a : Address, a ≠ discard ∧ a.ids = ids) ∧
    (∀ a, a = discard ∨ a.Listed) ∧
    (∀ p id, (∃ a, make p id = .ok a) ↔ IsId id ∧ p ≠ discard) ∧
    (∀ p id a, make p id = .ok a → p.Made id a) ∧
    (∀ a b, a ≠ discard → b ≠ discard → a.Compared b) ∧
    (∀ a b : Address, a.isBelow b = true ↔ b.subtreeStart <+: a.chars ∧ a ≠ b) ∧
    (∀ a : Address, a.isBelow discard = false ∧ discard.isBelow a = false) := by
  refine ⟨fun s => ?_, fun s a => parse_eq_ok_iff, fun m a => Message.toAddress_eq_ok_iff,
    Envelope.ofMessage_toMessage, fun ids => existsUnique_ids, fun a => ?_,
    fun p id => make_isOk_iff, fun p id a => made, fun a b => compared, fun a b => isBelow_iff_text,
    fun a => ⟨by cases a <;> rfl, rfl⟩⟩
  · simp only [parse_eq_ok_iff]
    exact exists_text_iff
  · by_cases ha : a = discard
    · exact Or.inl ha
    · exact Or.inr (listed ha)

/-- A child's identifier may look like the discard address or extend a sibling's (`Address.make`).
-/
theorem faithful_siblings : ∃ a b : Address, make root "a?" = .ok a ∧ make root "a" = .ok b ∧
    root.Made "a?" a ∧ root.Made "a" b ∧ a.Listed ∧ a.Compared b ∧
    ¬ b.subtreeStart <+: a.chars := by
  obtain ⟨-, -, -, -, -, hlisted, hmake, hmade, hcompared, htext, -⟩ := faithful
  obtain ⟨a, ha⟩ := (hmake root "a?").mpr
    ⟨⟨by decide, by decide, by decide⟩, by decide⟩
  obtain ⟨b, hb⟩ := (hmake root "a").mpr ⟨⟨by decide, by decide, by decide⟩, by decide⟩
  have hmadeA := hmade _ _ _ ha
  have hmadeB := hmade _ _ _ hb
  have hboth := hcompared a b hmadeA.other hmadeB.other
  refine ⟨a, b, ha, hb, hmadeA, hmadeB, (hlisted a).resolve_left hmadeA.other, hboth, ?_⟩
  intro hstart
  have hne : a ≠ b := by
    intro h
    have hids : a.ids = b.ids := congrArg ids h
    rw [hmadeA.ids, hmadeB.ids] at hids
    exact absurd hids (by decide)
  have hprefix := (hboth.lists.mp ((htext a b).mpr ⟨hstart, hne⟩)).1
  rw [hmadeA.ids, hmadeB.ids] at hprefix
  exact absurd hprefix (by decide)

end Address

end Troupe
