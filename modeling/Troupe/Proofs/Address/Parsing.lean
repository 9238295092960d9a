import Troupe.Error

/-!
# Reading back written addresses

`Address.parse` takes a text apart at its separators and goes down from the root by the pieces
(`Path.descend`, one `Segment` at a time); `Address.text` writes an address. This module says that
writing and then reading loses nothing.

* The pieces of a written path are its identifiers, since none of them holds a separator
  (`pieces_append`, `pieces_of_notMem`).
* Going down by them leads to the path (`descend_segment`, `descend_body`), and does not fail, since
  each was an identifier before (`Segment.ofChars_chars`).
* The self token is no address's text (`Address.text_ne_selfToken`). So a script that is given an
  address as a text (`Machine.popAddress`) never takes it for the actor itself.

Headline:
* **`Address.parse_text`**: an address is read back from its text.

The way back, that a text which is read is the text of the address, is in
`Troupe.Proofs.Address.Encoding`.
-/

namespace Troupe

/-! ## Pieces -/

theorem pieces_ne_nil (cs : List Char) : pieces cs ≠ [] := by
  cases cs with
  | nil => simp [pieces]
  | cons c cs =>
    rw [pieces]
    split
    · simp
    · split <;> simp

/-- A text without separators is one piece (`pieces`). -/
theorem pieces_of_notMem {cs : List Char} (h : '/' ∉ cs) : pieces cs = [cs] := by
  induction cs with
  | nil => rfl
  | cons c cs ih =>
    obtain ⟨hc, hcs⟩ := not_or.mp (mt List.mem_cons.mpr h)
    rw [pieces, if_neg (Ne.symm hc), ih hcs]

/-- A text is cut at each separator (`pieces`). -/
theorem pieces_append (cs ds : List Char) : pieces (cs ++ '/' :: ds) = pieces cs ++ pieces ds := by
  induction cs with
  | nil => exact if_pos rfl
  | cons c cs ih =>
    rw [List.cons_append, pieces, pieces, ih]
    by_cases hc : c = '/'
    · rw [if_pos hc, if_pos hc]
      rfl
    · rw [if_neg hc, if_neg hc]
      cases hcs : pieces cs with
      | nil => exact absurd hcs (pieces_ne_nil cs)
      | cons w ws => rfl

/-! ## Paths -/

theorem Segment.ofChars_chars (s : Segment) : ofChars s.chars = .ok s := by
  unfold ofChars
  split
  · rfl
  · rename_i flaw hflaw
    exact absurd (s.flawless.symm.trans hflaw) (by simp)

namespace Path

theorem descend_append (p : Path) (ws vs : List (List Char)) :
    p.descend (ws ++ vs) = (p.descend ws).bind fun q => q.descend vs := by
  induction ws generalizing p with
  | nil => rfl
  | cons w ws ih =>
    rw [List.cons_append, descend, descend]
    cases Segment.ofChars w with
    | ok s => exact ih (p.child s)
    | error flaw => rfl

theorem descend_segment (p : Path) (s : Segment) :
    p.descend (pieces s.chars) = some (p.child s) := by
  rw [pieces_of_notMem s.separator_notMem, descend, s.ofChars_chars]
  rfl

/-- A path is read back (`Path.descend`) from its written form. -/
theorem descend_body {p : Path} {rest : List Char} (h : p.body = '/' :: rest) :
    root.descend (pieces rest) = some p := by
  induction p generalizing rest with
  | root => exact absurd h (by simp [body])
  | child p s ih =>
    cases p with
    | root =>
      obtain rfl : s.chars = rest := (List.cons.inj h).2
      exact descend_segment root s
    | child q t =>
      obtain ⟨before, hbefore⟩ := body_head (p := child q t) (by simp)
      rw [body, hbefore, List.cons_append] at h
      obtain rfl := (List.cons.inj h).2
      rw [pieces_append, descend_append, ih hbefore]
      exact descend_segment _ s

end Path

/-! ## Addresses -/

namespace Address

theorem parse?_text (a : Address) : parse? a.text = some a := by
  unfold parse? text
  rw [String.toList_ofList]
  match a with
  | discard => rfl
  | path .root => rfl
  | path (.child p s) =>
    obtain ⟨rest, hrest⟩ := Path.body_head (p := .child p s) (by simp)
    have hchars : (path (.child p s)).chars = '/' :: rest := hrest
    have hother : rest ≠ [] := by
      rintro rfl
      exact Path.body_ne_separator _ hrest
    rw [hchars]
    split
    · rename_i heq
      exact absurd (List.cons.inj heq).2 hother
    · rename_i heq
      exact absurd (List.cons.inj heq).1 (by decide)
    · rename_i heq
      obtain rfl := (List.cons.inj heq).2
      rw [Path.descend_body hrest]
      rfl
    · rename_i hnone
      exact absurd rfl (hnone rest)

/-- **An address is read back** (`parse`) from its text. -/
theorem parse_text (a : Address) : parse a.text = .ok a := by
  unfold parse
  rw [parse?_text]

/-- No address is written like the `selfToken`. -/
theorem text_ne_selfToken (a : Address) : a.text ≠ selfToken := by
  intro h
  have hread : parse? selfToken = some a := h ▸ a.parse?_text
  exact absurd hread (by simp [show parse? selfToken = none from by decide])

end Address

end Troupe
