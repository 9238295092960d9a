import Troupe.Text.Quoted

/-!
# Addresses

Actors live in a tree. A `Path` leads from the root of the tree to an actor, one identifier
(`Segment`) a step; an `Address` is a path or the discard address (`Address.discard`), which takes
every message and delivers none.

The written form of a path is its identifiers, each behind a separator (`Path.body`), or the
separator alone for the root (`Address.chars`). An identifier is a text that is neither empty nor
the self token and holds no separator (`idFlaw?`, which is `validate_id`), and `Segment` carries the
proof of that, so no path with a flawed identifier can be formed.

* Formed and read: `Address.child` (`Address::make`) refuses a flawed identifier and says why
  (`IdFlaw`); `Address.parse?` (`Address::parse`) reads a written form piece by piece (`pieces`,
  `descend`).
* Related: `Address.parent`, `Address.depth`, `Address.isBelow` (`is_descendant_of`),
  `Address.ancestry`.

Headlines:
* **`Address.chars_inj`**: no two addresses share a written form.
* `Path.body_inj`, `Path.body_head`: what the proof rests on; a written path starts with a
  separator, and is cut at the last one in one way only (`append_cons_inj`).
-/

namespace Troupe

/-- What separates identifiers in a written address (`SEPARATOR`). -/
def separator : Char := '/'

/-- The text that stands for the running actor's own address in scripts (`SELF_TOKEN`). -/
def selfToken : String := "$"

/-- Why a text cannot name an actor under a given parent (`RuntimeError::InvalidId`). -/
inductive IdFlaw
  | empty
  | holdsSeparator
  | isSelfToken
  | underDiscard
  deriving DecidableEq

/-- The wording of a flaw (`InvalidId`). -/
def IdFlaw.reason : IdFlaw → String
  | .empty => "empty id"
  | .holdsSeparator => "id contains the path separator"
  | .isSelfToken => "id is the reserved self token"
  | .underDiscard => "discard address cannot have children"

/-- The first flaw of a text as an identifier (`validate_id`). -/
def idFlaw? (cs : List Char) : Option IdFlaw :=
  if cs = [] then some .empty
  else if '/' ∈ cs then some .holdsSeparator
  else if cs = ['$'] then some .isSelfToken
  else none

/-- An identifier: one step of a path (`validate_id`). -/
structure Segment where
  chars : List Char
  flawless : idFlaw? chars = none
  deriving DecidableEq

namespace Segment

/-- The identifier with these characters, or why there is none. -/
def ofChars (cs : List Char) : Except IdFlaw Segment :=
  match h : idFlaw? cs with
  | none => .ok ⟨cs, h⟩
  | some flaw => .error flaw

/-- The text of an identifier. -/
def text (s : Segment) : String :=
  String.ofList s.chars

theorem separator_notMem (s : Segment) : '/' ∉ s.chars := by
  intro h
  have := s.flawless
  simp only [idFlaw?] at this
  split at this <;> simp_all

theorem chars_ne_nil (s : Segment) : s.chars ≠ [] := by
  intro h
  have := s.flawless
  simp [idFlaw?, h] at this

theorem ext_chars {s t : Segment} (h : s.chars = t.chars) : s = t := by
  cases s; cases t; simp_all

end Segment

/-- A way down the tree of actors, one `Segment` after another. -/
inductive Path
  | root
  | child (parent : Path) (last : Segment)
  deriving DecidableEq

namespace Path

/-- The number of steps (`depth`), as the source's `Address::depth`. -/
def depth : Path → Nat
  | root => 0
  | child p _ => p.depth + 1

/-- The identifiers along the path (`Path.child`), the root's child first. -/
def segments : Path → List Segment
  | root => []
  | child p s => p.segments ++ [s]

/-- The path and the paths it passes through, itself first and the root last (`ancestry`). -/
def lineage : Path → List Path
  | root => [root]
  | child p s => child p s :: p.lineage

/-- Whether the path passes through `q` and goes on. -/
def isBelow : Path → Path → Bool
  | root, _ => false
  | child p _, q => p == q || p.isBelow q

/-- The identifiers along the path, each behind a `separator`. -/
def body : Path → List Char
  | root => []
  | child p s => p.body ++ '/' :: s.chars

end Path

/-- Where a message may go (`Address`): a place in the tree, or nowhere. -/
inductive Address
  | discard
  | path (p : Path)
  deriving DecidableEq

instance : Inhabited Address := ⟨.discard⟩

namespace Address

/-- The address above all actors (`Address::root`). -/
def root : Address := path .root

/-- Whether this is the root (`is_root`). -/
def isRoot (a : Address) : Bool :=
  a == root

/-- Whether this is the discard address (`is_discard`). -/
def isDiscard (a : Address) : Bool :=
  a == discard

/-- The address one step up (`Address::parent`); the root and the discard address answer the root.
-/
def parent : Address → Address
  | path (.child p _) => path p
  | _ => root

/-- The last identifier (`Address::id`); the root has none and the discard address answers its whole
text. -/
def id : Address → String
  | discard => "?"
  | path .root => ""
  | path (.child _ s) => s.text

/-- How far below the root an address is (`Address::depth`). -/
def depth : Address → Nat
  | discard => 0
  | path p => p.depth

/-- Whether an address is strictly below another (`is_descendant_of`). Nothing is below the discard
address, nor is it below anything. -/
def isBelow : Address → Address → Bool
  | path p, path q => p.isBelow q
  | _, _ => false

/-- The address and the addresses above it, itself first and the root last (`Address::ancestry`). -/
def ancestry : Address → List Address
  | discard => [discard, root]
  | path p => p.lineage.map path

/-- The written form (`as_str`). -/
def chars : Address → List Char
  | discard => ['?']
  | path .root => ['/']
  | path p => p.body

/-- The written form as a text (`as_str`). -/
def text (a : Address) : String :=
  String.ofList a.chars

/-- What the written form of everything below an address starts with (`subtree_prefix`). -/
def subtreeStart : Address → List Char
  | discard => ['?', '/']
  | path p => p.body ++ ['/']

/-- The text of an address for diagnostics. -/
def inspect (a : Address) : String :=
  "Address(" ++ a.text ++ ")"

/-- The address of a child, or what is wrong with its identifier (`Address::make`). -/
def child (parent : Address) (id : String) : Except IdFlaw Address :=
  match Segment.ofChars id.toList, parent with
  | .error flaw, _ => .error flaw
  | .ok _, discard => .error .underDiscard
  | .ok s, path p => .ok (path (p.child s))

end Address

instance : ToString Address := ⟨Address.text⟩

/-! ## Reading -/

/-- The pieces of a text between separators (`separator`). -/
def pieces : List Char → List (List Char)
  | [] => [[]]
  | c :: cs =>
    if c = '/' then [] :: pieces cs
    else match pieces cs with
      | [] => [[c]]
      | w :: ws => (c :: w) :: ws

namespace Path

/-- Goes on from `p` by one step for each piece. -/
def descend (p : Path) : List (List Char) → Option Path
  | [] => some p
  | w :: ws =>
    match Segment.ofChars w with
    | .ok s => (p.child s).descend ws
    | .error _ => none

end Path

namespace Address

/-- Reads a written address (`Address::parse`). -/
def parse? (s : String) : Option Address :=
  match s.toList with
  | ['/'] => some root
  | ['?'] => some discard
  | '/' :: rest => (Path.root.descend (pieces rest)).map path
  | _ => none

example : (parse? "/a/b").map Address.depth = some 2 := by decide
example : parse? "/a//b" = none ∧ parse? "a" = none ∧ parse? "/a/$" = none := by decide

end Address

/-! ## The written form tells addresses apart -/

/-- A list is cut at the last occurrence of `x` in one way only. -/
theorem append_cons_inj {α : Type} {x : α} {as bs cs ds : List α} (hb : x ∉ bs) (hd : x ∉ ds)
    (h : as ++ x :: bs = cs ++ x :: ds) : as = cs ∧ bs = ds := by
  induction as generalizing cs with
  | nil =>
    cases cs with
    | nil => simp_all
    | cons c cs =>
      simp only [List.nil_append, List.cons_append, List.cons.injEq] at h
      exact absurd (h.2 ▸ List.mem_append_right cs List.mem_cons_self) hb
  | cons a as ih =>
    cases cs with
    | nil =>
      simp only [List.nil_append, List.cons_append, List.cons.injEq] at h
      exact absurd (h.2 ▸ List.mem_append_right as List.mem_cons_self) hd
    | cons c cs =>
      simp only [List.cons_append, List.cons.injEq] at h
      obtain ⟨h₁, h₂⟩ := ih h.2
      exact ⟨by rw [h.1, h₁], h₂⟩

namespace Path

theorem body_inj {p q : Path} (h : p.body = q.body) : p = q := by
  induction p generalizing q with
  | root => cases q <;> simp_all [body]
  | child p s ih =>
    cases q with
    | root => simp [body] at h
    | child q t =>
      obtain ⟨hp, hs⟩ := append_cons_inj s.separator_notMem t.separator_notMem h
      rw [ih hp, Segment.ext_chars hs]

/-- A written path starts with a `separator` unless it is the root's. -/
theorem body_head {p : Path} (h : p ≠ root) : ∃ rest, p.body = '/' :: rest := by
  induction p with
  | root => exact absurd rfl h
  | child p s ih =>
    cases p with
    | root => exact ⟨s.chars, rfl⟩
    | child p t =>
      obtain ⟨rest, hr⟩ := ih (by simp)
      exact ⟨rest ++ '/' :: s.chars, by rw [body, hr]; rfl⟩

/-- No path but the root's is written as a lone `separator`. -/
theorem body_ne_separator (p : Path) : p.body ≠ ['/'] := by
  cases p with
  | root => simp [body]
  | child p s =>
    intro h
    have := congrArg List.length h
    have hs := List.length_pos_iff.mpr s.chars_ne_nil
    simp only [body, List.length_append, List.length_cons, List.length_nil] at this
    omega

end Path

theorem Address.chars_inj {a b : Address} (h : a.chars = b.chars) : a = b := by
  have head (p : Path) (hp : p ≠ .root) : p.body ≠ ['?'] := by
    obtain ⟨rest, hr⟩ := p.body_head hp
    simp [hr]
  match a, b with
  | .discard, .discard => rfl
  | .discard, .path .root => simp [chars] at h
  | .path .root, .discard => simp [chars] at h
  | .discard, .path (.child p s) => exact absurd h.symm (head _ (by simp))
  | .path (.child p s), .discard => exact absurd h (head _ (by simp))
  | .path .root, .path .root => rfl
  | .path .root, .path (.child p s) => exact absurd h.symm (Path.body_ne_separator _)
  | .path (.child p s), .path .root => exact absurd h (Path.body_ne_separator _)
  | .path (.child p s), .path (.child q t) => rw [Path.body_inj h]

end Troupe
