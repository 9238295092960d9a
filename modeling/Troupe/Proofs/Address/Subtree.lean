import Troupe.Address.Order

/-!
# Subtrees of addresses

The tree of actors in two views. As paths: `Path.isBelow` and `Address.parent`. As texts: the
written forms of everything below an address start with `Address.subtreeStart` (`subtree_prefix`),
so they stand in one stretch of every list in ascending order. `Address.Within` is being at an
address or below it.

The two views agree because identifiers hold no separator: where a path is written in front of a
separator, it ends there (`Path.isBelow_of_body`).

Headlines:
* **`Address.subtreeStart_prefix_iff`**: the text test and the path test for "below" agree, for
  every address but the root.
* **`Address.below_and_next_iff`**: one step below means "child of".
* **`stretch_eq_filter`**: dropping what is smaller than a text and taking what starts with it finds
  exactly what starts with it.
* **`Address.compare_of_isBelow`**: whoever is below an address comes after it in the order.
-/

namespace Troupe

namespace Path

theorem isBelow_root (p : Path) : p.isBelow root = true ↔ p ≠ root := by
  induction p with
  | root => simp [isBelow]
  | child p s ih =>
    simp only [isBelow, Bool.or_eq_true, beq_iff_eq, ih, ne_eq, reduceCtorEq, not_false_iff,
      iff_true]
    exact Decidable.em (p = root)

theorem isBelow_trans {p q r : Path} (hpq : p.isBelow q = true) (hqr : q.isBelow r = true) :
    p.isBelow r = true := by
  induction p with
  | root => exact absurd hpq (by simp [isBelow])
  | child p s ih =>
    simp only [isBelow, Bool.or_eq_true, beq_iff_eq] at hpq ⊢
    rcases hpq with rfl | h
    · exact Or.inr hqr
    · exact Or.inr (ih h)

theorem depth_lt_of_isBelow {p q : Path} (h : p.isBelow q = true) : q.depth < p.depth := by
  induction p with
  | root => exact absurd h (by simp [isBelow])
  | child p s ih =>
    simp only [isBelow, Bool.or_eq_true, beq_iff_eq] at h
    rcases h with rfl | h
    · exact Nat.lt_succ_self _
    · exact Nat.lt_succ_of_lt (ih h)

/-- A path goes on from every path that it is below, behind a separator. -/
theorem body_of_isBelow {p q : Path} (h : p.isBelow q = true) : q.body ++ ['/'] <+: p.body := by
  induction p with
  | root => exact absurd h (by simp [isBelow])
  | child p s ih =>
    simp only [isBelow, Bool.or_eq_true, beq_iff_eq] at h
    rcases h with rfl | h
    · exact ⟨s.chars, by simp [body]⟩
    · exact (ih h).trans ⟨'/' :: s.chars, rfl⟩

/-- The written form shows what a path is below: identifiers hold no separator, so a separator
behind `q.body` ends `q`. -/
theorem isBelow_of_body {p q : Path} (h : q.body ++ ['/'] <+: p.body) : p.isBelow q = true := by
  induction p with
  | root => exact absurd h.length_le (by simp [body])
  | child p s ih =>
    simp only [isBelow, Bool.or_eq_true, beq_iff_eq]
    rw [body] at h
    by_cases hlen : q.body.length < p.body.length
    · exact Or.inr (ih (List.prefix_of_prefix_length_le h (List.prefix_append _ _) (by simpa)))
    · have hp : p.body <+: q.body := by
        have hq : q.body <+: p.body ++ '/' :: s.chars := (List.prefix_append _ _).trans h
        exact List.prefix_of_prefix_length_le (List.prefix_append _ _) hq (by omega)
      obtain ⟨r, hr⟩ := hp
      cases r with
      | nil => exact Or.inl (body_inj (by simpa using hr))
      | cons c r =>
        rw [← hr, List.append_assoc, List.prefix_append_right_inj, List.cons_append,
          List.cons_prefix_cons] at h
        have hmem : '/' ∈ s.chars := h.2.subset (by simp)
        exact absurd hmem s.separator_notMem

theorem isBelow_iff_body {p q : Path} : p.isBelow q = true ↔ q.body ++ ['/'] <+: p.body :=
  ⟨body_of_isBelow, isBelow_of_body⟩

/-- A path passes through one path of each length only (`Path.depth`). -/
theorem eq_of_isBelow {p q r : Path} (hq : p.isBelow q = true) (hr : p.isBelow r = true)
    (hdepth : q.depth = r.depth) : q = r := by
  induction p with
  | root => exact absurd hq (by simp [isBelow])
  | child p s ih =>
    simp only [isBelow, Bool.or_eq_true, beq_iff_eq] at hq hr
    rcases hq with rfl | hq <;> rcases hr with rfl | hr
    · rfl
    · exact absurd (depth_lt_of_isBelow hr) (by omega)
    · exact absurd (depth_lt_of_isBelow hq) (by omega)
    · exact ih hq hr

end Path

namespace Address

theorem isBelow_irrefl (a : Address) : a.isBelow a = false := by
  cases a with
  | discard => rfl
  | path p =>
    cases h : p.isBelow p with
    | false => exact h
    | true => exact absurd (Path.depth_lt_of_isBelow h) (Nat.lt_irrefl _)

theorem depth_lt_of_isBelow {a b : Address} (h : a.isBelow b = true) : b.depth < a.depth := by
  match a, b, h with
  | path _, path _, h => exact Path.depth_lt_of_isBelow h

theorem isBelow_trans {a b c : Address} (hab : a.isBelow b = true) (hbc : b.isBelow c = true) :
    a.isBelow c = true := by
  match a, b, c, hab, hbc with
  | path _, path _, path _, hab, hbc => exact Path.isBelow_trans hab hbc

/-- **Below, in the written form** (`subtreeStart`). -/
theorem subtreeStart_prefix_iff {a k : Address} (hk : k ≠ root) :
    a.subtreeStart <+: k.chars ↔ k.isBelow a = true := by
  match a, k with
  | discard, discard => simp [subtreeStart, chars, isBelow]
  | discard, path .root => exact absurd rfl hk
  | discard, path (.child p s) =>
    obtain ⟨rest, hr⟩ := Path.body_head (p := p.child s) (by simp)
    simp [subtreeStart, chars, isBelow, hr]
  | path q, discard =>
    cases q with
    | root => simp [subtreeStart, chars, isBelow, Path.body]
    | child q t =>
      obtain ⟨rest, hr⟩ := Path.body_head (p := q.child t) (by simp)
      simp [subtreeStart, chars, isBelow, hr]
  | path _, path .root => exact absurd rfl hk
  | path q, path (.child p s) => exact Path.isBelow_iff_body.symm

/-- **One step below means "child of"** (`parent`). -/
theorem below_and_next_iff {a k : Address} (hk : k ≠ root) (hd : k ≠ discard) :
    (k.isBelow a = true ∧ k.depth = a.depth + 1) ↔ k.parent = a := by
  match a, k with
  | _, discard => exact absurd rfl hd
  | _, path .root => exact absurd rfl hk
  | discard, path (.child p s) => simp [isBelow, parent]
  | path q, path (.child p s) =>
    simp only [isBelow, Path.isBelow, Bool.or_eq_true, beq_iff_eq, depth, Path.depth, parent,
      path.injEq, Nat.add_right_cancel_iff]
    refine ⟨fun h => ?_, fun h => ⟨Or.inl h, by rw [h]⟩⟩
    rcases h with ⟨rfl | hb, hlen⟩
    · rfl
    · exact absurd (Path.depth_lt_of_isBelow hb) (by omega)

/-- What is below an address is its child (`parent`) or below one of its children. -/
theorem parent_of_isBelow {a k : Address} (h : k.isBelow a = true) :
    k.parent = a ∨ k.parent.isBelow a = true := by
  match a, k, h with
  | path q, path (.child p s), h =>
    simpa [isBelow, Path.isBelow, parent] using h

theorem isBelow_of_parent {a k : Address} (hk : k ≠ root) (hd : k ≠ discard) (h : k.parent = a) :
    k.isBelow a = true := by
  match k with
  | discard => exact absurd rfl hd
  | path .root => exact absurd rfl hk
  | path (.child p s) => simp [← h, parent, isBelow, Path.isBelow]

theorem isBelow_root {k : Address} (hk : k ≠ root) (hd : k ≠ discard) : k.isBelow root = true := by
  match k with
  | discard => exact absurd rfl hd
  | path p => exact (Path.isBelow_root p).mpr fun h => hk (h ▸ rfl)

/-! ### At an address or below it -/

/-- At an address or below it (`isBelow`). -/
def Within (k a : Address) : Prop :=
  k = a ∨ k.isBelow a = true

variable {a b k : Address}

theorem Within.refl (a : Address) : a.Within a :=
  Or.inl rfl

theorem Within.trans (h : k.Within a) (h' : a.Within b) : k.Within b := by
  rcases h with rfl | h
  · exact h'
  · rcases h' with rfl | h'
    · exact Or.inr h
    · exact Or.inr (isBelow_trans h h')

/-- What is at or below two addresses of one depth (`depth`) tells that they are the same. -/
theorem Within.unique (ha : k.Within a) (hb : k.Within b) (hdepth : a.depth = b.depth) : a = b := by
  rcases ha with rfl | ha <;> rcases hb with rfl | hb
  · rfl
  · exact absurd (depth_lt_of_isBelow hb) (by omega)
  · exact absurd (depth_lt_of_isBelow ha) (by omega)
  · match k, a, b, ha, hb with
    | path _, path _, path _, ha, hb => exact congrArg path (Path.eq_of_isBelow ha hb hdepth)

end Address

/-! ## One stretch of a list in ascending order -/

section Stretch

variable {α : Type} [Ord α] [Std.TransOrd α] [Std.LawfulEqOrd α]

/-- What stands between a list and one that starts with it starts with it too. -/
theorem prefix_of_between {start x k : List α} (hx : (compare start x).isLE)
    (hk : (compare x k).isLE) (h : start <+: k) : start <+: x := by
  induction start generalizing x k with
  | nil => exact List.nil_prefix
  | cons c cs ih =>
    obtain ⟨r, rfl⟩ := h
    cases x with
    | nil => exact absurd hx (by simp)
    | cons d ds =>
      simp only [List.compare_eq_compareLex, List.cons_append, List.compareLex_cons_cons,
        Ordering.isLE_then_iff_or] at hx hk
      have hcd : compare c d = .eq := by
        rcases hx with hlt | ⟨heq, -⟩
        · rcases hk with hlt' | ⟨heq', -⟩
          · exact absurd (Std.OrientedCmp.gt_of_lt hlt) (by simp [hlt'])
          · rw [Std.OrientedCmp.eq_comm] at heq'
            exact heq'
        · exact heq
      obtain rfl := Std.LawfulEqCmp.eq_of_compare hcd
      have hself : compare c c ≠ .lt := by simp
      exact (List.cons_prefix_cons).mpr
        ⟨rfl, ih (hx.resolve_left hself).2 (hk.resolve_left hself).2 ⟨r, rfl⟩⟩

omit [Std.TransOrd α] in
theorem compare_append_left (shared as bs : List α) :
    compare (shared ++ as) (shared ++ bs) = compare as bs := by
  induction shared with
  | nil => rfl
  | cons a shared ih =>
    have hself : compare a a = .eq := Std.ReflCmp.compare_self
    rw [List.cons_append, List.cons_append, List.compare_cons_cons, hself, ih]
    rfl

omit [Std.TransOrd α] in
theorem isLE_of_prefix {start k : List α} (h : start <+: k) : (compare start k).isLE := by
  obtain ⟨rest, rfl⟩ := h
  have hle : (compare (start ++ []) (start ++ rest)).isLE := by
    rw [compare_append_left]
    exact List.isLE_compareLex_nil_left
  rwa [List.append_nil] at hle

variable {β : Type} {key : β → List α} {start : List α} {l : List β} {k : β}

theorem not_prefix_of_lt (h : compare (key k) start = .lt) : ¬ start <+: key k := by
  intro hp
  have hle := isLE_of_prefix hp
  have hswap : compare start (key k) = (compare (key k) start).swap := Std.OrientedCmp.eq_swap
  rw [hswap, h] at hle
  exact absurd hle (by simp)

omit [Std.LawfulEqOrd α] in
/-- In ascending order nothing smaller than `start` stands behind what is not. -/
theorem isLE_of_mem_dropWhile (hl : l.Pairwise fun a b => compare (key a) (key b) = .lt)
    (hk : k ∈ l.dropWhile fun k => compare (key k) start == .lt) :
    (compare start (key k)).isLE := by
  induction l with
  | nil => exact absurd hk List.not_mem_nil
  | cons b l ih =>
    obtain ⟨hb, hl'⟩ := List.pairwise_cons.mp hl
    rw [List.dropWhile_cons] at hk
    split at hk
    · exact ih hl' hk
    · rename_i hnlt
      have hle : (compare start (key b)).isLE := by
        have hswap : compare start (key b) = (compare (key b) start).swap :=
          Std.OrientedCmp.eq_swap
        rw [hswap]
        cases hc : compare (key b) start <;> simp_all
      rcases List.mem_cons.mp hk with rfl | hk
      · exact hle
      · exact Std.TransCmp.isLE_trans hle (by simp [hb k hk])

variable [BEq α] [LawfulBEq α]

/-- Behind everything smaller than `start`, what starts with it comes first. -/
theorem takeWhile_prefix_eq_filter (hl : l.Pairwise fun a b => compare (key a) (key b) = .lt)
    (hs : ∀ b ∈ l, (compare start (key b)).isLE) :
    l.takeWhile (fun k => start.isPrefixOf (key k)) =
      l.filter fun k => start.isPrefixOf (key k) := by
  induction l with
  | nil => rfl
  | cons b l ih =>
    obtain ⟨hb, hl⟩ := List.pairwise_cons.mp hl
    rw [List.takeWhile_cons, List.filter_cons]
    split
    · rw [ih hl fun k hk => hs k (List.mem_cons_of_mem _ hk)]
    · rename_i hpb
      -- nothing behind `b` starts with it, or `b` would
      refine (List.filter_eq_nil_iff.mpr fun k hk hpk => hpb ?_).symm
      rw [List.isPrefixOf_iff_prefix] at hpk ⊢
      exact prefix_of_between (hs b List.mem_cons_self) (by simp [hb k hk]) hpk

/-- **A scan finds the stretch**: in ascending order, what starts with `start` stands together,
right behind what is smaller than `start`. -/
theorem stretch_eq_filter (hl : l.Pairwise fun a b => compare (key a) (key b) = .lt) :
    (l.dropWhile fun k => compare (key k) start == .lt).takeWhile
        (fun k => start.isPrefixOf (key k)) = l.filter fun k => start.isPrefixOf (key k) := by
  have hnone : (l.takeWhile fun k => compare (key k) start == .lt).filter
      (fun k => start.isPrefixOf (key k)) = [] := by
    refine List.filter_eq_nil_iff.mpr fun k hk hp => ?_
    have hlt := List.all_eq_true.mp List.all_takeWhile k hk
    exact not_prefix_of_lt (beq_iff_eq.mp hlt) (List.isPrefixOf_iff_prefix.mp hp)
  rw [takeWhile_prefix_eq_filter (hl.sublist (List.dropWhile_sublist _)) fun k hk =>
    isLE_of_mem_dropWhile hl hk]
  rw [← List.nil_append (List.filter _ (List.dropWhile _ l)), ← hnone, ← List.filter_append,
    List.takeWhile_append_dropWhile]

end Stretch

namespace Address

/-- **Below comes after**: whoever is below an address comes after it in the order (`compare`). -/
theorem compare_of_isBelow {a k : Address} (h : k.isBelow a = true) : compare a k = .lt := by
  have hprefix : a.chars <+: k.chars := by
    match a, k, h with
    | path .root, path (.child p s), h => exact (subtreeStart_prefix_iff (by simp [root])).mpr h
    | path (.child q t), path (.child p s), h =>
      exact (List.prefix_append _ _).trans ((subtreeStart_prefix_iff (by simp [root])).mpr h)
  have hle : (compare a k).isLE := isLE_of_prefix hprefix
  cases hc : compare a k with
  | lt => rfl
  | eq =>
    obtain rfl := Std.LawfulEqCmp.eq_of_compare hc
    exact absurd ((isBelow_irrefl a).symm.trans h) (by simp)
  | gt => exact absurd hle (by simp [hc])

end Address

end Troupe
