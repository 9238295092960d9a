import Mathlib.Data.List.Perm.Subperm
import Troupe.Proofs.Address.Subtree
import Troupe.Proofs.Platform.Table

/-!
# Removing actors removes subtrees

`Stage.terminate` goes down from an actor to its direct children only (`direct_children`), and finds
them by their written addresses. Because the table is closed under parents (`Platform.TableInv`),
that reaches everything below (`Platform.exists_child`), and because no way down is longer than the
number of live actors, its steps suffice (`Platform.TableInv.depth_le_size`).

`Stage.Cleared` is what terminating actors leaves: everything but what stands at or below one of
them. The children are cleared one after another (`Cleared.foldl`), then the actor itself
(`Cleared.remove`).

Headlines:
* **`Platform.descendants_eq_filter`**: scanning for what starts with an address and a separator is
  a search for what is below it.
* **`Platform.mem_directChildren_iff`**: the direct children of an address are the live actors whose
  parent it is.
* **`Stage.terminate_upkeep`**, **`Stage.context?_terminate`**: removing an actor dismisses actors
  without children only, one after another, and what is left is what was neither there nor below.
-/

namespace Troupe

variable {κ : App}

namespace Platform

variable {p : Platform κ} {a k : Address} {c : Context κ}

/-! ## Finding the children -/

theorem mem_keys_iff : k ∈ p.contexts.keys ↔ ∃ c, p.context? k = some c := by
  rw [Table.mem_keys_iff, Option.isSome_iff_exists]
  rfl

theorem keys_pairwise (p : Platform κ) :
    p.contexts.keys.Pairwise fun a b => compare a.chars b.chars = .lt := by
  unfold Table.keys
  exact List.pairwise_map.mpr p.contexts.ascending

/-- Nobody lives at the root or at the discard address. -/
def Placed (p : Platform κ) : Prop :=
  ∀ a c, p.context? a = some c → a ≠ .root ∧ a ≠ .discard

/-- The scan for what starts with an address, and a separator, (`Platform.descendants`) is a search
for what is below it. -/
theorem descendants_eq_filter (h : p.Placed) (a : Address) :
    p.descendants a = p.contexts.keys.filter fun k => k.isBelow a := by
  unfold descendants
  rw [stretch_eq_filter p.keys_pairwise]
  refine List.filter_congr fun k hk => ?_
  obtain ⟨c, hc⟩ := mem_keys_iff.mp hk
  rw [Bool.eq_iff_iff, List.isPrefixOf_iff_prefix]
  exact Address.subtreeStart_prefix_iff (h k c hc).1

theorem mem_descendants_iff (h : p.Placed) :
    k ∈ p.descendants a ↔ (∃ c, p.context? k = some c) ∧ k.isBelow a = true := by
  rw [descendants_eq_filter h, List.mem_filter, mem_keys_iff]

/-- **An actor and those below it** (`Platform.descendants`) stand in the order of their addresses,
and so each before all that are below it. -/
theorem descendants_pairwise (h : p.TableInv) (a : Address) :
    (a :: p.descendants a).Pairwise fun b c => compare b c = .lt ∧ b.isBelow c = false := by
  have hbelow (b : Address) (hb : b ∈ p.descendants a) : compare a b = .lt :=
    Address.compare_of_isBelow ((mem_descendants_iff h.placed).mp hb).2
  have hsorted : (p.descendants a).Pairwise fun b c => compare b c = .lt :=
    p.keys_pairwise.sublist ((List.takeWhile_sublist _).trans (List.dropWhile_sublist _))
  refine (List.pairwise_cons.mpr ⟨hbelow, hsorted⟩).imp fun {b c} hlt => ⟨hlt, ?_⟩
  rw [← Bool.not_eq_true]
  intro hcb
  have hgt := Std.OrientedCmp.gt_of_lt (Address.compare_of_isBelow hcb)
  exact absurd (hlt.symm.trans hgt) (by simp)

/-- **Direct children** (`Platform.directChildren`) are the live actors one step below. -/
theorem mem_directChildren_iff (h : p.Placed) :
    k ∈ p.directChildren a ↔ (∃ c, p.context? k = some c) ∧ k.parent = a := by
  unfold directChildren
  rw [List.mem_filter, mem_descendants_iff h, and_assoc]
  refine and_congr_right fun ⟨c, hc⟩ => ?_
  obtain ⟨hroot, hdiscard⟩ := h k c hc
  rw [beq_iff_eq]
  exact Address.below_and_next_iff hroot hdiscard

theorem isBelow_of_parent_eq (h : p.TableInv) (hk : p.context? k = some c) (hp : k.parent = a) :
    k.isBelow a = true := by
  obtain ⟨hroot, hdiscard⟩ := h.placed k c hk
  exact Address.isBelow_of_parent hroot hdiscard hp

/-! ## The tree of live actors -/

/-- What lives below an address lives at or below a child of it (`Address.parent`). -/
theorem exists_child (h : p.TableInv) (hk : p.context? k = some c) (hb : k.isBelow a = true) :
    ∃ x, (∃ d, p.context? x = some d) ∧ x.parent = a ∧ (k = x ∨ k.isBelow x = true) := by
  cases k with
  | discard => exact absurd rfl (h.placed _ c hk).2
  | path q =>
    induction q generalizing c with
    | root => exact absurd rfl (h.placed _ c hk).1
    | child q s ih =>
      obtain ⟨hroot, hdiscard⟩ := h.placed _ c hk
      rcases Address.parent_of_isBelow hb with hp | hp
      · exact ⟨_, ⟨c, hk⟩, hp, Or.inl rfl⟩
      · -- the parent lives, since the root is below nothing
        rcases contains_iff.mp (h.closed _ c hk) with hr | ⟨d, hd⟩
        · rw [hr] at hp
          cases a <;> exact absurd hp (by simp [Address.isBelow, Address.root, Path.isBelow])
        · obtain ⟨x, hx, hxa, hqx⟩ := ih hd hp
          have hkq : (Address.path (q.child s)).isBelow (.path q) = true :=
            Address.isBelow_of_parent hroot hdiscard rfl
          refine ⟨x, hx, hxa, Or.inr ?_⟩
          rcases hqx with rfl | hqx
          · exact hkq
          · exact Address.isBelow_trans hkq hqx

/-- Nothing lives below an address where nobody can (`Platform.contains`). -/
theorem contains_of_isBelow (h : p.TableInv) (hk : p.context? k = some c)
    (hb : k.isBelow a = true) : p.contains a = true := by
  obtain ⟨x, ⟨d, hd⟩, rfl, -⟩ := exists_child h hk hb
  exact h.closed x d hd

/-- Each live actor has as many live ones at and above it as it is deep (`Address.depth`). -/
theorem TableInv.exists_lineage (h : p.TableInv) (q : Path)
    (hq : p.contains (.path q) = true) : ∃ l : List Address, l.Nodup ∧
      (∀ x ∈ l, x ∈ p.contexts.keys ∧ x.depth ≤ q.depth) ∧ l.length = q.depth := by
  induction q with
  | root => exact ⟨[], List.nodup_nil, by simp, rfl⟩
  | child q s ih =>
    rcases contains_iff.mp hq with hr | ⟨c, hc⟩
    · exact absurd hr (by simp [Address.root])
    · obtain ⟨l, hl, hmem, hlen⟩ := ih (h.closed _ c hc)
      refine ⟨.path (q.child s) :: l, List.nodup_cons.mpr ⟨fun hin => ?_, hl⟩, fun x hx => ?_, ?_⟩
      · exact absurd (hmem _ hin).2 (Nat.not_succ_le_self _)
      · rcases List.mem_cons.mp hx with rfl | hx
        · exact ⟨mem_keys_iff.mpr ⟨c, hc⟩, Nat.le_refl _⟩
        · exact ⟨(hmem x hx).1, Nat.le_succ_of_le (hmem x hx).2⟩
      · rw [List.length_cons, hlen]
        rfl

/-- **No way down is longer** (`Address.depth`) than the number of live actors. -/
theorem TableInv.depth_le_size (h : p.TableInv) (hk : p.context? k = some c) :
    k.depth ≤ p.size := by
  cases k with
  | discard => exact Nat.zero_le _
  | path q =>
    obtain ⟨l, hl, hmem, hlen⟩ := h.exists_lineage q (contains_iff.mpr (Or.inr ⟨c, hk⟩))
    have hsub : l.Subperm p.contexts.keys := List.subperm_of_subset hl fun x hx => (hmem x hx).1
    have hle := hsub.length_le
    rw [hlen, Table.keys, List.length_map] at hle
    exact hle

end Platform

namespace Stage

open Platform

variable {code : Code κ} {s : Stage κ} {a k : Address} {n : Nat}

/-! ## Going down -/

/-- What terminating actors (`terminate`) leaves: everything but what stands at or below one of
them. -/
structure Cleared (as : List Address) (s t : Stage κ) : Prop where
  upkeep : Upkeep s.platform t.platform
  gone : ∀ k, (∃ a ∈ as, k = a ∨ k.isBelow a = true) → t.platform.context? k = none
  kept : ∀ k, (∀ a ∈ as, k ≠ a ∧ k.isBelow a = false) →
    t.platform.context? k = s.platform.context? k

theorem Cleared.table {as : List Address} {t : Stage κ} (hc : Cleared as s t)
    (h : s.platform.TableInv) : t.platform.TableInv :=
  TableInv.upkeep hc.upkeep h

theorem Cleared.live {as : List Address} {t : Stage κ} {c : Context κ} (hc : Cleared as s t)
    (hk : t.platform.context? k = some c) :
    s.platform.context? k = some c ∧ ∀ a ∈ as, k ≠ a ∧ k.isBelow a = false := by
  have hno (a : Address) (ha : a ∈ as) : k ≠ a ∧ k.isBelow a = false := by
    rw [← Bool.not_eq_true, ne_eq, ← not_or]
    intro hor
    exact absurd ((hc.gone k ⟨a, ha, hor⟩).symm.trans hk) (by simp)
  exact ⟨(hc.kept k hno) ▸ hk, hno⟩

theorem Cleared.nil (s : Stage κ) : Cleared [] s s :=
  ⟨.refl _, fun _ ⟨_, ha, _⟩ => absurd ha List.not_mem_nil, fun _ _ => rfl⟩

theorem Cleared.cons {as : List Address} {t u : Stage κ} (h : Cleared [a] s t)
    (h' : Cleared as t u) : Cleared (a :: as) s u := by
  refine ⟨h.upkeep.trans h'.upkeep, fun k hk => ?_, fun k hk => ?_⟩
  · by_cases hlater : ∃ b ∈ as, k = b ∨ k.isBelow b = true
    · exact h'.gone k hlater
    · obtain ⟨b, hb, hor⟩ := hk
      have hba : b = a := (List.mem_cons.mp hb).resolve_right fun hb => hlater ⟨b, hb, hor⟩
      have hgone := h.gone k ⟨a, by simp, hba ▸ hor⟩
      rw [h'.kept k fun c hc => ?_]
      · exact hgone
      · have hnot := fun hor => hlater ⟨c, hc, hor⟩
        exact ⟨fun he => hnot (Or.inl he), by
          rw [← Bool.not_eq_true]
          exact fun he => hnot (Or.inr he)⟩
  · have ha := hk a List.mem_cons_self
    rw [h'.kept k fun b hb => hk b (List.mem_cons_of_mem _ hb)]
    refine h.kept k fun b hb => ?_
    obtain rfl := List.mem_singleton.mp hb
    exact ha

/-- What terminating one actor (`terminate`) leaves is what neither stood there nor below. -/
theorem Cleared.single {t : Stage κ} (hu : Upkeep s.platform t.platform)
    (hgone : ∀ k c, t.platform.context? k = some c → k ≠ a ∧ k.isBelow a = false)
    (hkept : ∀ k, k ≠ a → k.isBelow a = false → t.platform.context? k = s.platform.context? k) :
    Cleared [a] s t := by
  refine ⟨hu, fun k ⟨b, hb, hor⟩ => ?_, fun k hk => ?_⟩
  · obtain rfl := List.mem_singleton.mp hb
    cases hk : t.platform.context? k with
    | none => rfl
    | some c =>
      obtain ⟨hne, hnb⟩ := hgone k c hk
      exact absurd ((hor.resolve_left hne).symm.trans hnb) (by simp)
  · obtain ⟨hne, hnb⟩ := hk a List.mem_cons_self
    exact hkept k hne hnb

/-! ### After the children -/

section Children

variable {t : Stage κ} (h : s.platform.TableInv) (hc : Cleared (s.platform.directChildren a) s t)

include h hc

/-- What lived below is gone with the children (`Cleared`). -/
theorem Cleared.isBelow_eq_false {c : Context κ} (hk : t.platform.context? k = some c) :
    k.isBelow a = false := by
  obtain ⟨hs, hno⟩ := hc.live hk
  rw [← Bool.not_eq_true]
  intro hb
  obtain ⟨x, hx, hxa, hor⟩ := exists_child h hs hb
  obtain ⟨hne, hnb⟩ := hno x ((mem_directChildren_iff h.placed).mpr ⟨hx, hxa⟩)
  rcases hor with hor | hor
  · exact hne hor
  · exact absurd (hor.symm.trans hnb) (by simp)

theorem Cleared.kept_beside (hb : k.isBelow a = false) :
    t.platform.context? k = s.platform.context? k := by
  refine hc.kept k fun x hx => ?_
  obtain ⟨⟨d, hd⟩, hparent⟩ := (mem_directChildren_iff h.placed).mp hx
  have hxa : x.isBelow a = true := isBelow_of_parent_eq h hd hparent
  refine ⟨?_, ?_⟩
  · rintro rfl
    exact absurd (hxa.symm.trans hb) (by simp)
  · rw [← Bool.not_eq_true]
    intro hkx
    exact absurd ((Address.isBelow_trans hkx hxa).symm.trans hb) (by simp)

/-- What comes after the children: the actor itself, if it is one (`remove`). -/
theorem Cleared.remove (hlive : s.platform.contains a = true) :
    Cleared [a] s (if a.isRoot then t else t.remove code a) := by
  by_cases hr : a.isRoot = true
  · rw [if_pos hr]
    rw [Address.isRoot, beq_iff_eq] at hr
    refine .single hc.upkeep (fun k c hk => ⟨?_, hc.isBelow_eq_false h hk⟩) fun k _ hb =>
      hc.kept_beside h hb
    rintro rfl
    exact ((hc.table h).placed k c hk).1 hr
  · rw [if_neg hr]
    rw [Address.isRoot, beq_iff_eq] at hr
    obtain ⟨c, hcs⟩ := (contains_iff.mp hlive).resolve_left hr
    have hct : t.platform.context? a = some c :=
      (hc.kept_beside h (Address.isBelow_irrefl a)).trans hcs
    have hq : (t.remove code a).platform = t.platform.dismiss a := by
      unfold Stage.remove
      rw [hct]
      rfl
    refine .single ?_ (fun k d hk => ?_) fun k hne hb => ?_
    · rw [hq]
      refine hc.upkeep.trans (Upkeep.dismiss fun k d hk hparent => ?_)
      have hb := isBelow_of_parent_eq (hc.table h) hk hparent
      exact absurd (hb.symm.trans (hc.isBelow_eq_false h hk)) (by simp)
    · rw [hq] at hk
      obtain ⟨hne, hk⟩ := context?_dismiss_eq_some.mp hk
      exact ⟨hne, hc.isBelow_eq_false h hk⟩
    · rw [hq, context?_dismiss, if_neg hne]
      exact hc.kept_beside h hb

end Children

/-! ### Level by level -/

/-- At and below an address actors live on fewer than `n` levels. -/
def Levels (s : Stage κ) (n : Nat) (a : Address) : Prop :=
  ∀ k c, s.platform.context? k = some c → k = a ∨ k.isBelow a = true → k.depth < a.depth + n

theorem Levels.child (hl : s.Levels (n + 1) a) (h : s.platform.TableInv)
    (hk : k ∈ s.platform.directChildren a) : s.Levels n k := by
  intro x c hx hor
  obtain ⟨⟨d, hd⟩, hparent⟩ := (mem_directChildren_iff h.placed).mp hk
  obtain ⟨hroot, hdiscard⟩ := h.placed k d hd
  have hka : k.isBelow a = true := Address.isBelow_of_parent hroot hdiscard hparent
  have hdepth := ((Address.below_and_next_iff hroot hdiscard).mpr hparent).2
  have hxa : x.isBelow a = true := by
    rcases hor with rfl | hor
    · exact hka
    · exact Address.isBelow_trans hor hka
  have hlt := hl x c hx (Or.inr hxa)
  omega

/-- Nothing lives at or below an address without levels (`Levels`). -/
theorem Levels.zero (hl : s.Levels 0 a) {c : Context κ} (hk : s.platform.context? k = some c) :
    k ≠ a ∧ k.isBelow a = false := by
  have hno (hor : k = a ∨ k.isBelow a = true) : False := by
    have hlt := hl k c hk hor
    rcases hor with rfl | hbelow
    · exact Nat.lt_irrefl _ hlt
    · exact Nat.lt_asymm hlt (Address.depth_lt_of_isBelow hbelow)
  exact ⟨fun he => hno (Or.inl he), by
    rw [← Bool.not_eq_true]
    exact fun hb => hno (Or.inr hb)⟩

/-- One actor after another; each leaves fewer to the next (`Cleared`). -/
theorem Cleared.foldl {f : Stage κ → Address → Stage κ}
    (hf : ∀ a s, s.platform.TableInv → s.Levels n a → Cleared [a] s (f s a)) (as : List Address) :
    ∀ s, s.platform.TableInv → (∀ a ∈ as, s.Levels n a) → Cleared as s (as.foldl f s) := by
  induction as with
  | nil => exact fun s _ _ => .nil s
  | cons a as ih =>
    intro s h hn
    have hfirst := hf a s h (hn a List.mem_cons_self)
    refine hfirst.cons (ih _ (hfirst.table h) fun b hb k c hk => ?_)
    exact hn b (List.mem_cons_of_mem _ hb) k c (hfirst.live hk).1

/-- Terminating within `n` steps does its work if nothing lives deeper. -/
theorem terminateWithin_cleared (n : Nat) : ∀ (a : Address) (s : Stage κ), s.platform.TableInv →
    s.Levels n a → Cleared [a] s (terminateWithin code n a s) := by
  induction n with
  | zero => exact fun a s _ hl => .single (.refl _) (fun _ _ hk => hl.zero hk) fun _ _ _ => rfl
  | succ n ih =>
    intro a s h hl
    rw [terminateWithin]
    by_cases hlive : s.platform.contains a = true
    · rw [if_pos hlive]
      have hchildren := Cleared.foldl (f := fun s c => terminateWithin code n c s) ih
        (s.platform.directChildren a) s h fun x hx => hl.child h hx
      exact hchildren.remove h hlive
    · rw [if_neg hlive]
      refine .single (.refl _) (fun k c hk => ⟨?_, ?_⟩) fun _ _ _ => rfl
      · rintro rfl
        exact hlive (contains_iff.mpr (Or.inr ⟨c, hk⟩))
      · rw [← Bool.not_eq_true]
        exact fun hb => hlive (contains_of_isBelow h hk hb)

theorem terminate_cleared (a : Address) (h : s.platform.TableInv) :
    Cleared [a] s (s.terminate code a) := by
  refine terminateWithin_cleared _ a s h fun k c hk _ => ?_
  have hle := h.depth_le_size hk
  omega

/-- **Removing an actor** (`terminate`) takes steps that set nothing going (`Upkeep`). -/
theorem terminate_upkeep (a : Address) (h : s.platform.TableInv) :
    Upkeep s.platform (s.terminate code a).platform :=
  (terminate_cleared a h).upkeep

/-- **Removing an actor removes its subtree** (`terminate`), and nothing else. -/
theorem context?_terminate (a : Address) (h : s.platform.TableInv) :
    (s.terminate code a).platform.context? k =
      if k = a ∨ k.isBelow a = true then none else s.platform.context? k := by
  have hc : Cleared [a] s (s.terminate code a) := terminate_cleared a h
  by_cases hk : k = a ∨ k.isBelow a = true
  · rw [if_pos hk]
    exact hc.gone k ⟨a, by simp, hk⟩
  · rw [if_neg hk]
    refine hc.kept k fun b hb => ?_
    obtain rfl := List.mem_singleton.mp hb
    obtain ⟨hne, hnb⟩ := not_or.mp hk
    exact ⟨hne, Bool.not_eq_true _ ▸ hnb⟩

end Stage

end Troupe
