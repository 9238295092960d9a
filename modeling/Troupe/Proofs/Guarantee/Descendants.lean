import Troupe.Proofs.Address.Bytes
import Troupe.Proofs.Moments
import Troupe.Proofs.Stage.Removal

/-!
# Whom a scan finds

The live actors below an address (`Platform.descendants`, the source's `get_children`) are found by
a scan of the table, which is in the order of the written forms (`Address.text`): from the first
that is not smaller than the address and a separator behind it, and for as long as they start with
that. A sibling may come between an address and what is below it, as `/a-b` between `/a` and `/a/b`;
it is smaller than where the scan starts, or greater than where it stops.

`Platform.Scanned` says what a scan finds, `Platform.Placed` on what tables: nobody lives at the
root or at the discard address. What is below an address is one stretch of the keys
(`Placed.stretch`), since the order of texts is that of their bytes (`Platform.descendants_bytes`).

Headline:
* **`Moment.subtrees_scanned`**: whoever lives on a platform, if only nobody does at the root or at
  the discard address, which is so at every moment, a scan finds the live actors below an address.
-/

namespace Troupe

variable {κ : App}

namespace Platform

variable {p : Platform κ} {a k s : Address}

/-- What a scan of the table for an address finds (`Platform.descendants`). -/
structure Scanned (p : Platform κ) (a : Address) : Prop where
  /-- It goes by the bytes of the keys. -/
  bytes : p.descendants a = (p.contexts.keys.dropWhile fun k =>
    compare k.bytes a.startBytes == .lt).takeWhile fun k => a.startBytes.isPrefixOf k.bytes
  /-- It finds the live actors below the address, and nobody else. -/
  below : ∀ k, k ∈ p.descendants a ↔ p.isLive k = true ∧ k.isBelow a = true
  /-- Each is found once, in the order of the bytes. -/
  ascending : (p.descendants a).Pairwise fun b c => compare b.bytes c.bytes = .lt
  /-- Before it come all live actors that are above it and below the address. -/
  ancestors : ∀ before k after, p.descendants a = before ++ k :: after →
    ∀ b, p.isLive b = true → b.isBelow a = true → k.isBelow b = true → b ∈ before
  /-- Nothing below the address is passed over before the start, and nothing is left out behind the
  stop. -/
  stretch : ∃ before after, p.contexts.keys = before ++ p.descendants a ++ after ∧
    (∀ k ∈ before, compare k.bytes a.startBytes = .lt ∧ k.isBelow a = false) ∧
    ∀ k ∈ after, compare a.startBytes k.bytes = .lt ∧ k.isBelow a = false
  /-- Nothing is found at or below another address that is as deep, whatever that one looks like. -/
  apart : ∀ s, s ≠ a → s.depth = a.depth → ∀ k, k.Within s → k ∉ p.descendants a
  /-- One step below the address are those whose parent it is, in the same order. -/
  children : (∀ k, k ∈ p.directChildren a ↔ p.isLive k = true ∧ k.parent = a) ∧
    (p.directChildren a).Sublist (p.descendants a)

theorem descendants_bytes (p : Platform κ) (a : Address) :
    p.descendants a = (p.contexts.keys.dropWhile fun k =>
      compare k.bytes a.startBytes == .lt).takeWhile fun k => a.startBytes.isPrefixOf k.bytes := by
  have hbegins (k : Address) :
      a.startBytes.isPrefixOf k.bytes = a.subtreeStart.isPrefixOf k.chars := by
    rw [Bool.eq_iff_iff, List.isPrefixOf_iff_prefix, List.isPrefixOf_iff_prefix]
    exact utf8_prefix_iff _ _
  have hcompare (k : Address) : compare k.bytes a.startBytes = compare k.chars a.subtreeStart :=
    compare_utf8 _ _
  simp only [hbegins, hcompare]
  rfl

namespace Placed

variable (h : p.Placed)

include h

theorem ascending (a : Address) : (p.descendants a).Pairwise fun b c => compare b c = .lt := by
  rw [descendants_eq_filter h]
  exact p.keys_pairwise.filter _

/-- Below comes after (`Address.isBelow`). -/
theorem ancestors {before after : List Address} (hsplit : p.descendants a = before ++ k :: after)
    {b : Address} (hb : b ∈ p.descendants a) (hkb : k.isBelow b = true) : b ∈ before := by
  have hlt : compare b k = .lt := Address.compare_of_isBelow hkb
  have hsorted := h.ascending a
  rw [hsplit] at hb hsorted
  obtain ⟨-, hsorted, -⟩ := List.pairwise_append.mp hsorted
  have hafter := (List.pairwise_cons.mp hsorted).1
  rcases List.mem_append.mp hb with hb | hb
  · exact hb
  · rcases List.mem_cons.mp hb with rfl | hb
    · exact absurd (hkb.symm.trans (Address.isBelow_irrefl b)) (by simp)
    · have hgt := Std.OrientedCmp.gt_of_lt (hafter b hb)
      exact absurd (hlt.symm.trans hgt) (by simp)

theorem prefix_iff (hk : k ∈ p.contexts.keys) :
    a.subtreeStart <+: k.chars ↔ k.isBelow a = true := by
  obtain ⟨c, hc⟩ := mem_keys_iff.mp hk
  exact Address.subtreeStart_prefix_iff (h k c hc).1

/-- **Nothing below the address is left out**, neither before the start nor behind the stop
(`Address.subtreeStart`). -/
theorem stretch (a : Address) : ∃ before after,
    p.contexts.keys = before ++ p.descendants a ++ after ∧
    (∀ k ∈ before, compare k.chars a.subtreeStart = .lt ∧ k.isBelow a = false) ∧
    ∀ k ∈ after, compare a.subtreeStart k.chars = .lt ∧ k.isBelow a = false := by
  let smaller (k : Address) : Bool := compare k.chars a.subtreeStart == .lt
  let begins (k : Address) : Bool := a.subtreeStart.isPrefixOf k.chars
  let rest := p.contexts.keys.dropWhile smaller
  have hrest : p.descendants a ++ rest.dropWhile begins = rest := List.takeWhile_append_dropWhile
  have hkeys : p.contexts.keys.takeWhile smaller ++ rest = p.contexts.keys :=
    List.takeWhile_append_dropWhile
  have hsplit : p.contexts.keys =
      p.contexts.keys.takeWhile smaller ++ p.descendants a ++ rest.dropWhile begins := by
    rw [List.append_assoc, hrest, hkeys]
  refine ⟨_, _, hsplit, fun k hk => ?_, fun k hk => ?_⟩
  · have hlt : compare k.chars a.subtreeStart = .lt :=
      beq_iff_eq.mp (List.all_eq_true.mp List.all_takeWhile k hk)
    refine ⟨hlt, ?_⟩
    rw [← Bool.not_eq_true, ← h.prefix_iff ((List.takeWhile_sublist _).subset hk)]
    exact not_prefix_of_lt hlt
  · have hin : k ∈ rest := (List.dropWhile_sublist _).subset hk
    have hmem : k ∈ p.contexts.keys := (List.dropWhile_sublist _).subset hin
    have hno : k.isBelow a = false := by
      rw [← Bool.not_eq_true]
      intro hb
      -- it has been found, and nobody stands in two places
      have hfound := (mem_descendants_iff h).mpr ⟨mem_keys_iff.mp hmem, hb⟩
      have hsorted := p.keys_pairwise
      rw [hsplit] at hsorted
      have hself := (List.pairwise_append.mp hsorted).2.2 k (List.mem_append_right _ hfound) k hk
      exact absurd (hself.symm.trans Std.ReflCmp.compare_self) (by simp)
    refine ⟨?_, hno⟩
    have hle : (compare a.subtreeStart k.chars).isLE := isLE_of_mem_dropWhile p.keys_pairwise hin
    cases hc : compare a.subtreeStart k.chars with
    | lt => rfl
    | eq =>
      have hstart : a.subtreeStart = k.chars := Std.LawfulEqCmp.eq_of_compare hc
      have hb := (h.prefix_iff hmem).mp ⟨[], (List.append_nil _).trans hstart⟩
      exact absurd (hb.symm.trans hno) (by simp)
    | gt => exact absurd hle (by simp [hc])

/-- **A scan finds the subtree** (`Platform.Scanned`). -/
theorem scanned (a : Address) : p.Scanned a where
  bytes := p.descendants_bytes a
  below k := by rw [mem_descendants_iff h, isLive_iff]
  ascending := (h.ascending a).imp fun {b c} hlt => (b.compare_bytes c).trans hlt
  ancestors before k after hsplit b hb hba hkb :=
    h.ancestors hsplit ((mem_descendants_iff h).mpr ⟨isLive_iff.mp hb, hba⟩) hkb
  stretch := by
    obtain ⟨before, after, hsplit, hbefore, hafter⟩ := h.stretch a
    refine ⟨before, after, hsplit, fun k hk => ?_, fun k hk => ?_⟩
    · exact ⟨(compare_utf8 _ _).trans (hbefore k hk).1, (hbefore k hk).2⟩
    · exact ⟨(compare_utf8 _ _).trans (hafter k hk).1, (hafter k hk).2⟩
  apart s hne hdepth k hks hk :=
    hne (hks.unique (Or.inr ((mem_descendants_iff h).mp hk).2) hdepth)
  children := ⟨fun k => by rw [mem_directChildren_iff h, isLive_iff], List.filter_sublist⟩

end Placed

end Platform

namespace Moment

/-- **A scan of the table finds the subtree**, whoever lives on the platform, if only nobody does at
the root or at the discard address (`Platform.Placed`). At no moment does anybody live there. -/
theorem subtrees_scanned (code : Code κ) :
    (∀ p : Platform κ, p.Placed → ∀ a, p.Scanned a) ∧
      ∀ m, Reach code m → m.stage.platform.Placed :=
  ⟨fun _ h a => h.scanned a, fun _ h => h.ok.inv.table.placed⟩

end Moment

/-! ## Look-alikes -/

namespace Lookalikes

/-- A family of three generations. -/
def family : Template App.sample :=
  .mk (some "a") () [] none [] [.mk (some "b") () [] none [] [.mk (some "c") () [] none [] []]]

/-- Somebody whose address starts like those of the family. -/
def stranger (id : String) : Template App.sample :=
  .mk (some id) () [] none [] []

/-- The stage after somebody has been allocated at the root (`Stage.allocate`). -/
def join (t : Template App.sample) (s : Stage App.sample) : Stage App.sample :=
  (s.allocate Code.sample .root t).2

/-- A `family` and two strangers. -/
def stage : Stage App.sample :=
  join (stranger "ab") (join (stranger "a-b") (join family Moment.sample))

theorem reach_join {t : Template App.sample} {s : Stage App.sample}
    (h : Moment.Reach Code.sample (.between s)) : Moment.Reach Code.sample (.between (join t s)) :=
  h.perform 0 (.allocate .root t) rfl

theorem reach_stage : Moment.Reach Code.sample (.between stage) :=
  reach_join (reach_join (reach_join Moment.reach_sample))

/-- A stranger stands between the head of the family and the others, and is not found
(`Platform.descendants`). -/
theorem family_found : Moment.Reach Code.sample (.between stage) ∧
    stage.platform.contexts.keys.map Address.text = ["/a", "/a-b", "/a/b", "/a/b/c", "/ab"] ∧
    (stage.platform.descendants .sample).map Address.text = ["/a/b", "/a/b/c"] ∧
    (stage.platform.directChildren .sample).map Address.text = ["/a/b"] ∧
    stage.platform.Placed ∧ stage.platform.Scanned .sample := by
  obtain ⟨hscanned, hplaced⟩ := Moment.subtrees_scanned Code.sample
  have h := hplaced (.between stage) reach_stage
  exact ⟨reach_stage, rfl, rfl, rfl, h, hscanned _ h .sample⟩

end Lookalikes

end Troupe
