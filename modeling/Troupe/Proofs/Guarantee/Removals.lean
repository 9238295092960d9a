import Troupe.Proofs.Moments
import Troupe.Proofs.Stage.Subtrees

/-!
# What removing an actor removes

At every moment, removing the actor at an address (`Stage.terminate`, the source's `terminate`)
removes the live actors at and below it and nobody else. Each is told of once, after all below it,
and each whose code is not running gets its last call. With them goes what is kept for their
addresses (`Platform.without`): memberships, slots, what they wait for, their place in the queue of
those that wait, their settled tasks, and the routes to them and through them (`State::remove`). All
else stays as it is and where it is.

`Household.stage` is a platform with a family and somebody beside it, whose name begins as the
family's does (`Household.family_removed`).

Headline:
* **`Moment.subtree_removed`**: who is removed and in which order, what is told, and what is left.
-/

namespace Troupe

open Platform Stage

namespace Moment

variable {κ : App} {code : Code κ} {m : Moment κ}

/-- **Removing an actor removes its subtree** (`Stage.terminate`): of everything that is kept by
address it leaves out what is kept for the live actors at and below it, and tells of them from the
leaves up. Removing it again changes nothing, and of two removals the order is told on the bus only.
-/
theorem subtree_removed (h : Reach code m) (a : Address) : ∃ as : List Address,
    as.Nodup ∧ as.Pairwise (fun x y => y.isBelow x = false) ∧
    (∀ k, k ∈ as ↔ m.stage.platform.isLive k = true ∧ k.Within a) ∧
    (a = .root → ∀ k, k ∈ as ↔ m.stage.platform.isLive k = true) ∧
    (m.stage.platform.contains a = false → as = []) ∧
    m.stage.terminate code a =
      { m.stage with
        platform := m.stage.platform.without as
        world := as.foldl (farewell code m.stage.platform) m.stage.world } ∧
    (m.stage.terminate code a).terminate code a = m.stage.terminate code a ∧
    ∀ b, ∃ bus, ((m.stage.terminate code b).terminate code a).platform =
      { ((m.stage.terminate code a).terminate code b).platform with bus } := by
  have hi := h.ok.inv
  have ht := hi.table
  obtain ⟨as, has, hs⟩ := terminate_sweep code a ht hi.neat
  have hmem (k : Address) : k ∈ as ↔ m.stage.platform.isLive k = true ∧ k.Within a := by
    rw [has.mem]
    simp only [List.mem_singleton, exists_eq_left]
  have hplaced (k : Address) (hk : m.stage.platform.isLive k = true) :
      k ≠ .root ∧ k ≠ .discard := by
    obtain ⟨c, hc⟩ := isLive_iff.mp hk
    exact ht.placed k c hc
  refine ⟨as, has.distinct, has.upward, hmem, fun hroot k => ?_, fun hno => ?_,
    hs.trans (removeAll_of_sweep code hi.neat has), terminate_again ht hi.neat code a,
    terminate_comm ht hi.neat code a⟩
  · rw [hmem, hroot]
    exact and_iff_left_of_imp fun hk =>
      Or.inr (Address.isBelow_root (hplaced k hk).1 (hplaced k hk).2)
  · refine List.eq_nil_iff_forall_not_mem.mpr fun k hk => ?_
    obtain ⟨hl, hor⟩ := (hmem k).mp hk
    obtain ⟨c, hc⟩ := isLive_iff.mp hl
    have hyes : m.stage.platform.contains a = true := by
      rcases hor with rfl | hb
      · exact contains_iff.mpr (Or.inr ⟨c, hc⟩)
      · exact contains_of_isBelow ht hc hb
    exact absurd (hno.symm.trans hyes) (by simp)

end Moment

/-! ## A family that is removed -/

namespace Household

/-- A parent and a child, both members of a group. -/
def family : Template App.sample :=
  .mk (some "a") () [] none ["group"] [.mk (some "c") () [] none ["group"] []]

/-- Somebody else in the group, whose address starts like those of the family. -/
def neighbour : Template App.sample :=
  .mk (some "ab") () [] none ["group"] []

/-- Where the `neighbour` lives. -/
def beside : Address := .path (.child .root ⟨['a', 'b'], rfl⟩)

/-- The `family` and the `neighbour` wait for their tasks. The child routes mail for the `neighbour`
to itself. -/
def stage : Stage App.sample :=
  ((Moment.sample.afterwards Code.sample (Operation.spawn Code.sample family)).afterwards
    Code.sample (Operation.spawn Code.sample neighbour)).afterwards
      Code.sample (Operation.putRoute beside .sampleChild)

theorem reach_stage : Moment.Reach Code.sample (.between stage) :=
  ((Moment.reach_sample.perform 20 (.spawn family) rfl).perform 20 (.spawn neighbour) rfl).perform
    20 (.putRoute beside .sampleChild) rfl

/-- **The family goes, the child first**, and with it its memberships, its tasks and its route
(`Platform.without`). The neighbour stays, and waits for its own task still. -/
theorem family_removed : ∃ as : List Address, Moment.Reach Code.sample (.between stage) ∧
    stage.platform.contexts.keys = [.sample, .sampleChild, beside] ∧
    stage.platform.members "group" = [.sample, .sampleChild, beside] ∧
    stage.platform.blocked.keys = [.sample, .sampleChild, beside] ∧
    stage.platform.routes.entries = [(beside, .sampleChild)] ∧
    (∀ k, k ∈ as ↔ k = .sample ∨ k = .sampleChild) ∧
    as.Pairwise (fun x y => y.isBelow x = false) ∧
    (stage.terminate Code.sample .sample).platform = stage.platform.without as ∧
    (stage.terminate Code.sample .sample).platform.contexts.keys = [beside] ∧
    (stage.terminate Code.sample .sample).platform.members "group" = [beside] ∧
    (stage.terminate Code.sample .sample).platform.blocked.keys = [beside] ∧
    (stage.terminate Code.sample .sample).platform.routes.entries = [] := by
  obtain ⟨as, -, hupward, hmem, -, -, hs, -⟩ := Moment.subtree_removed reach_stage .sample
  refine ⟨as, reach_stage, rfl, rfl, rfl, rfl, fun k => ?_, hupward,
    congrArg Stage.platform hs, rfl, rfl, rfl, rfl⟩
  rw [hmem]
  constructor
  · rintro ⟨hlive, hwithin⟩
    obtain ⟨c, hc⟩ := isLive_iff.mp hlive
    have hkey : k ∈ [.sample, .sampleChild, beside] := mem_keys_iff.mpr ⟨c, hc⟩
    simp only [List.mem_cons, List.not_mem_nil, or_false] at hkey
    rcases hkey with rfl | rfl | rfl
    · exact Or.inl rfl
    · exact Or.inr rfl
    · -- the address of the neighbour only looks as if it were below
      exact hwithin.elim nofun (by decide)
  · rintro (rfl | rfl)
    · exact ⟨rfl, .refl _⟩
    · exact ⟨rfl, Or.inr rfl⟩

end Household

end Troupe
