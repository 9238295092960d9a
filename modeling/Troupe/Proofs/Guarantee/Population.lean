import Troupe.Proofs.Moments

/-!
# Who lives on a platform

At every moment, in the middle of a hook as well as between operations, the table of contexts is in
order (`Platform.TableInv`):

* The live actors form a tree that hangs from the root. Nobody lives at the root itself or at the
  discard address. A tree that is closed under parents is what lets removal (`terminate`) find all
  actors below one by going down step by step (`direct_children`).
* Each context is the one its address and template say: it knows its own address, its template has
  the last part of it for an identifier, and it has a mailbox iff it is buffered (`Context::new`).
* Generations tell incarnations apart for good (`next_generation`): no two actors have the same,
  each is smaller than the next one to be handed out, and an old one at a later moment is the one
  that was there before.
* Groups hold live actors only and are never empty (`put_member`, `remove`).

Headline:
* **`Moment.population_in_order`**: at every moment the live actors form a tree, and no generation
  comes back.
-/

namespace Troupe.Moment

variable {κ : App} {code : Code κ} {m : Moment κ}

/-- **The population is in order** at every moment that is reached (`Moment.Reach`), and no
generation that was handed out before it comes back after it. -/
theorem population_in_order (h : Reach code m) :
    (m.stage.platform.context? .root = none ∧ m.stage.platform.context? .discard = none) ∧
    (∀ a, m.stage.platform.isLive a = true →
      a.parent = .root ∨ m.stage.platform.isLive a.parent = true) ∧
    (∀ a c, m.stage.platform.context? a = some c →
      c.address = a ∧ c.template.id = some a.id ∧ c.mailbox.isSome = c.flags.buffered) ∧
    (∀ a b c d, m.stage.platform.context? a = some c → m.stage.platform.context? b = some d →
      c.generation = d.generation → a = b) ∧
    (∀ a c, m.stage.platform.context? a = some c →
      c.generation < m.stage.platform.nextGeneration) ∧
    (∀ group set, m.stage.platform.groups.get? group = some set →
      set.isEmpty = false ∧ ∀ a, set.contains a = true → m.stage.platform.isLive a = true) ∧
    (∀ m', Later code m m' → ∀ a c, m'.stage.platform.context? a = some c →
      c.generation < m.stage.platform.nextGeneration →
        ∃ c₀, m.stage.platform.context? a = some c₀ ∧ c₀.generation = c.generation) := by
  have hok := h.ok
  have ht := hok.inv.table
  refine ⟨⟨?_, ?_⟩, fun a ha => ?_, fun a c hc => ?_, ht.distinct, ht.fresh, fun group set hs => ?_,
    fun m' hm' a c hc hlt => ?_⟩
  · rw [Option.eq_none_iff_forall_not_mem]
    exact fun c hc => (ht.placed _ c hc).1 rfl
  · rw [Option.eq_none_iff_forall_not_mem]
    exact fun c hc => (ht.placed _ c hc).2 rfl
  · obtain ⟨c, hc⟩ := Platform.isLive_iff.mp ha
    rcases Platform.contains_iff.mp (ht.closed a c hc) with hroot | hlive
    · exact Or.inl hroot
    · exact Or.inr (Platform.isLive_iff.mpr hlive)
  · exact ⟨ht.own a c hc, ht.named a c hc, ht.boxed a c hc⟩
  · exact ⟨ht.inhabited group set hs, ht.members group set hs⟩
  · have hlater := (hm'.ok hok).2.later
    have hid := hlater.old a c.identity (Platform.identity?_eq_some.mpr ⟨c, hc, rfl⟩) hlt
    obtain ⟨c₀, hc₀, hsame⟩ := Platform.identity?_eq_some.mp hid
    exact ⟨c₀, hc₀, congrArg Identity.generation hsame⟩

/-- An actor that was spawned is in its group (`Platform.members`) and under the root. -/
theorem population_spawned : ∃ s : Stage App.sample, Reach Code.sample (between s) ∧
    s.platform.isLive .sample = true ∧ s.platform.members "group" = [.sample] ∧
      (Address.sample.parent = .root ∨ s.platform.isLive Address.sample.parent = true) := by
  have hreach := reach_sample.perform 8 (.spawn .sample) rfl
  exact ⟨_, hreach, rfl, rfl, (population_in_order hreach).2.1 _ rfl⟩

end Troupe.Moment
