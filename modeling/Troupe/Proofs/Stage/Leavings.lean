import Troupe.Proofs.Watch.Moves

/-!
# What removing actors leaves alone

Removing an actor (`terminate`) removes those at and below its address, one after another
(`Stage.Removals`). The slots, the tasks and the memberships of all other addresses are what they
were (`Stage.Spared`), and so is what is not kept by address (`Removals.shared`, `Removals.raised`);
the bus is told of nothing but removals.

What a context says besides who lives there makes no difference to removing
(`Stage.terminate_modifyContext`), so an actor whose code is running is removed like any other.

Headlines:
* **`Stage.terminate_removals`**: removing an actor removes those at and below its address.
* **`Removals.keeps`**: what every dismissal keeps, removals keep.
* **`Removals.spared`**: other addresses keep what they have.
* `Stage.context?_terminate_self`: whoever is removed is gone, whatever else is on the stage.
-/

namespace Troupe

variable {κ : App}

open Platform

/-- Direct children (`Platform.directChildren`) are found by their texts, which tell that they are
below. -/
theorem Platform.isBelow_of_mem_directChildren {p : Platform κ} {a k : Address}
    (h : k ∈ p.directChildren a) : k.isBelow a = true := by
  unfold directChildren at h
  obtain ⟨hmem, hdepth⟩ := List.mem_filter.mp h
  have hroot : k ≠ .root := by
    rintro rfl
    exact absurd (beq_iff_eq.mp hdepth) (by simp [Address.depth, Address.root, Path.depth])
  unfold descendants at hmem
  have hstart := List.all_eq_true.mp List.all_takeWhile k hmem
  exact (Address.subtreeStart_prefix_iff hroot).mp (List.isPrefixOf_iff_prefix.mp hstart)

theorem Table.keys_modify {α β : Type} [Ord α] [DecidableEq α] (t : Table α β) (k : α) (f : β → β) :
    (t.modify k f).keys = t.keys := by
  unfold modify mapValues keys
  rw [List.map_map]
  rfl

namespace Stage

variable {code : Code κ} {s t : Stage κ} {a b : Address}

/-- Actors at or below an address are removed (`Stage.remove`), one after another. -/
def Removals (code : Code κ) (a : Address) : Stage κ → Stage κ → Prop :=
  Relation.ReflTransGen fun s t => ∃ b : Address, b.Within a ∧ t = s.remove code b

theorem Removals.mono (h : Removals code b s t) (hb : b.Within a) : Removals code a s t :=
  Relation.ReflTransGen.mono (fun _ _ ⟨k, hk, hremove⟩ => ⟨k, hk.trans hb, hremove⟩) _ _ h

theorem terminateWithin_removals (n : Nat) (a : Address) (s : Stage κ) :
    Removals code a s (s.terminateWithin code n a) := by
  induction n generalizing a s with
  | zero => exact .refl
  | succ n ih =>
    have all (as : List Address) (has : ∀ b ∈ as, b.Within a) (s : Stage κ) :
        Removals code a s (as.foldl (fun s b => s.terminateWithin code n b) s) := by
      induction as generalizing s with
      | nil => exact .refl
      | cons b as ihas =>
        have hfirst := (ih b s).mono (has b List.mem_cons_self)
        exact Relation.ReflTransGen.trans hfirst
          (ihas (fun c hc => has c (List.mem_cons_of_mem b hc)) _)
    have hchildren := all (s.platform.directChildren a)
      (fun b hb => Or.inr (isBelow_of_mem_directChildren hb)) s
    rw [terminateWithin]
    split
    · dsimp only
      split
      · exact hchildren
      · exact .tail hchildren ⟨a, .refl a, rfl⟩
    · exact .refl

/-- **Removing an actor** (`terminate`) removes those at and below its address. -/
theorem terminate_removals (code : Code κ) (a : Address) (s : Stage κ) :
    Removals code a s (s.terminate code a) :=
  terminateWithin_removals _ a s

/-- **What every dismissal keeps** (`Platform.dismiss`), removals keep. -/
theorem Removals.keeps {P : Platform κ → Prop}
    (hP : ∀ (p : Platform κ) (b : Address) (c : Context κ), b.Within a → p.context? b = some c →
      P p → P (p.dismiss b))
    (h : Removals code a s t) (hs : P s.platform) : P t.platform := by
  induction h with
  | refl => exact hs
  | @tail u _ _ hstep ih =>
    obtain ⟨b, hb, rfl⟩ := hstep
    cases hc : u.platform.context? b with
    | none => rwa [remove_none code hc]
    | some c =>
      rw [remove_some code hc]
      exact hP _ b c hb hc ih

/-- **Other addresses** keep their actors, slots, tasks and memberships. -/
structure Spared (p q : Platform κ) (b : Address) : Prop where
  context : q.context? b = p.context? b
  pending : q.pending.get? b = p.pending.get? b
  blocked : q.blocked.get? b = p.blocked.get? b
  members : ∀ group, b ∈ q.members group ↔ b ∈ p.members group

theorem Removals.spared (h : Removals code a s t) (hb : ¬ b.Within a) :
    Spared s.platform t.platform b := by
  refine h.keeps (P := fun q => Spared s.platform q b) (fun p k _ hk _ hp => ?_)
    ⟨rfl, rfl, rfl, fun _ => Iff.rfl⟩
  have hne : b ≠ k := by
    rintro rfl
    exact hb hk
  obtain ⟨_, _, hq, -⟩ := dismiss_eq p k
  refine ⟨?_, ?_, ?_, fun group => ?_⟩
  · rw [context?_dismiss, if_neg hne, hp.context]
  · rw [hq, ← hp.pending]
    exact (Table.get?_erase _ _ _).trans (if_neg hne)
  · rw [hq, ← hp.blocked]
    exact (Table.get?_erase _ _ _).trans (if_neg hne)
  · rw [mem_members_dismiss, hp.members]
    exact and_iff_right hne

/-- What is kept for all addresses together (`Platform.tasks`) is as it was. -/
theorem Removals.shared (h : Removals code a s t) :
    t.platform.config = s.platform.config ∧
      t.platform.nextGeneration = s.platform.nextGeneration ∧
      s.platform.bus.Grown (fun e => e.kind = .actorRemoved) t.platform.bus := by
  refine h.keeps (P := fun q => q.config = s.platform.config ∧
    q.nextGeneration = s.platform.nextGeneration ∧
    s.platform.bus.Grown (fun e => e.kind = .actorRemoved) q.bus) (fun p b _ _ _ hp => ?_)
    ⟨rfl, rfl, .refl _⟩
  obtain ⟨hconfig, hnext, hbus⟩ := hp
  obtain ⟨_, _, hq, -⟩ := dismiss_eq p b
  rw [hq]
  exact ⟨hconfig, hnext, hbus.trans (.publish _ rfl)⟩

/-- **Whoever is removed** is not blocked any more (`Platform.isBlocked`). -/
theorem Removals.unblocked (h : Removals code a s t) (hlive : s.platform.isLive b = true)
    (hgone : t.platform.context? b = none) : t.platform.isBlocked b = false := by
  have hkept : t.platform.isLive b = true ∨ t.platform.isBlocked b = false := by
    refine h.keeps (P := fun q => q.isLive b = true ∨ q.isBlocked b = false)
      (fun p k _ _ _ hp => ?_) (Or.inl hlive)
    obtain ⟨_, _, hq, -⟩ := dismiss_eq p k
    have hblocked : (p.dismiss k).isBlocked b = true ↔ b ≠ k ∧ p.isBlocked b = true := by
      rw [hq]
      exact Table.contains_erase
    by_cases hbk : b = k
    · exact Or.inr (Bool.not_eq_true _ ▸ fun h => (hblocked.mp h).1 hbk)
    · refine hp.imp (fun hp => ?_) fun hp => ?_
      · rw [isLive_iff, context?_dismiss, if_neg hbk]
        exact isLive_iff.mp hp
      · exact Bool.not_eq_true _ ▸ fun h => absurd (hp.symm.trans (hblocked.mp h).2) (by simp)
  refine hkept.resolve_left fun hl => ?_
  obtain ⟨c, hc⟩ := isLive_iff.mp hl
  exact absurd (hgone.symm.trans hc) (by simp)

/-- Errors that were raised still wait for their verdicts (`Platform.raised`). -/
theorem Removals.raised (h : Removals code a s t) : t.platform.raised = s.platform.raised := by
  refine h.keeps (P := fun q => q.raised = s.platform.raised) (fun p b _ _ _ hp => ?_) rfl
  obtain ⟨_, _, hq, -⟩ := dismiss_eq p b
  rw [hq]
  exact hp

/-! ## Contexts -/

section Contexts

variable {f : Context κ → Context κ}

theorem forget_modifyContext (p : Platform κ) (a b : Address) (f : Context κ → Context κ) :
    (p.modifyContext a f).forget b = (p.forget b).modifyContext a f := by
  have hcontexts : (p.contexts.modify a f).erase b = (p.contexts.erase b).modify a f := by
    refine Table.ext_get? fun k => ?_
    simp only [Table.get?_modify, Table.get?_erase]
    by_cases hk : k = b
    · by_cases hka : k = a
      · simp [← hk, ← hka]
      · simp [← hk, hka]
    · by_cases hka : k = a
      · have hab : a ≠ b := hka ▸ hk
        simp [hka, hab]
      · simp [hk, hka]
  unfold forget modifyContext
  rw [hcontexts]

/-- What is changed in contexts makes no difference to who is removed (`remove`), if it leaves the
actors where they are. -/
theorem remove_modifyContext (hf : ∀ c, (f c).actor = c.actor) (s : Stage κ) (a b : Address) :
    (s.edit (·.modifyContext a f)).remove code b = (s.remove code b).edit (·.modifyContext a f) := by
  have hunschedule (p : Platform κ) :
      (p.modifyContext a f).unschedule b = (p.unschedule b).modifyContext a f := by
    unfold unschedule
    dsimp only
    rw [apply_ite (Platform.modifyContext · a f)]
    rfl
  cases hc : s.platform.context? b with
  | none =>
    have hc' : (s.edit (·.modifyContext a f)).platform.context? b = none := by
      rw [← Option.map_eq_none_iff (f := fun c => if b = a then f c else c)] at hc
      exact (context?_modifyContext_eq f).trans hc
    rw [remove_none code hc, remove_none code hc']
  | some c =>
    have hc' : (s.edit (·.modifyContext a f)).platform.context? b =
        some (if b = a then f c else c) := by
      refine (context?_modifyContext_eq f).trans ?_
      rw [hc]
      rfl
    have hactor : (if b = a then f c else c).actor = c.actor := by
      split
      · exact hf c
      · rfl
    unfold remove
    rw [hc, hc']
    dsimp only
    rw [hactor]
    show ({ s with
      platform := (((s.platform.modifyContext a f).forget b).unschedule b).publish _
      world := _ } : Stage κ) = _
    rw [forget_modifyContext, hunschedule]
    rfl

theorem terminateWithin_modifyContext (hf : ∀ c, (f c).actor = c.actor) (n : Nat) (s : Stage κ)
    (a b : Address) : (s.edit (·.modifyContext a f)).terminateWithin code n b =
      (s.terminateWithin code n b).edit (·.modifyContext a f) := by
  induction n generalizing b s with
  | zero => rfl
  | succ n ih =>
    have hbelow (bs : List Address) (s : Stage κ) :
        bs.foldl (fun s b => s.terminateWithin code n b) (s.edit (·.modifyContext a f)) =
          (bs.foldl (fun s b => s.terminateWithin code n b) s).edit (·.modifyContext a f) := by
      induction bs generalizing s with
      | nil => rfl
      | cons b bs ihbs => rw [List.foldl_cons, List.foldl_cons, ih, ihbs]
    have hkeys : (s.platform.contexts.modify a f).keys = s.platform.contexts.keys :=
      Table.keys_modify _ a f
    have hlive : (s.edit (·.modifyContext a f)).platform.contains b = s.platform.contains b := by
      have hsome := congrArg Option.isSome
        (context?_modifyContext_eq (p := s.platform) (a := a) (b := b) f)
      rw [Option.isSome_map] at hsome
      unfold contains isLive
      rw [Table.contains_eq, Table.contains_eq]
      exact congrArg (b.isRoot || ·) hsome
    have hchildren : (s.edit (·.modifyContext a f)).platform.directChildren b =
        s.platform.directChildren b := by
      unfold directChildren descendants
      show (((s.platform.contexts.modify a f).keys.dropWhile _).takeWhile _).filter _ = _
      rw [hkeys]
    unfold terminateWithin
    rw [hlive, hchildren]
    dsimp only
    rw [hbelow, remove_modifyContext hf]
    split
    · split <;> rfl
    · rfl

theorem context?_remove_self (code : Code κ) (s : Stage κ) (a : Address) :
    (s.remove code a).platform.context? a = none := by
  cases hc : s.platform.context? a with
  | none => rwa [remove_none code hc]
  | some c =>
    rw [remove_some code hc, context?_dismiss]
    exact if_pos rfl

/-- **Whoever is removed is gone** (`terminate`), whatever else is on the stage. -/
theorem context?_terminate_self (code : Code κ) (hroot : a ≠ .root)
    (hlive : s.platform.isLive a = true) : (s.terminate code a).platform.context? a = none := by
  have hcontains : s.platform.contains a = true := by
    unfold contains
    rw [hlive, Bool.or_true]
  have hnotRoot : a.isRoot = false := by
    unfold Address.isRoot
    exact beq_eq_false_iff_ne.mpr hroot
  unfold terminate terminateWithin
  rw [if_pos hcontains]
  dsimp only
  rw [hnotRoot, if_neg Bool.false_ne_true]
  exact context?_remove_self code _ a

/-- Whoever has been removed is not there (`Platform.isCurrent`). -/
theorem isCurrent_terminate (code : Code κ)
    (hroot : ∀ c, s.platform.context? a = some c → a ≠ .root) (g : Nat) :
    (s.terminate code a).platform.isCurrent a g = false := by
  have hnone : (s.terminate code a).platform.context? a = none := by
    cases hc : s.platform.context? a with
    | some c => exact context?_terminate_self code (hroot c hc) (isLive_iff.mpr ⟨c, hc⟩)
    | none =>
      refine (terminate_removals code a s).keeps (P := fun p => p.context? a = none)
        (fun p b _ _ _ hp => ?_) hc
      rw [context?_dismiss]
      split <;> first | rfl | exact hp
  rw [← Bool.not_eq_true, isCurrent_iff, hnone]
  simp

/-- It makes no difference to removing an actor (`terminate`) what its context says besides. -/
theorem terminate_modifyContext (hf : ∀ c, (f c).actor = c.actor) (hroot : a ≠ .root)
    (hlive : s.platform.isLive a = true) :
    (s.edit (·.modifyContext a f)).terminate code a = s.terminate code a := by
  have hsize : (s.edit (·.modifyContext a f)).platform.size = s.platform.size := by
    show (s.platform.contexts.modify a f).size = s.platform.contexts.size
    exact List.length_map _
  have hgone := context?_terminate_self code hroot hlive
  unfold terminate at hgone ⊢
  rw [hsize, terminateWithin_modifyContext hf]
  refine congrArg (fun platform => ({ terminateWithin code _ a s with platform } : Stage κ)) ?_
  refine (modifyContext_congr (g := id) fun c hc => ?_).trans (modifyContext_id _ a)
  exact absurd (hgone.symm.trans hc) (by simp)

end Contexts

end Stage

end Troupe
