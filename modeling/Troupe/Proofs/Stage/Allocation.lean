import Troupe.Proofs.Address.Encoding
import Troupe.Proofs.Stage.Removal
import Troupe.Stage.Allocation
import Troupe.Stage.Judgement

/-!
# What allocating and judging do to a platform

Allocating (`alloc_actor`) goes down the tree of a template, and takes back what it began if it
fails. Both ways it only enrols actors under parents that are there (`Step.enrol`), lets them join
groups (`Stage.join_upkeep`) and dismisses actors without children. `Allocates` names what a
relation has to be kept to by, so that allocating keeps to it; other modules use it instead of going
down the tree again.

Neither allocating nor judging sets anything going (`Platform.Upkeep`).

Headlines:
* **`Stage.allocate_upkeep`**: allocating takes steps that set nothing going.
* **`Allocates.allocate`**: whatever each part of allocating keeps to, allocating keeps to.
* **`Stage.judge_upkeep`**: judging an error publishes events only.
-/

namespace Troupe

variable {κ : App}

/-- A child's address (`Address.make`) is one step below its parent's and ends in the identifier. -/
theorem Address.of_make {parent a : Address} {id : String} (h : Address.make parent id = .ok a) :
    a ≠ .root ∧ a ≠ .discard ∧ a.parent = parent ∧ a.id = id := by
  obtain ⟨p, x, rfl, rfl, rfl⟩ := make_eq_ok_iff.mp h
  exact ⟨by simp [root], by simp, rfl, rfl⟩

namespace Stage

open Platform

variable {code : Code κ} {s : Stage κ} {a parent : Address}

/-- Finding a place (`place`) changes nothing on the platform, and a place found is free. -/
theorem place_platform (code : Code κ) (parent : Address) (id : Option String) (s : Stage κ) :
    (s.place code parent id).2.platform = s.platform ∧
      ∀ text a, (s.place code parent id).1 = .ok (text, a) → a ≠ .root ∧ a ≠ .discard ∧
        s.platform.contains a.parent = true ∧ s.platform.context? a = none ∧ a.id = text := by
  unfold place
  split
  · exact ⟨rfl, fun _ _ h => absurd h (by simp)⟩
  · rename_i hparent
    rw [Bool.not_eq_true', Bool.not_eq_false] at hparent
    dsimp only
    split
    · exact ⟨rfl, fun _ _ h => absurd h (by simp)⟩
    · rename_i b hmake
      split
      · exact ⟨rfl, fun _ _ h => absurd h (by simp)⟩
      · rename_i hlive
        refine ⟨rfl, fun text a h => ?_⟩
        obtain ⟨rfl, rfl⟩ := Prod.mk.inj (Except.ok.inj h)
        obtain ⟨hroot, hdiscard, rfl, hid⟩ := Address.of_make hmake
        refine ⟨hroot, hdiscard, hparent, ?_, hid⟩
        cases hc : s.platform.context? b with
        | none => rfl
        | some c => exact absurd (isLive_iff.mpr ⟨c, hc⟩) hlive

theorem join_upkeep (a : Address) (groups : List String) (p : Platform κ) :
    Upkeep p (groups.foldl (fun p g => (p.putMember g a).2) p) := by
  induction groups generalizing p with
  | nil => exact .refl _
  | cons g groups ih => exact (Upkeep.join p g a).trans (ih _)

theorem install_upkeep {t : Template κ} (hr : a ≠ .root) (hd : a ≠ .discard)
    (hp : s.platform.contains a.parent = true) (hn : s.platform.context? a = none)
    (ht : t.id = some a.id) : Upkeep s.platform (s.install code a t).platform :=
  (Upkeep.enrol _ _ hr hd hp hn ht).trans (join_upkeep a t.groups _)

mutual

/-- **Allocating** (`allocate`) takes steps that set nothing going (`Upkeep`). -/
theorem allocate_upkeep (code : Code κ) (parent : Address) : ∀ (t : Template κ) (s : Stage κ),
    s.platform.TableInv → Upkeep s.platform (allocate code parent t s).2.platform
  | .mk id factory args trap groups children, s, h => by
    rw [allocate]
    obtain ⟨hsame, hfree⟩ := place_platform code parent id s
    generalize s.place code parent id = placed at hsame hfree
    obtain ⟨_ | ⟨text, a⟩, s'⟩ := placed
    · dsimp only at hsame ⊢
      rw [hsame]
      exact .refl _
    · obtain ⟨hroot, hdiscard, hparent, hnone, hid⟩ := hfree text a rfl
      have hinstall : Upkeep s.platform
          (s'.install code a (.mk (some text) factory args trap groups children)).platform := by
        dsimp only at hsame
        rw [← hsame] at hparent hnone ⊢
        exact install_upkeep hroot hdiscard hparent hnone (congrArg some hid.symm)
      have hall := hinstall.trans (allocateAll_upkeep code a children _
        (TableInv.upkeep hinstall h))
      dsimp only
      split
      · rename_i heq
        rw [heq] at hall
        exact hall
      · rename_i heq
        rw [heq] at hall
        -- what was begun is taken back
        exact hall.trans (terminate_upkeep a (TableInv.upkeep hall h))

theorem allocateAll_upkeep (code : Code κ) (parent : Address) :
    ∀ (ts : List (Template κ)) (s : Stage κ),
      s.platform.TableInv → Upkeep s.platform (allocateAll code parent ts s).2.platform
  | [], s, _ => .refl _
  | t :: ts, s, h => by
    rw [allocateAll]
    have hfirst := allocate_upkeep code parent t s h
    split
    · rename_i heq
      rw [heq] at hfirst
      exact hfirst
    · rename_i heq
      rw [heq] at hfirst
      exact hfirst.trans (allocateAll_upkeep code parent ts _ (TableInv.upkeep hfirst h))

end

/-- A relation that all is kept to of which allocating is made (`place`, `install`, `terminate`). -/
structure Allocates (code : Code κ) (R : Stage κ → Stage κ → Prop) : Prop where
  refl : ∀ s, R s s
  trans : ∀ {s t u}, R s t → R t u → R s u
  place : ∀ parent id s, R s (s.place code parent id).2
  install : ∀ a t s, R s (s.install code a t)
  terminate : ∀ a s, R s (s.terminate code a)

section

variable {R : Stage κ → Stage κ → Prop}

mutual

/-- **Whatever allocating is made of** keeps to, allocating keeps to (`Stage.allocate`). -/
theorem Allocates.allocate (h : Allocates code R) (parent : Address) :
    ∀ (t : Template κ) (s : Stage κ), R s (s.allocate code parent t).2
  | .mk id factory args trap groups children, s => by
    rw [Stage.allocate]
    have hplace := h.place parent id s
    generalize s.place code parent id = placed at hplace
    obtain ⟨_ | ⟨text, a⟩, s'⟩ := placed
    · exact hplace
    · have hinstall := h.install a (.mk (some text) factory args trap groups children) s'
      have hall := h.trans (h.trans hplace hinstall) (h.allocateAll a children _)
      dsimp only
      split
      · rename_i heq
        rw [heq] at hall
        exact hall
      · rename_i heq
        rw [heq] at hall
        exact h.trans hall (h.terminate a _)

theorem Allocates.allocateAll (h : Allocates code R) (parent : Address) :
    ∀ (ts : List (Template κ)) (s : Stage κ), R s (s.allocateAll code parent ts).2
  | [], s => h.refl s
  | t :: ts, s => by
    rw [Stage.allocateAll]
    have hfirst := h.allocate parent t s
    split
    · rename_i heq
      rw [heq] at hfirst
      exact hfirst
    · rename_i heq
      rw [heq] at hfirst
      exact h.trans hfirst (h.allocateAll parent ts _)

end

end

/-- **Judging** (`judge`) an error publishes events only. -/
theorem judge_upkeep (code : Code κ) (r : Raised κ) (levels : List Address) (s : Stage κ) :
    Upkeep s.platform (judge code r levels s).2.platform := by
  induction levels generalizing s with
  | nil => exact .refl _
  | cons level above ih =>
    rw [judge]
    dsimp only
    split
    · exact .refl _
    · exact .refl _
    · exact .publish _ rfl
    · split
      · exact .refl _
      · refine Upkeep.trans ?_ (ih _)
        exact .publish s.platform rfl

end Stage

end Troupe
