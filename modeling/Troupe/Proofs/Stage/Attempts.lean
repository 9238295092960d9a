import Troupe.Proofs.Platform.Outcomes
import Troupe.Proofs.Stage.Names
import Troupe.Proofs.Stage.Subtrees

/-!
# Attempts at allocating

Allocating works through the nodes of a template in order (`Template.nodes`). It comes to the end of
them, and then it went by the plan (`Stage.Planted`); or it fails at one of them, and takes back all
that was built before (`Stage.Attempt`). A child that fails takes back what is below it, and each
level above adds its own removal (`Attempt.takeBack`): together they remove every actor that was
built, once.

Building and removing again is not the same as doing nothing. Actors and groups are as before
(`Attempt.kept_contexts`, `Attempt.kept_groups`), and so are slots (`Attempt.kept_pending`) and
outcomes (`Attempt.kept_entries`), but what was kept for the addresses beforehand is gone: the
routes to them and through them, and what they were blocked by.

Headlines:
* **`Stage.allocate_attempt`**: allocating comes to the end of the plan, or takes back every actor
  that was built, once.
* **`Stage.Attempt.world_eq`**: each actor that was built gets its last call, in the order in which
  they are removed.
* **`Stage.Attempt.platform_eq`**: what was taken back leaves its traces.
-/

namespace Troupe

variable {κ : App}

open Platform

/-! ## Staying neat -/

namespace Platform

variable {p : Platform κ}

theorem Neat.putMember (h : p.Neat) (group : String) (a : Address) :
    (p.putMember group a).2.Neat := by
  obtain ⟨groups, bus, hq, hg, -⟩ := putMember_eq p group a
  rw [hq]
  refine ⟨h.waiting, fun name set hset => ?_⟩
  rcases hg with rfl | ⟨-, rfl⟩
  · exact h.inhabited name set hset
  · rcases Table.get?_insert_eq_some.mp hset with ⟨-, rfl⟩ | ⟨-, hset⟩
    · exact Table.isEmpty_put _ _
    · exact h.inhabited name set hset

end Platform

theorem Site.plant_neat (code : Code κ) (x : Site κ) {s : Stage κ} (h : s.platform.Neat) :
    (x.plant code s).platform.Neat := by
  have joined (groups : List String) (p : Platform κ) (hp : p.Neat) :
      (groups.foldl (fun p g => (p.putMember g x.address).2) p).Neat := by
    induction groups generalizing p with
    | nil => exact hp
    | cons g groups ih => exact ih _ (hp.putMember g x.address)
  exact joined x.template.groups _ ⟨h.waiting, h.inhabited⟩

namespace Stage

variable {code : Code κ} {s u : Stage κ} {a parent : Address} {xs ys : List (Site κ)}

theorem plantAll_neat (code : Code κ) (xs : List (Site κ)) (h : s.platform.Neat) :
    (s.plantAll code xs).platform.Neat := by
  induction xs generalizing s with
  | nil => exact h
  | cons x xs ih => exact ih (s := x.plant code s) (x.plant_neat code h)

/-! ## Free sites -/

/-- Nobody lives at these sites, no two of them are at one address, and all are below `parent`. -/
structure Free (parent : Address) (s : Stage κ) (xs : List (Site κ)) : Prop where
  apart : (xs.map Site.address).Nodup
  vacant : ∀ x ∈ xs, s.platform.context? x.address = none
  below : ∀ x ∈ xs, x.address.isBelow parent = true

theorem Free.nil (parent : Address) (s : Stage κ) : Free parent s [] :=
  ⟨.nil, fun _ h => absurd h List.not_mem_nil, fun _ h => absurd h List.not_mem_nil⟩

/-- What is free when actors were built is free beside them (`plantAll`). -/
theorem Free.append (h : Free parent s xs) (h' : Free parent (s.plantAll code xs) ys) :
    Free parent s (xs ++ ys) := by
  have hother (y : Site κ) (hy : y ∈ ys) :
      (∀ x ∈ xs, x.address ≠ y.address) ∧ s.platform.context? y.address = none := by
    have hnone : ¬ (s.plantAll code xs).platform.isLive y.address = true := by
      rw [isLive_iff, h'.vacant y hy]
      simp
    rw [isLive_plantAll, not_or] at hnone
    obtain ⟨hnot, hdead⟩ := hnone
    refine ⟨fun x hx he => hnot ⟨x, hx, he⟩, ?_⟩
    rw [isLive_iff] at hdead
    exact Option.eq_none_iff_forall_not_mem.mpr fun c hc => hdead ⟨c, hc⟩
  refine ⟨?_, fun x hx => ?_, fun x hx => ?_⟩
  · rw [List.map_append]
    refine List.nodup_append.mpr ⟨h.apart, h'.apart, fun b hb c hc => ?_⟩
    obtain ⟨x, hx, rfl⟩ := List.mem_map.mp hb
    obtain ⟨y, hy, rfl⟩ := List.mem_map.mp hc
    exact (hother y hy).1 x hx
  · rcases List.mem_append.mp hx with hx | hx
    · exact h.vacant x hx
    · exact (hother x hx).2
  · rcases List.mem_append.mp hx with hx | hx
    · exact h.below x hx
    · exact h'.below x hx

/-- The actor above is built first (`Site.plant`). -/
theorem Free.cons {x : Site κ} (hx : s.platform.context? x.address = none)
    (hbelow : x.address.isBelow parent = true) (h : Free x.address (x.plant code s) xs) :
    Free parent s (x :: xs) := by
  refine ⟨Template.nodup_sites h.below h.apart, List.forall_mem_cons.mpr ⟨hx, fun y hy => ?_⟩,
    List.forall_mem_cons.mpr ⟨hbelow, fun y hy => Address.isBelow_trans (h.below y hy) hbelow⟩⟩
  have hne : y.address ≠ x.address := by
    intro he
    have hself : x.address.isBelow x.address = true := he ▸ h.below y hy
    exact Bool.false_ne_true ((Address.isBelow_irrefl x.address).symm.trans hself)
  have hy := h.vacant y hy
  rwa [Site.context?_plant, if_neg hne] at hy

/-! ## How attempts end -/

/-- An attempt that comes to the end: it went by the plan (`Template.plan`). -/
structure Planted (code : Code κ) (parent : Address) (plan : Option (List (Site κ) × κ.World))
    (s u : Stage κ) (xs : List (Site κ)) : Prop where
  planned : plan = some (xs, u.world)
  free : Free parent s xs
  left : u = s.plantAll code xs

/-- An attempt that fails. For the first of its nodes actors were built at free sites (`plantAll`);
then at most an identifier was generated, and some of the actors were removed again. -/
structure Attempt (code : Code κ) (parent : Address) (nodes : List (Template κ)) (s u : Stage κ)
    (xs : List (Site κ)) (gone : List Address) : Prop where
  free : Free parent s xs
  begun : ∃ done rest, nodes = done ++ rest ∧ List.Forall₂ Site.IsOf xs done
  distinct : gone.Nodup
  built : ∀ a ∈ gone, ∃ x ∈ xs, x.address = a
  left : ∃ id, u = ({ s.plantAll code xs with
    world := (code.name id (s.plantAll code xs).world).2 } : Stage κ).removeAll code gone

variable {nodes : List (Template κ)} {gone : List Address} {t : Template κ}

/-- What is left when some of the actors were removed (`Platform.without`). -/
theorem Attempt.platform (h : Attempt code parent nodes s u xs gone) (hs : s.platform.Neat) :
    u.platform = (s.plantAll code xs).platform.without gone := by
  obtain ⟨id, hu⟩ := h.left
  have hplanted := plantAll_neat code xs hs
  rw [hu, removeAll_eq]
  · exact hplanted
  · exact h.distinct
  · exact fun a ha => isLive_plantAll.mpr (Or.inl (h.built a ha))

/-- Whoever is still there (`Platform.isLive`) was built and not removed, or was there before. -/
theorem Attempt.isLive_iff {k : Address} (h : Attempt code parent nodes s u xs gone)
    (hs : s.platform.Neat) : u.platform.isLive k = true ↔
      k ∉ gone ∧ ((∃ x ∈ xs, x.address = k) ∨ s.platform.isLive k = true) := by
  have hplanted : (s.plantAll code xs).platform.isLive k = true ↔ _ := isLive_plantAll
  rw [← hplanted, Platform.isLive_iff, Platform.isLive_iff, h.platform hs]
  simp only [context?_without_eq_some, exists_and_left]

/-- Nobody lives at or below an address where nobody does (`Platform.isLive`). -/
theorem not_isLive_of_vacant {k : Address} (ht : s.platform.TableInv)
    (ha : s.platform.context? a = none) (hroot : a ≠ .root) (hk : k.Within a) :
    ¬ s.platform.isLive k = true := by
  rw [Platform.isLive_iff]
  rintro ⟨c, hc⟩
  rcases hk with rfl | hk
  · exact absurd (ha.symm.trans hc) (by simp)
  · rcases contains_iff.mp (contains_of_isBelow ht hc hk) with hr | ⟨d, hd⟩
    · exact hroot hr
    · exact absurd (ha.symm.trans hd) (by simp)

section TakeBack

variable {x : Site κ} (hx : s.platform.context? x.address = none) (hroot : x.address ≠ .root)
  (ht : s.platform.TableInv) (hs : s.platform.Neat)
  (h : Attempt code x.address nodes (x.plant code s) u xs gone)

include hx hroot ht hs h

/-- What a failure below an actor leaves to the removal of the actor (`Sweep`): whoever was built
and is still there. -/
theorem Attempt.sweep {ys : List Address} (hy : Sweep u.platform [x.address] ys) (k : Address) :
    k ∈ ys ↔ k ∉ gone ∧ ∃ y ∈ x :: xs, y.address = k := by
  rw [hy.mem]
  simp only [List.mem_singleton, exists_eq_left]
  rw [h.isLive_iff (x.plant_neat code hs), Site.isLive_plant, List.exists_mem_cons_iff]
  constructor
  · rintro ⟨⟨hk, hbelow | hself | hold⟩, hor⟩
    · exact ⟨hk, Or.inr hbelow⟩
    · exact ⟨hk, Or.inl hself⟩
    · exact absurd hold (not_isLive_of_vacant ht hx hroot hor)
  · rintro ⟨hk, rfl | ⟨y, hy, rfl⟩⟩
    · exact ⟨⟨hk, Or.inr (Or.inl rfl)⟩, .refl _⟩
    · exact ⟨⟨hk, Or.inl ⟨y, hy, rfl⟩⟩, Or.inr (h.free.below y hy)⟩

/-- **A failure below an actor** takes the actor back as well (`terminate`), with all that is still
there below it. -/
theorem Attempt.takeBack (hbelow : x.address.isBelow parent = true) (hof : x.IsOf t)
    (hu : u.platform.TableInv) :
    ∃ gone', Attempt code parent (t :: nodes) s (u.terminate code x.address) (x :: xs) gone' ∧
      gone'.Perm ((x :: xs).map Site.address) := by
  have hneat : u.platform.Neat := by
    rw [h.platform (x.plant_neat code hs)]
    exact (plantAll_neat code xs (x.plant_neat code hs)).without gone
  obtain ⟨ys, hy, hterminate⟩ := terminate_sweep code x.address hu hneat
  have hys := h.sweep hx hroot ht hs hy
  have hfree := h.free.cons hx hbelow
  have hnodup : (gone ++ ys).Nodup :=
    List.nodup_append.mpr ⟨h.distinct, hy.distinct, fun a ha b hb hab =>
      ((hys b).mp hb).1 (hab ▸ ha)⟩
  have hmem (k : Address) : k ∈ gone ++ ys ↔ ∃ y ∈ x :: xs, y.address = k := by
    rw [List.mem_append, hys]
    constructor
    · rintro (hk | ⟨-, hk⟩)
      · obtain ⟨y, hy, he⟩ := h.built k hk
        exact ⟨y, List.mem_cons_of_mem x hy, he⟩
      · exact hk
    · intro hk
      by_cases hg : k ∈ gone
      · exact Or.inl hg
      · exact Or.inr ⟨hg, hk⟩
  refine ⟨gone ++ ys, ⟨hfree, ?_, hnodup, fun k => (hmem k).mp, ?_⟩, ?_⟩
  · obtain ⟨done, rest, rfl, hdone⟩ := h.begun
    exact ⟨t :: done, rest, rfl, .cons hof hdone⟩
  · obtain ⟨id, hleft⟩ := h.left
    refine ⟨id, ?_⟩
    rw [hterminate, hleft, ← removeAll_append]
    rfl
  · refine (List.perm_ext_iff_of_nodup hnodup hfree.apart).mpr fun k => ?_
    rw [hmem, List.mem_map]

end TakeBack

/-- No place is found (`place`): nothing was built. -/
theorem Attempt.unplaced {id : Option String} {e : PlatformError}
    (h : s.place code parent id = (.error e, u)) : Attempt code parent nodes s u [] [] := by
  refine ⟨.nil parent s, ⟨[], nodes, rfl, .nil⟩, .nil, fun _ ha => absurd ha List.not_mem_nil, ?_⟩
  unfold place at h
  split at h
  · exact ⟨some "", (Prod.mk.inj h).2.symm⟩
  · refine ⟨id, ?_⟩
    dsimp only at h
    split at h
    · exact (Prod.mk.inj h).2.symm
    · split at h
      · exact (Prod.mk.inj h).2.symm
      · exact absurd h (by simp)

/-- What failed after others were built. -/
theorem Attempt.after {nodes' : List (Template κ)} (hfree : Free parent s xs)
    (hof : List.Forall₂ Site.IsOf xs nodes')
    (h : Attempt code parent nodes (s.plantAll code xs) u ys gone) :
    Attempt code parent (nodes' ++ nodes) s u (xs ++ ys) gone := by
  refine ⟨hfree.append h.free, ?_, h.distinct, fun a ha => ?_, ?_⟩
  · obtain ⟨done, rest, rfl, hdone⟩ := h.begun
    exact ⟨nodes' ++ done, rest, (List.append_assoc _ _ _).symm, List.rel_append hof hdone⟩
  · obtain ⟨y, hy, he⟩ := h.built a ha
    exact ⟨y, List.mem_append_right xs hy, he⟩
  · rw [plantAll_append]
    exact h.left

theorem Attempt.before (nodes' : List (Template κ)) (h : Attempt code parent nodes s u xs gone) :
    Attempt code parent (nodes ++ nodes') s u xs gone := by
  obtain ⟨done, rest, rfl, hdone⟩ := h.begun
  exact { h with begun := ⟨done, rest ++ nodes', List.append_assoc _ _ _, hdone⟩ }

/-! ## Allocating is an attempt -/

/-- At a node either no place is found (`place`), or the actor is built there, and then those below
it are allocated: all of them, or it is removed again. -/
theorem allocate_inv (code : Code κ) (parent : Address) (t : Template κ) (s : Stage κ)
    (ht : s.platform.TableInv) :
    (∃ e u, s.place code parent t.id = (.error e, u) ∧ allocate code parent t s = (.error e, u)) ∨
    ∃ a, Address.make parent (code.name t.id s.world).1 = .ok a ∧ a ≠ .root ∧
      s.platform.context? a = none ∧ (t.site code a s.world).IsOf t ∧
      ((t.site code a s.world).plant code s).platform.TableInv ∧
      (∀ u, allocateAll code a t.children ((t.site code a s.world).plant code s) = (none, u) →
        allocate code parent t s = (.ok a, u)) ∧
      ∀ e u, allocateAll code a t.children ((t.site code a s.world).plant code s) = (some e, u) →
        allocate code parent t s = (.error e, u.terminate code a) := by
  obtain ⟨id, factory, args, trap, groups, children⟩ := t
  obtain ⟨hsame, hplaced⟩ := place_platform code parent id s
  rw [allocate]
  cases hplace : s.place code parent id with
  | mk placed s₀ =>
  rw [hplace] at hsame hplaced
  cases placed with
  | error e => exact Or.inl ⟨e, s₀, hplace, rfl⟩
  | ok named =>
    obtain ⟨text, a⟩ := named
    obtain ⟨rfl, hmake, rfl⟩ := make_of_place hplace
    obtain ⟨hroot, hdiscard, hparent, hnone, hid⟩ := hplaced _ a rfl
    let x := Template.site code a (.mk id factory args trap groups children) s.world
    have hbuilt : (x.plant code s).platform.TableInv := TableInv.upkeep
      (install_upkeep (s := { s with world := x.world }) hroot hdiscard hparent hnone
        (congrArg some hid.symm)) ht
    have hinstall : install code a (.mk (some (code.name id s.world).1) factory args trap groups
        children) { s with world := (code.name id s.world).2 } = x.plant code s := rfl
    refine Or.inr ⟨a, hmake, hroot, hnone, congrArg (Template.withId _) hid.symm, hbuilt,
      fun u hall => ?_, fun e u hall => ?_⟩
    all_goals
      change allocateAll code a children (x.plant code s) = _ at hall
      dsimp only
      rw [hinstall, hall]

mutual

/-- **Allocating** (`allocate`) comes to the end of the plan (`Planted`), or takes back every actor
that was built, once (`Attempt`). -/
theorem allocate_attempt (code : Code κ) (parent : Address) : ∀ (t : Template κ) (s : Stage κ),
    s.platform.TableInv → s.platform.Neat →
      (∀ a, (allocate code parent t s).1 = .ok a → ∃ xs, xs.head?.map Site.address = some a ∧
        (∀ x ∈ xs, x.address.Within a) ∧
        Planted code parent (t.plan code parent s.world) s (allocate code parent t s).2 xs) ∧
      (∀ e, (allocate code parent t s).1 = .error e → ∃ xs gone,
        Attempt code parent t.nodes s (allocate code parent t s).2 xs gone ∧
        gone.Perm (xs.map Site.address))
  | .mk id factory args trap groups children, s, ht, hs => by
    rcases allocate_inv code parent (.mk id factory args trap groups children) s ht with
      ⟨e, u, hplace, hu⟩ | ⟨a, hmake, hroot, hnone, hof, hbuilt, hgranted, hrefused⟩
    · rw [hu]
      exact ⟨fun a ha => absurd ha (by simp), fun _ _ => ⟨[], [], .unplaced hplace, .refl _⟩⟩
    have hbelow := Address.isBelow_of_make hmake
    let x := Template.site code a (.mk id factory args trap groups children) s.world
    obtain ⟨hall, hfail⟩ := allocateAll_attempt code a children (x.plant code s) hbuilt
      (x.plant_neat code hs)
    have hinv := TableInv.upkeep (allocateAll_upkeep code a children _ hbuilt) hbuilt
    cases hchildren : allocateAll code a children (x.plant code s) with
    | mk failed u =>
    rw [hchildren] at hall hfail hinv
    cases failed with
    | some e =>
      rw [hrefused e u hchildren]
      refine ⟨fun b hb => absurd hb (by simp), fun _ _ => ?_⟩
      obtain ⟨xs, gone, hattempt⟩ := hfail e rfl
      obtain ⟨gone', hback, hperm⟩ := hattempt.takeBack (x := x) hnone hroot ht hs hbelow hof hinv
      rw [Template.nodes]
      exact ⟨x :: xs, gone', hback, hperm⟩
    | none =>
      rw [hgranted u hchildren]
      refine ⟨fun b hb => ?_, fun e he => absurd he (by simp)⟩
      obtain ⟨xs, hplan, hfree, hleft⟩ := hall rfl
      obtain rfl := Except.ok.inj hb
      refine ⟨x :: xs, rfl, List.forall_mem_cons.mpr ⟨.refl a, fun y hy =>
        Or.inr (hfree.below y hy)⟩, ?_, hfree.cons (x := x) hnone hbelow, hleft⟩
      have hmake' : Address.make parent (code.name id s.world).1 = .ok a := hmake
      have hworld : (x.plant code s).world = (x.begun code).2 := rfl
      rw [hworld] at hplan
      rw [Template.plan, hmake']
      dsimp only
      rw [hplan]
      rfl

theorem allocateAll_attempt (code : Code κ) (parent : Address) : ∀ (ts : List (Template κ))
    (s : Stage κ), s.platform.TableInv → s.platform.Neat →
      ((allocateAll code parent ts s).1 = none → ∃ xs,
        Planted code parent (Template.planAll code parent ts s.world) s
          (allocateAll code parent ts s).2 xs) ∧
      (∀ e, (allocateAll code parent ts s).1 = some e → ∃ xs gone,
        Attempt code parent (Template.nodesAll ts) s (allocateAll code parent ts s).2 xs gone)
  | [], s, _, _ => by
    rw [allocateAll, Template.planAll]
    exact ⟨fun _ => ⟨[], rfl, .nil parent s, rfl⟩, fun e he => absurd he (by simp)⟩
  | t :: ts, s, ht, hs => by
    obtain ⟨hok, hfail⟩ := allocate_attempt code parent t s ht hs
    have hinv := TableInv.upkeep (allocate_upkeep code parent t s ht) ht
    rw [allocateAll, Template.planAll, Template.nodesAll]
    cases hfirst : allocate code parent t s with
    | mk r s₁ =>
    rw [hfirst] at hok hfail hinv
    cases r with
    | error e =>
      refine ⟨fun hnone => absurd hnone (by simp), fun _ _ => ?_⟩
      obtain ⟨xs, gone, hattempt, -⟩ := hfail e rfl
      exact ⟨xs, gone, hattempt.before _⟩
    | ok a =>
      obtain ⟨xs, -, -, hplan, hfree, hleft⟩ := hok a rfl
      dsimp only at hplan hleft ⊢
      subst hleft
      obtain ⟨hall, hfail'⟩ := allocateAll_attempt code parent ts _ hinv (plantAll_neat code xs hs)
      refine ⟨fun hnone => ?_, fun e he => ?_⟩
      · obtain ⟨ys, hplan', hfree', hleft'⟩ := hall hnone
        refine ⟨xs ++ ys, ?_, hfree.append hfree', hleft'.trans plantAll_append.symm⟩
        rw [hplan, Option.bind_some, hplan']
        rfl
      · obtain ⟨ys, gone, hattempt⟩ := hfail' e he
        exact ⟨xs ++ ys, gone, hattempt.after hfree (t.plan_nodes code parent _ _ xs hplan)⟩

end

/-! ## Taken back is not undone -/

theorem exists_context_plantAll (code : Code κ) (s : Stage κ)
    (hapart : (xs.map Site.address).Nodup) {x : Site κ} (hx : x ∈ xs) :
    ∃ generation maxFrames, (s.plantAll code xs).platform.context? x.address =
      some (x.context code generation maxFrames) := by
  obtain ⟨i, hi, rfl⟩ := List.mem_iff_getElem.mp hx
  exact ⟨_, _, context?_plantAll hapart hi⟩

/-- **Each actor that was built gets its last call** (`Code.stop`), in the order in which they are
removed. -/
theorem Attempt.world_eq (h : Attempt code parent nodes s u xs gone) (hs : s.platform.Neat)
    (hperm : gone.Perm (xs.map Site.address)) : ∃ id ys, List.Perm ys xs ∧ u.world =
      ys.foldl (fun w y => code.stop (y.built code).1 w)
        (code.name id (s.plantAll code xs).world).2 := by
  obtain ⟨id, hleft⟩ := h.left
  have hplanted := plantAll_neat code xs hs
  -- the sites in the order of the removals
  obtain ⟨ys, hys, hyx⟩ := List.perm_comp_forall₂ (r := fun a (x : Site κ) => a = x.address) hperm
    (List.forall₂_map_left_iff.mpr (List.forall₂_same.mpr fun _ _ => rfl))
  have hgone : gone = ys.map Site.address := by
    rw [← List.forall₂_eq_eq_eq]
    exact List.forall₂_map_right_iff.mpr hys
  have hremoved := removeAll_eq code gone ({ s.plantAll code xs with
    world := (code.name id (s.plantAll code xs).world).2 } : Stage κ) hplanted h.distinct
    fun a ha => isLive_plantAll.mpr (Or.inl (h.built a ha))
  refine ⟨id, ys, hyx, ?_⟩
  rw [hleft, hremoved]
  dsimp only
  rw [hgone, List.foldl_map]
  refine List.foldl_ext _ _ _ fun w y hy => ?_
  obtain ⟨g, n, hc⟩ := exists_context_plantAll code s h.free.apart (hyx.subset hy)
  unfold farewell
  rw [hc]
  rfl

/-- Groups are told apart by their members, as none is empty. -/
theorem groups_eq_of_members {p q : Platform κ} (hp : p.Neat) (hq : q.Neat)
    (h : ∀ group a, a ∈ q.members group ↔ a ∈ p.members group) : q.groups = p.groups := by
  have someone {p : Platform κ} (hp : p.Neat) {group : String} {set : AddressSet}
      (hset : p.groups.get? group = some set) : ∃ a, a ∈ p.members group := by
    obtain ⟨a, ha⟩ := Table.exists_contains (hp.inhabited group set hset)
    exact ⟨a, mem_members_iff.mpr ⟨set, hset, ha⟩⟩
  have nobody {p : Platform κ} {group : String} (hnone : p.groups.get? group = none) (a : Address) :
      a ∉ p.members group := by
    rw [mem_members_iff, hnone]
    simp
  refine Table.ext_get? fun group => ?_
  cases hpset : p.groups.get? group with
  | none =>
    cases hqset : q.groups.get? group with
    | none => rfl
    | some set =>
      obtain ⟨a, ha⟩ := someone hq hqset
      exact absurd ((h group a).mp ha) (nobody hpset a)
  | some old =>
    cases hqset : q.groups.get? group with
    | none =>
      obtain ⟨a, ha⟩ := someone hp hpset
      exact absurd ((h group a).mpr ha) (nobody hqset a)
    | some set =>
      have hset (a : Address) : set.contains a = true ↔ old.contains a = true := by
        have ha := h group a
        rw [mem_members_iff, mem_members_iff, hpset, hqset] at ha
        simpa only [Option.some.injEq, exists_eq_left'] using ha
      refine congrArg some (Table.ext_get? fun a => ?_)
      have ha := hset a
      rw [Table.contains_eq, Table.contains_eq] at ha
      cases hs : set.get? a <;> cases ho : old.get? a <;> simp_all

/-- Nothing is scheduled (`Platform.pending`) where nobody lives. -/
theorem pending_of_vacant {p : Platform κ} (h : p.QueueInv) (ha : p.context? a = none) :
    p.pending.get? a = none := by
  cases hslots : p.pending.get? a with
  | none => rfl
  | some slots =>
    obtain ⟨slot, rest, rfl⟩ := List.exists_cons_of_ne_nil (h.filled a slots hslots)
    obtain ⟨c, hc, -⟩ := isCurrent_iff.mp (h.current a _ hslots slot List.mem_cons_self)
    exact absurd (ha.symm.trans hc) (by simp)

section Traces

variable (h : Attempt code parent nodes s u xs gone) (hperm : gone.Perm (xs.map Site.address))

include h hperm

/-- Nobody lived where actors were built and removed again. -/
theorem Attempt.vacant {k : Address} (hk : k ∈ gone) : s.platform.context? k = none := by
  obtain ⟨x, hx, rfl⟩ := List.mem_map.mp (hperm.mem_iff.mp hk)
  exact h.free.vacant x hx

variable (hi : s.platform.Inv)

include hi

/-- Who lives where is as it was (`Platform.contexts`). -/
theorem Attempt.kept_contexts : u.platform.contexts = s.platform.contexts := by
  refine Table.ext_get? fun k => ?_
  change u.platform.context? k = s.platform.context? k
  rw [h.platform hi.neat, context?_without]
  split
  · rename_i hk
    exact (h.vacant hperm hk).symm
  · rename_i hk
    exact context?_plantAll_of_notMem fun x hx he =>
      hk (hperm.mem_iff.mpr (List.mem_map.mpr ⟨x, hx, he⟩))

/-- Everybody is in the groups where they were (`Platform.groups`). -/
theorem Attempt.kept_groups : u.platform.groups = s.platform.groups := by
  have hu := h.platform hi.neat
  refine groups_eq_of_members hi.neat (hu ▸ (plantAll_neat code xs hi.neat).without gone)
    fun group a => ?_
  rw [hu, mem_members_without, mem_members_plantAll]
  refine ⟨fun ⟨hk, hin⟩ => hin.resolve_right ?_, fun hin => ⟨fun hk => ?_, Or.inl hin⟩⟩
  · rintro ⟨x, hx, hxa, -⟩
    exact hk (hperm.mem_iff.mpr (List.mem_map.mpr ⟨x, hx, hxa⟩))
  · obtain ⟨c, hc⟩ := Platform.isLive_iff.mp (hi.table.isLive_of_mem_members hin)
    exact absurd ((h.vacant hperm hk).symm.trans hc) (by simp)

/-- The slots are those that there were (`Platform.pending`). -/
theorem Attempt.kept_pending : u.platform.pending = s.platform.pending := by
  obtain ⟨_, _, _, _, hplanted, -⟩ := plantAll_eq code xs s
  rw [h.platform hi.neat, hplanted]
  show (s.platform.pending.retain fun k _ => k ∉ gone) = _
  refine Table.retain_eq_self fun k slots hk => decide_eq_true fun hin => ?_
  have hnone := pending_of_vacant hi.queues (h.vacant hperm hin)
  exact absurd (hnone.symm.trans hk) (by simp)

/-- The outcomes of tasks are those that there were (`Platform.entries`). -/
theorem Attempt.kept_entries (hclaimed : s.platform.Claimed) :
    u.platform.entries = s.platform.entries := by
  obtain ⟨_, _, _, _, hplanted, -⟩ := plantAll_eq code xs s
  rw [h.platform hi.neat, hplanted]
  show (s.platform.entries.retain fun _ e => e.owner ∉ gone ∨ e.outcome = none) = _
  refine Table.retain_eq_self fun id e hid => decide_eq_true ?_
  by_cases ho : e.outcome = none
  · exact Or.inr ho
  · refine Or.inl fun hk => ?_
    obtain ⟨c, hc⟩ := Platform.isLive_iff.mp (hclaimed id e hid ho)
    exact absurd ((h.vacant hperm hk).symm.trans hc) (by simp)

/-- **What was taken back leaves its traces**: the routes to and through the addresses are gone
(`Platform.routes`), and so is what they were blocked by. -/
theorem Attempt.platform_eq (hclaimed : s.platform.Claimed) : ∃ bus, u.platform =
    { s.platform with
      routes := s.platform.routes.retain fun target router =>
        target ∉ xs.map Site.address ∧ router ∉ xs.map Site.address
      blocked := s.platform.blocked.retain fun k _ => k ∉ xs.map Site.address
      waitQueue := s.platform.waitQueue.filter (· ∉ xs.map Site.address)
      queued := s.platform.queued.retain fun k _ =>
        k ∉ xs.map Site.address ∨ k ∉ s.platform.waitQueue
      nextGeneration := s.platform.nextGeneration + xs.length
      bus } ∧
    s.platform.bus.Grown (fun e => e.IsArrival ∨ e.kind = .actorRemoved) bus := by
  have hu := h.platform hi.neat
  obtain ⟨_, _, bus, _, hplanted, hgrown⟩ := plantAll_eq code xs s
  refine ⟨u.platform.bus, ?_, ?_⟩
  · have hleft : u.platform =
        { s.platform.without gone with
          contexts := u.platform.contexts
          groups := u.platform.groups
          pending := u.platform.pending
          entries := u.platform.entries
          nextGeneration := s.platform.nextGeneration + xs.length
          bus := u.platform.bus } := by
      rw [hu, hplanted]
      rfl
    rw [h.kept_contexts hperm hi, h.kept_groups hperm hi, h.kept_pending hperm hi,
      h.kept_entries hperm hi hclaimed,
      without_congr s.platform fun k => hperm.mem_iff] at hleft
    exact hleft
  · rw [hu, hplanted]
    refine (hgrown.mono fun _ he => Or.inl he).trans (.publishAll _ fun e he => Or.inr ?_)
    obtain ⟨k, -, rfl⟩ := List.mem_map.mp he
    rfl

end Traces

/-- What is kept of the waiting of some addresses, if none of them waits (`Platform.isBlocked`). -/
theorem waiting_of_unblocked {p : Platform κ} (h : p.QueueInv) {as : List Address}
    (hfree : ∀ a ∈ as, p.isBlocked a = false) :
    (p.blocked.retain fun k _ => k ∉ as) = p.blocked ∧
      p.waitQueue.filter (· ∉ as) = p.waitQueue ∧
      (p.queued.retain fun k _ => k ∉ as ∨ k ∉ p.waitQueue) = p.queued := by
  have hwaits (k : Address) (hk : k ∈ p.waitQueue) : k ∉ as := fun hin =>
    absurd ((hfree k hin).symm.trans (h.parked k hk)) (by simp)
  refine ⟨Table.retain_eq_self fun k ids hk => decide_eq_true fun hin => ?_,
    List.filter_eq_self.mpr fun k hk => decide_eq_true (hwaits k hk),
    Table.retain_eq_self fun k _ _ => decide_eq_true ?_⟩
  · have hblocked : p.isBlocked k = true := by
      unfold isBlocked
      rw [Table.contains_eq, hk]
      rfl
    exact absurd ((hfree k hin).symm.trans hblocked) (by simp)
  · by_cases hk : k ∈ p.waitQueue
    · exact Or.inl (hwaits k hk)
    · exact Or.inr hk

end Stage
end Troupe
