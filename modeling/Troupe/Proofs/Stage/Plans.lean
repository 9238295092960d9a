import Mathlib.Data.List.Forall2
import Troupe.Proofs.Watch.Moves

/-!
# Plans for allocating actors

What allocating comes to can be said beforehand: which actors are built from a template, where, and
in which order (`Template.plan`), one for each node of the template (`Template.nodes`). A `Site` is
an actor to be built, with the state of the application from which it is; `Site.built`, `Site.begun`
and `Site.context` are what comes of that. If the places are free, allocating does nothing but build
an actor at each site, one after the other (`Stage.plantAll`), so it cannot fail.

What building an actor at a site does to a platform is said once (`Site.plant_eq`) and carried over
to all sites: who lives there (`Stage.context?_plantAll`), which groups they are in
(`Stage.mem_members_plantAll`), and that nothing else changes.

Headlines:
* **`Template.plan_nodes`**: a plan has one site for each node of the template, in order.
* **`Stage.allocate_of_plan`**: allocating goes by the plan if there is one and its sites are free.
* **`Stage.plantAll_eq`**: building actors changes who lives where, the groups, the bus, and the
  next generation.
-/

namespace Troupe

variable {κ : App}

open Platform

/-- Whether an event tells that an actor was allocated or joined a group
(`EventKind.actorAllocated`, `EventKind.memberAdded`). -/
def Event.IsArrival (e : Event) : Prop :=
  e.kind = .actorAllocated ∨ e.kind = .memberAdded

/-! ## Sites -/

/-- An actor to be built: where, from which template, and from which state of the application. -/
structure Site (κ : App) where
  address : Address
  template : Template κ
  world : κ.World

namespace Site

variable (code : Code κ) (x : Site κ)

/-- The actor that is built (`Code.build`), and the state of the application after that. -/
def built : κ.Actor × κ.World :=
  code.build x.template.factory x.template.args x.world

/-- The behaviour that the actor begins with (`Code.init`), and the state of the application after
that. -/
def begun : Behaviour × κ.World :=
  code.init (x.built code).1 (x.built code).2

/-- The context that the actor gets (`Context.new`). -/
def context (generation maxFrames : Nat) : Context κ :=
  .new x.address generation maxFrames (x.built code).1 (x.begun code).1 x.template

/-- The stage when the actor has been built (`Stage.install`). -/
def plant (s : Stage κ) : Stage κ :=
  { s with world := x.world }.install code x.address x.template

variable {code} {x} {s : Stage κ} {a : Address}

/-- Building an actor (`plant`) enrols it, lets it join its groups and tells of both. -/
theorem plant_eq (code : Code κ) (x : Site κ) (s : Stage κ) : ∃ groups bus, x.plant code s =
    { s with
      platform := { s.platform.enrol x.address (x.built code).1 (x.begun code).1 x.template with
        groups, bus }
      world := (x.begun code).2 } ∧ s.platform.bus.Grown Event.IsArrival bus := by
  obtain ⟨groups, bus, h, hgrown⟩ := Stage.install_eq code x.address x.template
    { s with world := x.world }
  refine ⟨groups, bus, h, ?_⟩
  have htold : s.platform.bus.Grown Event.IsArrival
      (s.platform.bus.publish (.about .actorAllocated x.address)) := .publish _ (Or.inl rfl)
  exact htold.trans (hgrown.mono fun _ he => Or.inr he)

theorem context?_plant : (x.plant code s).platform.context? a =
    if a = x.address then some (x.context code s.platform.nextGeneration
      s.platform.config.frameLimit) else s.platform.context? a :=
  Stage.context?_install code x.address x.template { s with world := x.world }

theorem nextGeneration_plant :
    (x.plant code s).platform.nextGeneration = s.platform.nextGeneration + 1 :=
  Stage.nextGeneration_install code x.address x.template { s with world := x.world }

theorem isLive_plant : (x.plant code s).platform.isLive a = true ↔
    x.address = a ∨ s.platform.isLive a = true := by
  rw [isLive_iff, isLive_iff, context?_plant]
  by_cases h : a = x.address
  · simp [h]
  · simp [h, Ne.symm h]

/-- Whoever is built (`plant`) is in the groups of its template, and otherwise everybody is where
they were. -/
theorem mem_members_plant {group : String} : a ∈ (x.plant code s).platform.members group ↔
    a ∈ s.platform.members group ∨ (x.address = a ∧ group ∈ x.template.groups) := by
  have joined (groups : List String) (p : Platform κ) (hlive : p.isLive x.address = true) :
      a ∈ (groups.foldl (fun p g => (p.putMember g x.address).2) p).members group ↔
        a ∈ p.members group ∨ (x.address = a ∧ group ∈ groups) := by
    induction groups generalizing p with
    | nil => simp
    | cons g groups ih =>
      have hstays : (p.putMember g x.address).2.isLive x.address = true := by
        rw [isLive_iff, context?_putMember]
        exact isLive_iff.mp hlive
      rw [List.foldl_cons, ih _ hstays, mem_members_putMember hlive, List.mem_cons, or_assoc]
      refine or_congr_right ?_
      rw [and_or_left, eq_comm (a := a)]
  refine joined x.template.groups (s.platform.enrol x.address (x.built code).1 (x.begun code).1
    x.template) (isLive_iff.mpr ⟨_, context?_enrol_eq_some.mpr (Or.inl ⟨rfl, rfl⟩)⟩)

end Site

/-- The stage when actors have been built at these sites (`Site.plant`), in order. -/
def Stage.plantAll (code : Code κ) (xs : List (Site κ)) (s : Stage κ) : Stage κ :=
  xs.foldl (fun s x => x.plant code s) s

/-! ## Plans -/

/-- The identifier of an actor, a fresh one if none is given (`Code.freshId`). -/
def Code.name (code : Code κ) (id : Option String) (w : κ.World) : String × κ.World :=
  match id with
  | some id => (id, w)
  | none => code.freshId w

/-- The site of an actor at an address. Its template has its identifier from then on
(`Template.withId`). -/
def Template.site (code : Code κ) (a : Address) (t : Template κ) (w : κ.World) : Site κ :=
  ⟨a, t.withId (code.name t.id w).1, (code.name t.id w).2⟩

mutual

/-- The sites of an actor and those below it under `parent`, each before those below it, and the
state of the application when all have been built. There is no plan if an identifier is flawed. -/
def Template.plan (code : Code κ) (parent : Address) :
    Template κ → κ.World → Option (List (Site κ) × κ.World)
  | .mk id factory args trap groups children, w =>
    match Address.make parent (code.name id w).1 with
    | .error _ => none
    | .ok a =>
      let x := Template.site code a (.mk id factory args trap groups children) w
      (Template.planAll code a children (x.begun code).2).map fun y => (x :: y.1, y.2)

/-- The sites of several actors and those below them under `parent`. -/
def Template.planAll (code : Code κ) (parent : Address) :
    List (Template κ) → κ.World → Option (List (Site κ) × κ.World)
  | [], w => some ([], w)
  | t :: ts, w =>
    (Template.plan code parent t w).bind fun y =>
      (Template.planAll code parent ts y.2).map fun z => (y.1 ++ z.1, z.2)

end

/-- A site is for an actor of a template, by the identifier of its address (`Template.withId`). -/
def Site.IsOf (x : Site κ) (t : Template κ) : Prop :=
  x.template = t.withId x.address.id

mutual

/-- The templates of an actor and those below it, each before those below it. -/
def Template.nodes : Template κ → List (Template κ)
  | .mk id factory args trap groups children =>
    .mk id factory args trap groups children :: Template.nodesAll children

/-- The templates of several actors and those below them (`Template.nodes`). -/
def Template.nodesAll : List (Template κ) → List (Template κ)
  | [] => []
  | t :: ts => t.nodes ++ Template.nodesAll ts

end

mutual

/-- **A plan** (`Template.plan`) has one site for each node of the template, in order. -/
theorem Template.plan_nodes (code : Code κ) : ∀ (t : Template κ) (parent : Address) (w v : κ.World)
    (xs : List (Site κ)), t.plan code parent w = some (xs, v) →
      List.Forall₂ Site.IsOf xs t.nodes
  | .mk id factory args trap groups children, parent, w, v, xs, hplan => by
    rw [plan] at hplan
    split at hplan
    · exact absurd hplan (by simp)
    · rename_i a hmake
      obtain ⟨-, -, -, hid⟩ := Address.of_make hmake
      obtain ⟨⟨ys, u⟩, hys, hxs⟩ := Option.map_eq_some_iff.mp hplan
      obtain ⟨rfl, rfl⟩ := Prod.mk.inj hxs
      rw [nodes]
      refine .cons ?_ (planAll_nodes code children a _ _ _ hys)
      show Template.withId _ _ = Template.withId _ a.id
      rw [hid]
      rfl

theorem Template.planAll_nodes (code : Code κ) : ∀ (ts : List (Template κ)) (parent : Address)
    (w v : κ.World) (xs : List (Site κ)), planAll code parent ts w = some (xs, v) →
      List.Forall₂ Site.IsOf xs (nodesAll ts)
  | [], _, w, v, xs, hplan => by
    rw [planAll] at hplan
    obtain ⟨rfl, -⟩ := Prod.mk.inj (Option.some.inj hplan)
    rw [nodesAll]
    exact .nil
  | t :: ts, parent, w, v, xs, hplan => by
    rw [planAll] at hplan
    obtain ⟨⟨ys, u⟩, hys, hrest⟩ := Option.bind_eq_some_iff.mp hplan
    obtain ⟨⟨zs, v'⟩, hzs, hxs⟩ := Option.map_eq_some_iff.mp hrest
    obtain ⟨rfl, -⟩ := Prod.mk.inj hxs
    rw [nodesAll]
    exact List.rel_append (plan_nodes code t parent w u ys hys)
      (planAll_nodes code ts parent u v' zs hzs)

end

namespace Stage

variable {code : Code κ} {s t : Stage κ} {a b parent : Address} {xs ys : List (Site κ)} {x : Site κ}

/-! ## Planting -/

theorem plantAll_append : s.plantAll code (xs ++ ys) = (s.plantAll code xs).plantAll code ys :=
  List.foldl_append

/-- Whoever is not at one of the sites is left alone (`plantAll`). -/
theorem context?_plantAll_of_notMem (ha : ∀ x ∈ xs, x.address ≠ a) :
    (s.plantAll code xs).platform.context? a = s.platform.context? a := by
  induction xs generalizing s with
  | nil => rfl
  | cons x xs ih =>
    refine (ih (s := x.plant code s) fun y hy => ha y (List.mem_cons_of_mem x hy)).trans ?_
    rw [Site.context?_plant, if_neg fun he => ha x List.mem_cons_self he.symm]

theorem isLive_plantAll : (s.plantAll code xs).platform.isLive a = true ↔
    (∃ x ∈ xs, x.address = a) ∨ s.platform.isLive a = true := by
  induction xs generalizing s with
  | nil => simp [plantAll]
  | cons x xs ih =>
    refine (ih (s := x.plant code s)).trans ?_
    rw [Site.isLive_plant, List.exists_mem_cons_iff]
    simp only [or_assoc, or_left_comm]

theorem contains_plantAll (h : s.platform.contains a = true) :
    (s.plantAll code xs).platform.contains a = true := by
  unfold contains at h ⊢
  rw [Bool.or_eq_true] at h ⊢
  exact h.imp_right fun h => isLive_plantAll.mpr (Or.inr h)

/-- Who was built (`plantAll`) is in the groups of the templates, and otherwise everybody is where
they were. -/
theorem mem_members_plantAll {group : String} :
    a ∈ (s.plantAll code xs).platform.members group ↔ a ∈ s.platform.members group ∨
      ∃ x ∈ xs, x.address = a ∧ group ∈ x.template.groups := by
  induction xs generalizing s with
  | nil => simp [plantAll]
  | cons x xs ih =>
    refine (ih (s := x.plant code s)).trans ?_
    rw [Site.mem_members_plant, List.exists_mem_cons_iff, or_assoc]

/-- **Building actors** (`plantAll`) changes who lives where, the groups, the bus, and the next
generation. -/
theorem plantAll_eq (code : Code κ) (xs : List (Site κ)) (s : Stage κ) :
    ∃ contexts groups bus world, s.plantAll code xs =
      { s with
        platform := { s.platform with
          contexts, groups, bus, nextGeneration := s.platform.nextGeneration + xs.length }
        world } ∧ s.platform.bus.Grown Event.IsArrival bus := by
  induction xs generalizing s with
  | nil => exact ⟨_, _, _, _, rfl, .refl _⟩
  | cons x xs ih =>
    obtain ⟨groups, bus, hx, hgrown⟩ := x.plant_eq code s
    obtain ⟨contexts, groups', bus', world, hxs, hgrown'⟩ := ih (x.plant code s)
    refine ⟨contexts, groups', bus', world, hxs.trans ?_, ?_⟩
    · rw [hx, List.length_cons, Nat.add_comm xs.length, ← Nat.add_assoc]
      rfl
    · rw [hx] at hgrown'
      exact hgrown.trans hgrown'

/-- **Who was built** (`plantAll`) lives at its site, and generations go by the order of the sites.
-/
theorem context?_plantAll (hapart : (xs.map Site.address).Nodup) {i : Nat} (hi : i < xs.length) :
    (s.plantAll code xs).platform.context? xs[i].address =
      some (xs[i].context code (s.platform.nextGeneration + i) s.platform.config.frameLimit) := by
  induction xs generalizing s i with
  | nil => exact absurd hi (Nat.not_lt_zero i)
  | cons x xs ih =>
    obtain ⟨hx, hxs⟩ := List.nodup_cons.mp hapart
    cases i with
    | zero =>
      refine (context?_plantAll_of_notMem (s := x.plant code s) fun y hy he => hx ?_).trans ?_
      · exact List.mem_map.mpr ⟨y, hy, he⟩
      · exact Site.context?_plant.trans (if_pos rfl)
    | succ i =>
      refine (ih (s := x.plant code s) hxs (Nat.lt_of_succ_lt_succ hi)).trans ?_
      obtain ⟨_, _, heq, -⟩ := x.plant_eq code s
      rw [Site.nextGeneration_plant, heq, Nat.add_assoc, Nat.add_comm 1]
      rfl

/-! ## Allocating goes by the plan -/

/-- A place is found (`place`) if the identifier is flawless and nobody lives there. -/
theorem place_of_make {id : Option String} (hparent : s.platform.contains parent = true)
    (hmake : Address.make parent (code.name id s.world).1 = .ok a)
    (hfree : s.platform.context? a = none) : s.place code parent id =
      (.ok ((code.name id s.world).1, a), { s with world := (code.name id s.world).2 }) := by
  have hlive : ¬ s.platform.isLive a = true := by
    rw [isLive_iff]
    rintro ⟨c, hc⟩
    exact absurd (hfree.symm.trans hc) (by simp)
  unfold place Code.name at *
  rw [hparent, if_neg (by simp)]
  cases id with
  | some id =>
    dsimp only at hmake ⊢
    rw [hmake]
    dsimp only
    rw [if_neg hlive]
  | none =>
    dsimp only at hmake ⊢
    rw [hmake]
    dsimp only
    rw [if_neg hlive]

/-- A place that is found (`place`) is the one that the identifier names. -/
theorem make_of_place {id : Option String} {text : String}
    (h : s.place code parent id = (.ok (text, a), t)) :
    text = (code.name id s.world).1 ∧ Address.make parent text = .ok a ∧
      t = { s with world := (code.name id s.world).2 } := by
  unfold place at h
  split at h
  · exact absurd h (by simp)
  · dsimp only at h
    split at h
    · exact absurd h (by simp)
    · rename_i b hmake
      split at h
      · exact absurd h (by simp)
      · obtain ⟨hplace, rfl⟩ := Prod.mk.inj h
        obtain ⟨rfl, rfl⟩ := Prod.mk.inj (Except.ok.inj hplace)
        exact ⟨rfl, hmake, rfl⟩

mutual

/-- **Allocating goes by the plan** (`Template.plan`) if there is one and its sites are free. -/
theorem allocate_of_plan (code : Code κ) (parent : Address) : ∀ (t : Template κ) (s : Stage κ)
    (xs : List (Site κ)) (w : κ.World), t.plan code parent s.world = some (xs, w) →
      s.platform.contains parent = true → (xs.map Site.address).Nodup →
      (∀ x ∈ xs, s.platform.context? x.address = none) →
      ∃ a, xs.head?.map Site.address = some a ∧
        allocate code parent t s = (.ok a, s.plantAll code xs) ∧ (s.plantAll code xs).world = w
  | .mk id factory args trap groups children, s, xs, w, hplan, hparent, hapart, hfree => by
    rw [Template.plan] at hplan
    split at hplan
    · exact absurd hplan (by simp)
    · rename_i a hmake
      obtain ⟨⟨ys, v⟩, hys, hxs⟩ := Option.map_eq_some_iff.mp hplan
      obtain ⟨rfl, rfl⟩ := Prod.mk.inj hxs
      obtain ⟨ha, hapart⟩ := List.nodup_cons.mp hapart
      have hbelow := allocateAll_of_plan code a children (Site.plant code _ s) ys v hys
        (contains_iff.mpr (Or.inr ⟨_, Site.context?_plant.trans (if_pos rfl)⟩)) hapart
        fun y hy => ?_
      · obtain ⟨hall, hworld⟩ := hbelow
        refine ⟨a, rfl, ?_, hworld⟩
        rw [allocate, place_of_make hparent hmake (hfree _ List.mem_cons_self)]
        have hinstalled : allocateAll code a children
            (install code a (.mk (some (code.name id s.world).1) factory args trap groups children)
              { s with world := (code.name id s.world).2 }) = _ := hall
        dsimp only
        rw [hinstalled]
        rfl
      · rw [Site.context?_plant, if_neg, hfree y (List.mem_cons_of_mem _ hy)]
        exact fun he => ha (List.mem_map.mpr ⟨y, hy, he⟩)

theorem allocateAll_of_plan (code : Code κ) (parent : Address) : ∀ (ts : List (Template κ))
    (s : Stage κ) (xs : List (Site κ)) (w : κ.World),
      Template.planAll code parent ts s.world = some (xs, w) →
      s.platform.contains parent = true → (xs.map Site.address).Nodup →
      (∀ x ∈ xs, s.platform.context? x.address = none) →
      allocateAll code parent ts s = (none, s.plantAll code xs) ∧ (s.plantAll code xs).world = w
  | [], s, xs, w, hplan, _, _, _ => by
    rw [Template.planAll] at hplan
    obtain ⟨rfl, rfl⟩ := Prod.mk.inj (Option.some.inj hplan)
    rw [allocateAll]
    exact ⟨rfl, rfl⟩
  | t :: ts, s, xs, w, hplan, hparent, hapart, hfree => by
    rw [Template.planAll] at hplan
    obtain ⟨⟨ys, v⟩, hys, hrest⟩ := Option.bind_eq_some_iff.mp hplan
    obtain ⟨⟨zs, u⟩, hzs, hxs⟩ := Option.map_eq_some_iff.mp hrest
    obtain ⟨rfl, rfl⟩ := Prod.mk.inj hxs
    rw [List.map_append] at hapart
    obtain ⟨hys', hzs', hdisjoint⟩ := List.nodup_append.mp hapart
    obtain ⟨a, -, hfirst, hv⟩ := allocate_of_plan code parent t s ys v hys hparent hys'
      fun y hy => hfree y (List.mem_append_left zs hy)
    have hothers := allocateAll_of_plan code parent ts (s.plantAll code ys) zs u (hv.symm ▸ hzs)
      ?_ hzs' fun z hz => ?_
    · rw [allocateAll, hfirst]
      rw [plantAll_append]
      exact hothers
    · exact contains_plantAll hparent
    · rw [context?_plantAll_of_notMem fun y hy => ?_]
      · exact hfree z (List.mem_append_right ys hz)
      · exact hdisjoint _ (List.mem_map_of_mem hy) _ (List.mem_map_of_mem hz)

end

end Stage

end Troupe
