import Troupe.Proofs.Guarantee.Restarts
import Troupe.Proofs.Stage.Faults

/-!
# When and what is allocated

Whether a template can be allocated (`Stage.allocate`, the source's `alloc_actor`) is decided by
names: there must be a place for the actor, and the identifiers given in its template must be sound.
Otherwise the answer is the first fault that is met on the way down the tree. If it can be, then one
actor is built for each node of the template, at the address that the names spell, in order; each is
announced with its groups before the next is built (`Site.announcements`). Nobody else notices, and
no code of an actor runs but what builds it: codes that build and end actors alike (`SameLives`)
allocate alike.

`Populated` says what an allocation that succeeds makes of a stage; it is read off `Planted`
(`Planted.populated`), which follows `Site.plant` from node to node.

Headlines:
* **`Moment.allocation_decided`**: when and what is allocated, and what is answered otherwise.
* `Stage.bus_plantAll`: what is announced of a list of sites, and in which order.
-/

namespace Troupe

variable {κ : App}

open Platform

/-! ## What is told -/

/-- An actor joined a group (`EventKind.memberAdded`). -/
def Event.joined (a : Address) (group : String) : Event :=
  { kind := .memberAdded, address := some a, reason := some group }

/-- What is told of an actor that is allocated: that it was, and then of its groups
(`Event.joined`), each once. -/
def Site.announcements (x : Site κ) : List Event :=
  .about .actorAllocated x.address :: x.template.groups.eraseDups.map (.joined x.address)

namespace Platform

variable {p : Platform κ} {a : Address} {group : String}

theorem putMember_of_member (hl : p.isLive a = true) (h : a ∈ p.members group) :
    (p.putMember group a).2 = p := by
  obtain ⟨set, hset, hmem⟩ := mem_members_iff.mp h
  unfold putMember
  rw [hset, Option.getD_some]
  dsimp only
  rw [hl, hmem]
  rfl

theorem bus_putMember (hl : p.isLive a = true) (h : a ∉ p.members group) :
    (p.putMember group a).2.bus = p.bus.publish (.joined a group) := by
  have hnot : ((p.groups.get? group).getD ∅).contains a = false := by
    rw [← Bool.not_eq_true]
    intro hmem
    cases hset : p.groups.get? group with
    | none =>
      rw [hset] at hmem
      exact absurd hmem (by simp [EmptyCollection.emptyCollection])
    | some set =>
      rw [hset] at hmem
      exact h (mem_members_iff.mpr ⟨set, hset, hmem⟩)
  unfold putMember
  dsimp only
  rw [hl, hnot]
  rfl

/-- Joining groups one after another (`Platform.putMember`) is told for each that is new, once. -/
theorem bus_joinAll (groups : List String) : ∀ p : Platform κ, p.isLive a = true →
    (groups.foldl (fun p g => (p.putMember g a).2) p).bus = p.bus.publishAll
      (((groups.filter fun g => a ∉ p.members g).eraseDups).map (.joined a)) := by
  induction groups with
  | nil => exact fun _ _ => rfl
  | cons g groups ih =>
    intro p hl
    have hstays : (p.putMember g a).2.isLive a = true := by
      rw [isLive_iff, context?_putMember]
      exact isLive_iff.mp hl
    rw [List.foldl_cons, ih _ hstays]
    by_cases hmem : a ∈ p.members g
    · rw [putMember_of_member hl hmem, List.filter_cons_of_neg (by simpa using hmem)]
    · rw [List.filter_cons_of_pos (by simpa using hmem), List.eraseDups_cons, List.map_cons,
        bus_putMember hl hmem, List.filter_filter]
      have hrest : (groups.filter fun g' => a ∉ (p.putMember g a).2.members g') =
          groups.filter fun g' => (!g' == g) && decide (a ∉ p.members g') := by
        refine List.filter_congr fun g' _ => ?_
        rw [Bool.eq_iff_iff]
        simp [mem_members_putMember hl, not_or, and_comm]
      rw [hrest]
      rfl

end Platform

namespace Stage

variable {code : Code κ} {s : Stage κ} {parent : Address} {xs : List (Site κ)}

/-- A new actor (`Site.plant`) is announced with all its groups. -/
theorem bus_plant {x : Site κ} (h : ∀ group, x.address ∉ s.platform.members group) :
    (x.plant code s).platform.bus = s.platform.bus.publishAll x.announcements := by
  have hl : (s.platform.enrol x.address (x.built code).1 (x.begun code).1 x.template).isLive
      x.address = true := isLive_iff.mpr ⟨_, context?_enrol_eq_some.mpr (Or.inl ⟨rfl, rfl⟩)⟩
  have hall : (x.template.groups.filter fun g => x.address ∉ (s.platform.enrol x.address
      (x.built code).1 (x.begun code).1 x.template).members g) = x.template.groups :=
    List.filter_eq_self.mpr fun g _ => decide_eq_true (h g)
  have hjoined := bus_joinAll x.template.groups _ hl
  rw [hall] at hjoined
  exact hjoined

/-- **New actors are announced one after another**, each with all its groups (`Site.announcements`).
-/
theorem bus_plantAll (hapart : (xs.map Site.address).Nodup)
    (h : ∀ x ∈ xs, ∀ group, x.address ∉ s.platform.members group) :
    (s.plantAll code xs).platform.bus =
      s.platform.bus.publishAll (xs.flatMap Site.announcements) := by
  induction xs generalizing s with
  | nil => rfl
  | cons x xs ih =>
    obtain ⟨hx, hapart⟩ := List.nodup_cons.mp hapart
    have hothers (y : Site κ) (hy : y ∈ xs) (group : String) :
        y.address ∉ (x.plant code s).platform.members group := by
      rw [Site.mem_members_plant, not_or]
      refine ⟨h y (List.mem_cons_of_mem x hy) group, fun hself => hx ?_⟩
      exact hself.1 ▸ List.mem_map_of_mem hy
    refine (ih (s := x.plant code s) hapart hothers).trans ?_
    rw [bus_plant (h x List.mem_cons_self), List.flatMap_cons, Bus.publishAll_append]

/-! ## What is not asked -/

/-- Code that builds actors and ends them in the same way (`Code.build`, `Code.stop`). -/
structure SameLives (code code' : Code κ) : Prop where
  freshId : code'.freshId = code.freshId
  build : code'.build = code.build
  init : code'.init = code.init
  stop : code'.stop = code.stop

variable {code' : Code κ}

theorem SameLives.terminateWithin (h : SameLives code code') (n : Nat) : ∀ (a : Address)
    (s : Stage κ), terminateWithin code' n a s = terminateWithin code n a s := by
  induction n with
  | zero => exact fun _ _ => rfl
  | succ n ih =>
    intro a s
    have hfold : (fun s c => Stage.terminateWithin code' n c s) =
        fun s c => Stage.terminateWithin code n c s := by
      funext s c
      exact ih c s
    have hremove (s : Stage κ) : s.remove code' a = s.remove code a := by
      unfold remove
      rw [h.stop]
    rw [Stage.terminateWithin, Stage.terminateWithin, hfold]
    simp only [hremove]

theorem SameLives.place (h : SameLives code code') (parent : Address) (id : Option String)
    (s : Stage κ) : s.place code' parent id = s.place code parent id := by
  unfold Stage.place
  rw [h.freshId]

theorem SameLives.install (h : SameLives code code') (a : Address) (t : Template κ) (s : Stage κ) :
    s.install code' a t = s.install code a t := by
  unfold Stage.install
  rw [h.build, h.init]

mutual

/-- **Allocating runs no code of an actor** but what builds it, and what ends it if it cannot stay
(`SameLives`). -/
theorem SameLives.allocate (h : SameLives code code') (parent : Address) : ∀ (t : Template κ)
    (s : Stage κ), allocate code' parent t s = allocate code parent t s
  | .mk id factory args trap groups children, s => by
    rw [Stage.allocate, Stage.allocate, h.place]
    cases s.place code parent id with
    | mk placed s₀ =>
    cases placed with
    | error e => rfl
    | ok named =>
      dsimp only
      rw [h.install, SameLives.allocateAll h named.2 children]
      unfold terminate
      simp only [h.terminateWithin]

theorem SameLives.allocateAll (h : SameLives code code') (parent : Address) :
    ∀ (ts : List (Template κ)) (s : Stage κ),
      allocateAll code' parent ts s = allocateAll code parent ts s
  | [], s => by rw [Stage.allocateAll, Stage.allocateAll]
  | t :: ts, s => by
    rw [Stage.allocateAll, Stage.allocateAll, SameLives.allocate h parent t s]
    cases Stage.allocate code parent t s with
    | mk r s₁ =>
    cases r with
    | error e => rfl
    | ok a => exact SameLives.allocateAll h parent ts s₁

end

/-! ## What is there afterwards -/

/-- Actors were built at these sites, for a template under `parent`, and nothing else changed: one
for each node, at the address that the names spell, in order. -/
structure Populated (code : Code κ) (parent : Address) (t : Template κ) (s u : Stage κ)
    (xs : List (Site κ)) : Prop where
  nodes : List.Forall₂ Site.IsOf xs t.nodes
  paths : xs.map Site.address = (t.named code s.world).1.paths parent
  distinct : (xs.map Site.address).Nodup
  vacant : ∀ x ∈ xs, s.platform.context? x.address = none
  born : ∀ (i : Nat) (hi : i < xs.length), u.platform.context? xs[i].address =
    some (xs[i].context code (s.platform.nextGeneration + i) s.platform.config.frameLimit)
  others : ∀ a, (∀ x ∈ xs, x.address ≠ a) → u.platform.context? a = s.platform.context? a
  members : ∀ group a, a ∈ u.platform.members group ↔
    a ∈ s.platform.members group ∨ ∃ x ∈ xs, x.address = a ∧ group ∈ x.template.groups
  rest : ∃ contexts groups, u =
    { s with
      platform := { s.platform with
        contexts, groups
        nextGeneration := s.platform.nextGeneration + xs.length
        bus := s.platform.bus.publishAll (xs.flatMap Site.announcements) }
      world := (t.named code s.world).2 }

theorem Planted.populated {t : Template κ} {u : Stage κ}
    (h : Planted code parent (t.plan code parent s.world) s u xs) (ht : s.platform.TableInv) :
    Populated code parent t s u xs := by
  obtain ⟨hplan, hfree, rfl⟩ := h
  obtain ⟨hpaths, hworld⟩ := t.plan_paths code parent _ _ xs hplan
  have hnobody (x : Site κ) (hx : x ∈ xs) (group : String) :
      x.address ∉ s.platform.members group := fun hin => by
    obtain ⟨c, hc⟩ := isLive_iff.mp (ht.isLive_of_mem_members hin)
    exact absurd ((hfree.vacant x hx).symm.trans hc) (by simp)
  refine ⟨t.plan_nodes code parent _ _ xs hplan, hpaths, hfree.apart, hfree.vacant,
    fun i hi => context?_plantAll hfree.apart hi, fun a ha => context?_plantAll_of_notMem ha,
    fun group a => mem_members_plantAll, ?_⟩
  obtain ⟨contexts, groups, bus, world, hu, -⟩ := plantAll_eq code xs s
  refine ⟨contexts, groups, ?_⟩
  rw [← hworld, ← bus_plantAll hfree.apart hnobody, hu]

end Stage

namespace Moment

variable {code : Code κ} {m : Moment κ}

/-- **Allocating is decided by names.** If generated names are fresh, a request is granted just if
the parent is there, the template is sound (`Template.Sound`), and nobody lives at the address that
is asked for. If it is refused, it is for its first fault. If it is granted, all actors of the
template are there, and nothing else changed. And code that differs in what actors do does not
allocate differently. -/
theorem allocation_decided (h : Reach code m) (parent : Address) (t : Template κ)
    {used : κ.World → String → Prop} (hfresh : code.Fresh t.ids used) :
    ((∃ a, (m.stage.allocate code parent t).1 = .ok a) ↔
      m.stage.platform.contains parent = true ∧ t.Sound ∧
        ∀ a, Address.make parent (code.name t.id m.stage.world).1 = .ok a →
          m.stage.platform.context? a = none) ∧
    (∀ e, (m.stage.allocate code parent t).1 = .error e ↔
      (m.stage.faults code parent t).head? = some e) ∧
    (∀ a u, m.stage.allocate code parent t = (.ok a, u) → ∃ xs,
      xs.head?.map Site.address = some a ∧ Stage.Populated code parent t m.stage u xs) ∧
    ∀ code', Stage.SameLives code code' →
      m.stage.allocate code' parent t = m.stage.allocate code parent t := by
  have ht := h.ok.inv.table
  have hs := h.ok.inv.neat
  refine ⟨⟨fun ⟨a, ha⟩ => ?_, fun ⟨hparent, hsound, hvacant⟩ => ?_⟩,
    Stage.allocate_error_iff code parent t ht hs, fun a u hu => ?_,
    fun code' hsame => hsame.allocate parent t m.stage⟩
  · obtain ⟨hparent, hmake, hnone⟩ := Stage.allocate_granted ht hs ha
    obtain ⟨-, hreared⟩ := Stage.allocate_reared code parent t m.stage ht
    refine ⟨hparent, (hreared a ha).2.1, fun b hb => ?_⟩
    rwa [Except.ok.inj (hb.symm.trans hmake)]
  · exact Stage.allocate_of_sound hfresh ht hparent hsound hvacant
  · obtain ⟨hplanted, -⟩ := Stage.allocate_attempt code parent t m.stage ht hs
    rw [hu] at hplanted
    obtain ⟨xs, hhead, -, hleft⟩ := hplanted a rfl
    exact ⟨xs, hhead, hleft.populated ht⟩

end Moment

namespace Rebuilding

/-- All of the family is allocated (`template`), at once and in order. -/
theorem family_allocated : ∃ (u : Stage app) (xs : List (Site app)),
    sample.allocate code .root template = (.ok .sample, u) ∧ template.Sound ∧
    Stage.Populated code .root template sample u xs ∧
    xs.map (·.address.text) = ["/a", "/a/x", "/a/b"] := by
  have hreach : Moment.Reach code (.between sample) := ⟨{}, none, [], Nat.zero, .refl⟩
  obtain ⟨hgranted, -, hdone, -⟩ := Moment.allocation_decided hreach .root template fresh
  obtain ⟨u, hu⟩ : ∃ u, sample.allocate code .root template = (.ok .sample, u) := ⟨_, rfl⟩
  obtain ⟨xs, -, hxs⟩ := hdone _ u hu
  obtain ⟨-, hsound, -⟩ := hgranted.mp ⟨_, congrArg Prod.fst hu⟩
  refine ⟨u, xs, hu, hsound, hxs, ?_⟩
  have htexts := congrArg (List.map Address.text) hxs.paths
  rw [List.map_map] at htexts
  exact htexts.trans (by decide +kernel)

end Rebuilding

end Troupe
