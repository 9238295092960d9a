import Troupe.Proofs.Stage.Plans

/-!
# Names of actors

Where a parent lives, allocating fails for its names only: because one of them is flawed
(`validate_id`), or because two actors would have the same address. A template is *sound* if the
identifiers given in it are flawless and no two siblings are given the same (`Template.Sound`). If
one child cannot be allocated, the others do not stay (`Stage.Reared`), and whoever lived somewhere
before still does (`Stage.Homely`).

The identifiers that a template does not give are generated (`Code.freshId`). If those are fresh
(`Code.Fresh`), there is a plan for every sound template (`Template.plan`), and no two of its sites
are at the same address.

`Reared` is shown as the recursion goes: an actor is installed, those below it are allocated, and it
stays or is removed (`Reared.installed`, `Reared.stays`, `Reared.terminated`). What it says of an
address where somebody is new is `Vacant`: the identifier was flawless, and nobody lived there.

Headlines:
* **`Stage.allocate_reared`**: whatever was allocated had a sound template, and nothing else stays.
* **`Template.exists_plan`**: there is a plan for every sound template.
* `Address.Within.apart`: siblings with different identifiers have nothing below both of them.
* `Template.exists_sites`: an actor that lives has a plan for being built anew at its own address.
-/

namespace Troupe

variable {κ : App}

open Platform

/-! ## Addresses of siblings -/

namespace Address

variable {a b x y parent : Address} {id id' : String}

theorem parent_ne_discard (a : Address) : a.parent ≠ .discard := by
  unfold parent
  split
  · simp
  · simp [root]

theorem exists_make (hparent : parent ≠ .discard) (hid : idFlaw? id.toList = none) :
    ∃ a, make parent id = .ok a :=
  make_isOk_iff.mpr ⟨isId_iff.mpr hid, hparent⟩

theorem flawless_of_make (h : make parent id = .ok a) : idFlaw? id.toList = none :=
  isId_iff.mp (make_isOk_iff.mp ⟨a, h⟩).1

theorem isBelow_of_make (h : make parent id = .ok a) : a.isBelow parent = true := by
  obtain ⟨hroot, hdiscard, hparent, -⟩ := of_make h
  exact isBelow_of_parent hroot hdiscard hparent

/-- The identifier of an address leads to it from its parent (`Address.make`). -/
theorem make_self (hroot : a ≠ .root) (hdiscard : a ≠ .discard) : make a.parent a.id = .ok a := by
  match a with
  | discard => exact absurd rfl hdiscard
  | path .root => exact absurd rfl hroot
  | path (.child p s) => exact make_eq_ok_iff.mpr ⟨p, s, rfl, rfl, rfl⟩

/-- **Siblings with different identifiers** have nothing below both of them. -/
theorem Within.apart (hx : x.Within a) (hy : y.Within b) (ha : make parent id = .ok a)
    (hb : make parent id' = .ok b) (hid : id ≠ id') : x ≠ y := by
  rintro rfl
  obtain ⟨hra, hda, hpa, hia⟩ := of_make ha
  obtain ⟨hrb, hdb, hpb, hib⟩ := of_make hb
  have hdepth : a.depth = b.depth :=
    ((below_and_next_iff hra hda).mpr hpa).2.trans
      ((below_and_next_iff hrb hdb).mpr hpb).2.symm
  exact hid (hia.symm.trans ((hx.unique hy hdepth) ▸ hib))

end Address

/-! ## Sound templates -/

namespace Template

/-- The identifiers that are given are flawless (`idFlaw?`), and no two siblings are given
the same. -/
inductive Sound : Template κ → Prop
  | mk {id : Option String} {factory : κ.Factory} {args : List Message} {trap : Option κ.Trap}
      {groups : List String} {children : List (Template κ)} :
      (∀ text, id = some text → idFlaw? text.toList = none) →
        (children.filterMap Template.id).Nodup → (∀ t ∈ children, Sound t) →
          Sound (.mk id factory args trap groups children)

mutual

/-- The identifiers that are given to an actor and those below it (`Template.id`). -/
def ids : Template κ → List String
  | .mk id _ _ _ _ children => id.toList ++ idsAll children

/-- The identifiers that are given to several actors and those below them (`Template.ids`). -/
def idsAll : List (Template κ) → List String
  | [] => []
  | t :: ts => t.ids ++ idsAll ts

end

theorem mem_ids_of_id {t : Template κ} {text : String} (h : t.id = some text) : text ∈ t.ids := by
  cases t with
  | mk id factory args trap groups children =>
    have hid : id = some text := h
    rw [ids, hid]
    exact List.mem_append_left _ (List.mem_singleton_self text)

theorem mem_idsAll_of_mem {ts : List (Template κ)} {text : String}
    (h : text ∈ ts.filterMap Template.id) : text ∈ idsAll ts := by
  induction ts with
  | nil => exact absurd h List.not_mem_nil
  | cons t ts ih =>
    rw [idsAll]
    cases ht : t.id with
    | none =>
      rw [List.filterMap_cons_none ht] at h
      exact List.mem_append_right _ (ih h)
    | some own =>
      rw [List.filterMap_cons_some ht] at h
      rcases List.mem_cons.mp h with rfl | h
      · exact List.mem_append_left _ (mem_ids_of_id ht)
      · exact List.mem_append_right _ (ih h)

theorem withId_of_id {t : Template κ} {text : String} (h : t.id = some text) :
    t.withId text = t := by
  cases t with
  | mk id factory args trap groups children =>
    have hid : id = some text := h
    rw [hid]
    rfl

end Template

/-! ## Fresh identifiers -/

/-- Identifiers that are generated are flawless, none of the `given` ones, and none that was `used`,
as those are that were generated before. -/
structure Code.Fresh (code : Code κ) (given : List String) (used : κ.World → String → Prop) :
    Prop where
  flawless : ∀ w, idFlaw? (code.freshId w).1.toList = none
  other : ∀ w, (code.freshId w).1 ∉ given
  new : ∀ w, ¬ used w (code.freshId w).1
  noted : ∀ w, used (code.freshId w).2 (code.freshId w).1
  freshId : ∀ w id, used w id → used (code.freshId w).2 id
  build : ∀ factory args w id, used w id → used (code.build factory args w).2 id
  init : ∀ actor w id, used w id → used (code.init actor w).2 id

namespace Code.Fresh

variable {code : Code κ} {given : List String} {used : κ.World → String → Prop} {w : κ.World}
  {text : String}

theorem name (h : code.Fresh given used) (id : Option String) (hused : used w text) :
    used (code.name id w).2 text := by
  cases id with
  | some id => exact hused
  | none => exact h.freshId w text hused

theorem begun (h : code.Fresh given used) (x : Site κ) (hused : used x.world text) :
    used (x.begun code).2 text :=
  h.init _ _ _ (h.build _ _ _ _ hused)

/-- The identifier of an actor (`Code.name`) is flawless, be it given or generated. -/
theorem name_flawless (h : code.Fresh given used) {id : Option String}
    (hid : ∀ text, id = some text → idFlaw? text.toList = none) :
    idFlaw? (code.name id w).1.toList = none := by
  cases id with
  | some id => exact hid id rfl
  | none => exact h.flawless w

end Code.Fresh

namespace Template

variable {code : Code κ} {given : List String} {used : κ.World → String → Prop} {t : Template κ}

/-- An identifier is given to one of the templates, or generated from a state on (`Code.freshId`).
-/
def Names (given : List String) (used : κ.World → String → Prop) (ts : List (Template κ))
    (w : κ.World) (id : String) : Prop :=
  id ∈ ts.filterMap Template.id ∨ (id ∉ given ∧ ¬ used w id)

/-- The identifier of the first of several actors is not that of another. -/
theorem name_ne {ts : List (Template κ)} {w v : κ.World} {id : String}
    (h : code.Fresh given used) (hapart : ((t :: ts).filterMap Template.id).Nodup)
    (hgiven : idsAll (t :: ts) ⊆ given)
    (hkept : ∀ text, used (code.name t.id w).2 text → used v text)
    (hid : Names given used ts v id) : (code.name t.id w).1 ≠ id := by
  rw [idsAll] at hgiven
  rintro rfl
  cases ht : t.id with
  | some text =>
    rw [ht] at hid
    rw [List.filterMap_cons_some ht] at hapart
    rcases hid with hmem | ⟨hnot, -⟩
    · exact (List.nodup_cons.mp hapart).1 hmem
    · exact hnot (hgiven (List.mem_append_left _ (mem_ids_of_id ht)))
  | none =>
    rw [ht] at hid hkept
    rcases hid with hmem | ⟨-, hnot⟩
    · exact h.other w (hgiven (List.mem_append_right _ (mem_idsAll_of_mem hmem)))
    · exact hnot (hkept _ (h.noted w))

/-- A site and those below it are at different addresses (`Site.address`) if the latter are. -/
theorem nodup_sites {x : Site κ} {xs : List (Site κ)}
    (hbelow : ∀ y ∈ xs, y.address.isBelow x.address = true)
    (hapart : (xs.map Site.address).Nodup) : ((x :: xs).map Site.address).Nodup := by
  refine List.nodup_cons.mpr ⟨fun hmem => ?_, hapart⟩
  obtain ⟨y, hy, hyx⟩ := List.mem_map.mp hmem
  have hself : x.address.isBelow x.address = true := hyx ▸ hbelow y hy
  exact Bool.false_ne_true ((Address.isBelow_irrefl x.address).symm.trans hself)

mutual

/-- **There is a plan** (`Template.plan`) for every sound template, and no two of its sites are at
the same address. -/
theorem exists_plan (h : code.Fresh given used) : ∀ (t : Template κ) (parent : Address)
    (w : κ.World), t.Sound → t.ids ⊆ given → parent ≠ .discard →
      ∃ a xs v, t.plan code parent w = some (t.site code a w :: xs, v) ∧
        Address.make parent (code.name t.id w).1 = .ok a ∧
        (∀ x ∈ xs, x.address.isBelow a = true) ∧ (xs.map Site.address).Nodup ∧
        ∀ text, used (code.name t.id w).2 text → used v text
  | .mk id factory args trap groups children, parent, w, hsound, hgiven, hparent => by
    obtain ⟨hflawless, hapart, hchildren⟩ := hsound
    obtain ⟨a, hmake⟩ := Address.exists_make hparent (h.name_flawless (w := w) hflawless)
    obtain ⟨-, ha, -, -⟩ := Address.of_make hmake
    rw [ids] at hgiven
    obtain ⟨xs, v, hall, hxs, hplaced, hkept⟩ := exists_planAll h children a
      (((mk id factory args trap groups children).site code a w).begun code).2 hchildren hapart
      (List.append_subset.mp hgiven).2 ha
    refine ⟨a, xs, v, ?_, hmake, fun x hx => ?_, hxs, fun text hused => ?_⟩
    · rw [plan, hmake]
      dsimp only
      rw [hall]
      rfl
    · obtain ⟨id', b, hb, hxb, -⟩ := hplaced x hx
      rcases hxb with hxb | hxb
      · exact hxb ▸ Address.isBelow_of_make hb
      · exact Address.isBelow_trans hxb (Address.isBelow_of_make hb)
    · exact hkept text (h.begun _ hused)

theorem exists_planAll (h : code.Fresh given used) : ∀ (ts : List (Template κ)) (parent : Address)
    (w : κ.World), (∀ t ∈ ts, t.Sound) → (ts.filterMap Template.id).Nodup → idsAll ts ⊆ given →
      parent ≠ .discard →
      ∃ xs v, planAll code parent ts w = some (xs, v) ∧ (xs.map Site.address).Nodup ∧
        (∀ x ∈ xs, ∃ id a, Address.make parent id = .ok a ∧ x.address.Within a ∧
          Names given used ts w id) ∧
        ∀ text, used w text → used v text
  | [], _, w, _, _, _, _ =>
    ⟨[], w, by rw [planAll], .nil, fun _ hx => absurd hx List.not_mem_nil, fun _ ht => ht⟩
  | t :: ts, parent, w, hsound, hapart, hgiven, hparent => by
    have hsplit := hgiven
    rw [idsAll] at hsplit
    obtain ⟨hids, hidsAll⟩ := List.append_subset.mp hsplit
    obtain ⟨a, xs, v, hplan, hmake, hbelow, hxs, hkept⟩ := exists_plan h t parent w
      (hsound t List.mem_cons_self) hids hparent
    have hothers := (List.sublist_cons_self t ts).filterMap Template.id
    obtain ⟨ys, u, hplanAll, hys, hplaced, hkept'⟩ := exists_planAll h ts parent v
      (fun t' ht' => hsound t' (List.mem_cons_of_mem t ht')) (hapart.sublist hothers) hidsAll
      hparent
    have hused (text : String) (ht : used w text) : used v text :=
      hkept text (h.name t.id ht)
    have hwithin : ∀ x ∈ t.site code a w :: xs, x.address.Within a :=
      List.forall_mem_cons.mpr ⟨.refl a, fun x hx => Or.inr (hbelow x hx)⟩
    refine ⟨t.site code a w :: xs ++ ys, u, ?_, ?_, fun x hx => ?_,
      fun text ht => hkept' text (hused text ht)⟩
    · rw [planAll, hplan, Option.bind_some, hplanAll]
      rfl
    · rw [List.map_append]
      refine List.nodup_append.mpr ⟨nodup_sites hbelow hxs, hys, fun b hb c hc => ?_⟩
      obtain ⟨x, hx, rfl⟩ := List.mem_map.mp hb
      obtain ⟨y, hy, rfl⟩ := List.mem_map.mp hc
      obtain ⟨id, d, hd, hyd, hid⟩ := hplaced y hy
      exact (hwithin x hx).apart hyd hmake hd (name_ne h hapart hgiven hkept hid)
    · rcases List.mem_append.mp hx with hx | hx
      · refine ⟨_, a, hmake, hwithin x hx, ?_⟩
        cases ht : t.id with
        | some text => exact Or.inl (List.mem_filterMap.mpr ⟨t, List.mem_cons_self, ht⟩)
        | none => exact Or.inr ⟨h.other w, h.new w⟩
      · obtain ⟨id, b, hb, hxb, hid⟩ := hplaced x hx
        refine ⟨id, b, hb, hxb, hid.imp (fun hmem => hothers.subset hmem) fun hnot => ?_⟩
        exact ⟨hnot.1, fun ht => hnot.2 (hused id ht)⟩

end

/-- An actor that lives has a plan for being built anew (`Template.plan`) at its own address. -/
theorem exists_sites (h : code.Fresh t.ids used) (hsound : t.Sound) {a : Address}
    (hid : t.id = some a.id) (hroot : a ≠ .root) (hdiscard : a ≠ .discard) (w : κ.World) :
    ∃ xs v, t.plan code a.parent w = some (⟨a, t, w⟩ :: xs, v) ∧
      (∀ x ∈ xs, x.address.isBelow a = true) ∧
      ((⟨a, t, w⟩ :: xs).map Site.address).Nodup := by
  obtain ⟨b, xs, v, hplan, hmake, hbelow, hxs, -⟩ := exists_plan h t a.parent w hsound
    (List.Subset.refl _) a.parent_ne_discard
  rw [hid] at hmake
  obtain rfl : a = b := Except.ok.inj ((Address.make_self hroot hdiscard).symm.trans hmake)
  have hsite : t.site code a w = ⟨a, t, w⟩ := by
    unfold site
    rw [hid]
    exact congrArg (Site.mk a · w) (withId_of_id hid)
  exact ⟨xs, v, hsite ▸ hplan, hbelow, nodup_sites hbelow hxs⟩

end Template

/-! ## Whatever was allocated had a sound template -/

namespace Stage

variable {code : Code κ} {s t u : Stage κ} {a b parent : Address}

/-- Whoever is new lives below an address and has a sound template (`Template.Sound`). -/
def Reared (parent : Address) (s t : Stage κ) : Prop :=
  ∀ a c, t.platform.context? a = some c → s.platform.context? a = some c ∨
    a.isBelow parent = true ∧ c.template.Sound

/-- Whoever lived somewhere still does (`Platform.context?`). -/
def Homely (s t : Stage κ) : Prop :=
  ∀ a c, s.platform.context? a = some c → t.platform.context? a = some c

theorem Reared.refl (s : Stage κ) : Reared parent s s :=
  fun _ _ hc => Or.inl hc

theorem Reared.trans (h : Reared parent s t) (h' : Reared parent t u) : Reared parent s u :=
  fun a c hc => (h' a c hc).elim (h a c) Or.inr

/-- If nobody lives at an address later, nobody lived there before (`Homely`). -/
theorem Homely.free (h : Homely s t) (ha : t.platform.context? a = none) :
    s.platform.context? a = none := by
  cases hc : s.platform.context? a with
  | none => rfl
  | some c => exact absurd (ha.symm.trans (h a c hc)) (by simp)

/-- What it says of an identifier that an actor was allocated with it: it is flawless, and nobody
lived at the address. -/
def Vacant (parent : Address) (id : String) (s : Stage κ) : Prop :=
  ∃ a, Address.make parent id = .ok a ∧ s.platform.context? a = none

theorem not_vacant {id : String} {c : Context κ} (hmake : Address.make parent id = .ok a)
    (hc : s.platform.context? a = some c) : ¬ Vacant parent id s := by
  rintro ⟨b, hb, hgone⟩
  obtain rfl := Except.ok.inj (hb.symm.trans hmake)
  exact absurd (hgone.symm.trans hc) (by simp)

section Installed

variable {x : Template κ} {c : Context κ}

/-- Whoever is there when an actor was installed (`install`) and those below it were allocated: one
of those below, the actor, or somebody who was there before. -/
theorem Reared.installed (h : Reared a (s.install code a x) t)
    (hc : t.platform.context? b = some c) :
    (b.isBelow a = true ∧ c.template.Sound) ∨ (b = a ∧ c.template = x) ∨
      (b ≠ a ∧ s.platform.context? b = some c) := by
  rcases h b c hc with hold | hnew
  · rw [context?_install] at hold
    split at hold
    · rename_i hba
      obtain rfl := Option.some.inj hold
      exact Or.inr (Or.inl ⟨hba, rfl⟩)
    · rename_i hba
      exact Or.inr (Or.inr ⟨hba, hold⟩)
  · exact Or.inl hnew

/-- An actor that is removed after all (`terminate`) leaves nothing behind. -/
theorem Reared.terminated (h : Reared a (s.install code a x) t) (hi : t.platform.TableInv) :
    Reared parent s (t.terminate code a) := by
  intro b c hc
  rw [context?_terminate a hi] at hc
  split at hc
  · exact absurd hc (by simp)
  · rename_i haway
    obtain ⟨hne, hnot⟩ := not_or.mp haway
    rcases h.installed hc with ⟨hbelow, -⟩ | ⟨hself, -⟩ | ⟨-, hold⟩
    · exact absurd hbelow hnot
    · exact absurd hself hne
    · exact Or.inl hold

/-- An actor stays that has a sound template (`Template.Sound`). -/
theorem Reared.stays (h : Reared a (s.install code a x) t) (hbelow : a.isBelow parent = true)
    (hsound : x.Sound) : Reared parent s t := by
  intro b c hc
  rcases h.installed hc with ⟨hb, hnew⟩ | ⟨rfl, htemplate⟩ | ⟨-, hold⟩
  · exact Or.inr ⟨Address.isBelow_trans hb hbelow, hnew⟩
  · exact Or.inr ⟨hbelow, htemplate ▸ hsound⟩
  · exact Or.inl hold

/-- Whoever was there before an actor was installed (`install`) still is. -/
theorem Homely.installed (h : Homely (s.install code a x) t)
    (hfree : s.platform.context? a = none) : Homely s t := by
  intro b c hc
  refine h b c ?_
  rw [context?_install, if_neg]
  · exact hc
  · rintro rfl
    exact absurd (hfree.symm.trans hc) (by simp)

end Installed

mutual

/-- **Whatever was allocated** (`allocate`) had a sound template, and nothing else stays. -/
theorem allocate_reared (code : Code κ) (parent : Address) : ∀ (t : Template κ) (s : Stage κ),
    s.platform.TableInv → Reared parent s (allocate code parent t s).2 ∧
      ∀ a, (allocate code parent t s).1 = .ok a →
        Homely s (allocate code parent t s).2 ∧ t.Sound ∧
        ∀ text, t.id = some text → Vacant parent text s ∧ ¬ Vacant parent text
          (allocate code parent t s).2
  | .mk id factory args trap groups children, s, h => by
    obtain ⟨hsame, hfree⟩ := place_platform code parent id s
    rw [allocate]
    cases hplace : s.place code parent id with
    | mk placed s₀ =>
    rw [hplace] at hsame hfree
    dsimp only at hsame
    cases placed with
    | error e => exact ⟨fun a c hc => Or.inl (hsame ▸ hc), fun a ha => absurd ha (by simp)⟩
    | ok named =>
    obtain ⟨text, a⟩ := named
    obtain ⟨htext, hmake, -⟩ := make_of_place hplace
    obtain ⟨hroot, hdiscard, hparent, hnone, hid⟩ := hfree text a rfl
    rw [← hsame] at h hparent hnone
    let x : Template κ := .mk (some text) factory args trap groups children
    have hinstalled : (s₀.install code a x).platform.TableInv := TableInv.upkeep
      (install_upkeep hroot hdiscard hparent hnone (congrArg some hid.symm)) h
    obtain ⟨hreared, hall⟩ := allocateAll_reared code a children (s₀.install code a x) hinstalled
    have hinv := TableInv.upkeep (allocateAll_upkeep code a children _ hinstalled) hinstalled
    have hback {t : Stage κ} (ht : Reared parent s₀ t) : Reared parent s t :=
      fun b c hc => hsame ▸ ht b c hc
    dsimp only
    cases hchildren : allocateAll code a children (s₀.install code a x) with
    | mk failed s₁ =>
    rw [hchildren] at hreared hall hinv
    cases failed with
    | some e => exact ⟨hback (hreared.terminated hinv), fun b hb => absurd hb (by simp)⟩
    | none =>
      obtain ⟨hhomely, hsounds, hapart, -⟩ := hall rfl
      have hvalid := Address.flawless_of_make hmake
      have hgiven (text' : String) (ht : id = some text') : text' = text := by
        rw [ht] at htext
        exact htext.symm
      have hsound : x.Sound := .mk (fun text' ht => Option.some.inj ht ▸ hvalid) hapart hsounds
      have hthere := hhomely a _ ((context?_install code a x s₀).trans (if_pos rfl))
      refine ⟨hback (hreared.stays (Address.isBelow_of_make hmake) hsound), fun b _ => ⟨?_, ?_, ?_⟩⟩
      · exact fun b c hc => hhomely.installed hnone b c (hsame.symm ▸ hc)
      · exact .mk (fun text' ht => hgiven text' ht ▸ hvalid) hapart hsounds
      · intro text' ht
        obtain rfl := hgiven text' ht
        exact ⟨⟨a, hmake, hsame ▸ hnone⟩, not_vacant hmake hthere⟩

theorem allocateAll_reared (code : Code κ) (parent : Address) : ∀ (ts : List (Template κ))
    (s : Stage κ), s.platform.TableInv → Reared parent s (allocateAll code parent ts s).2 ∧
      ((allocateAll code parent ts s).1 = none →
        Homely s (allocateAll code parent ts s).2 ∧ (∀ t ∈ ts, t.Sound) ∧
        (ts.filterMap Template.id).Nodup ∧
        ∀ text ∈ ts.filterMap Template.id, Vacant parent text s)
  | [], s, _ => by
    rw [allocateAll]
    exact ⟨.refl s, fun _ => ⟨fun _ _ hc => hc, fun _ ht => absurd ht List.not_mem_nil, .nil,
      fun _ ht => absurd ht List.not_mem_nil⟩⟩
  | t :: ts, s, h => by
    obtain ⟨hreared, hok⟩ := allocate_reared code parent t s h
    have hinv := TableInv.upkeep (allocate_upkeep code parent t s h) h
    rw [allocateAll]
    cases hfirst : allocate code parent t s with
    | mk r s₁ =>
      rw [hfirst] at hreared hok hinv
      cases r with
      | error e => exact ⟨hreared, fun hnone => absurd hnone (by simp)⟩
      | ok a =>
        obtain ⟨hhomely, hsound, hvacant⟩ := hok a rfl
        obtain ⟨hreared', hall⟩ := allocateAll_reared code parent ts s₁ hinv
        refine ⟨hreared.trans hreared', fun hnone => ?_⟩
        obtain ⟨hhomely', hsounds, hapart, hvacants⟩ := hall hnone
        have hvacants' (text : String) (ht : text ∈ ts.filterMap Template.id) :
            Vacant parent text s := by
          obtain ⟨b, hb, hfree⟩ := hvacants text ht
          exact ⟨b, hb, hhomely.free hfree⟩
        refine ⟨fun b c hc => hhomely' b c (hhomely b c hc), ?_, ?_, ?_⟩
        · exact List.forall_mem_cons.mpr ⟨hsound, hsounds⟩
        · cases ht : t.id with
          | none => rwa [List.filterMap_cons_none ht]
          | some text =>
            rw [List.filterMap_cons_some ht]
            exact List.nodup_cons.mpr ⟨fun hmem => (hvacant text ht).2 (hvacants text hmem), hapart⟩
        · cases ht : t.id with
          | none => rwa [List.filterMap_cons_none ht]
          | some text =>
            rw [List.filterMap_cons_some ht]
            exact List.forall_mem_cons.mpr ⟨(hvacant text ht).1, hvacants'⟩

end

end Stage

end Troupe
