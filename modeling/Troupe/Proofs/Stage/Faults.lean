import Troupe.Proofs.Stage.Attempts

/-!
# What is wrong with a template

Allocating asks at each node of a template whether there can be an actor of that name
(`Stage.place`), at a time when the nodes before it have been built. Whether there can be is a
matter of names only, and can be said beforehand. Once all actors have their names
(`Template.named`), the faults of the template are the names that are flawed, and those that are
taken, in order (`Template.faults`, `Stage.faults` for the request with its parent).

`Taken` says that the names that are taken under a parent are those of the actors that live there;
building an actor with those below it adds its name (`Taken.cons`).

Headlines:
* **`Template.plan_paths`**: a plan is for the addresses that the names spell.
* **`Stage.allocate_faults`**: allocating fails with the first fault, and succeeds if there is none.
* **`Stage.allocate_error_iff`**: so a request is refused for its first fault, and granted if it has
  none.
* `Stage.allocate_of_sound`: a sound template is allocated where there is a place for it.
-/

namespace Troupe

variable {κ : App}

open Platform

/-! ## Names -/

/-- The state of the application when the actor of a template has been built and has begun
(`Code.build`, `Code.init`). -/
def Code.reared (code : Code κ) (t : Template κ) (w : κ.World) : κ.World :=
  let y := code.build t.factory t.args w
  (code.init y.1 y.2).2

mutual

/-- A template with the names that its actors get (`Code.name`), and the state of the application
when all of them have been built. -/
def Template.named (code : Code κ) : Template κ → κ.World → Template κ × κ.World
  | .mk id factory args trap groups children, w =>
    let name := code.name id w
    let below := Template.namedAll code children
      (code.reared (.mk id factory args trap groups children) name.2)
    (.mk (some name.1) factory args trap groups below.1, below.2)

/-- Several templates with the names that their actors get (`Template.named`). -/
def Template.namedAll (code : Code κ) : List (Template κ) → κ.World → List (Template κ) × κ.World
  | [], w => ([], w)
  | t :: ts, w =>
    let first := Template.named code t w
    let rest := Template.namedAll code ts first.2
    (first.1 :: rest.1, rest.2)

end

/-- The name of a named template (`Template.id`). -/
def Template.name (t : Template κ) : String :=
  t.id.getD ""

mutual

/-- The addresses that the names of a template spell (`Address.make`), each before those below it.
-/
def Template.paths (parent : Address) : Template κ → List Address
  | .mk id _ _ _ _ children =>
    match Address.make parent (id.getD "") with
    | .error _ => []
    | .ok a => a :: Template.pathsAll a children

/-- The addresses that the names of several templates spell (`Template.paths`). -/
def Template.pathsAll (parent : Address) : List (Template κ) → List Address
  | [] => []
  | t :: ts => t.paths parent ++ Template.pathsAll parent ts

end

mutual

/-- What is wrong with the names of a template under `parent`, in order: that they are flawed, or
that they are taken. -/
def Template.faults (parent : Address) (taken : List String) : Template κ → List PlatformError
  | .mk id _ _ _ _ children =>
    match Address.make parent (id.getD "") with
    | .error e => [e]
    | .ok a =>
      (if id.getD "" ∈ taken then [.duplicateAddress a] else []) ++ Template.faultsAll a [] children

/-- What is wrong with the names of several templates (`Template.faults`). Each name is taken for
those after it. -/
def Template.faultsAll (parent : Address) (taken : List String) :
    List (Template κ) → List PlatformError
  | [] => []
  | t :: ts => t.faults parent taken ++ Template.faultsAll parent (t.name :: taken) ts

end

theorem Template.name_named (code : Code κ) (t : Template κ) (w : κ.World) :
    (t.named code w).1.name = (code.name t.id w).1 := by
  cases t
  rw [named]
  rfl

mutual

/-- **A plan** (`Template.plan`) is for the addresses that the names spell, and ends where naming
does. -/
theorem Template.plan_paths (code : Code κ) : ∀ (t : Template κ) (parent : Address) (w v : κ.World)
    (xs : List (Site κ)), t.plan code parent w = some (xs, v) →
      xs.map Site.address = (t.named code w).1.paths parent ∧ v = (t.named code w).2
  | .mk id factory args trap groups children, parent, w, v, xs, hplan => by
    rw [plan] at hplan
    split at hplan
    · exact absurd hplan (by simp)
    · rename_i a hmake
      obtain ⟨⟨ys, u⟩, hys, hxs⟩ := Option.map_eq_some_iff.mp hplan
      obtain ⟨rfl, rfl⟩ := Prod.mk.inj hxs
      obtain ⟨hpaths, hworld⟩ := planAll_paths code children a _ _ _ hys
      rw [named, paths, Option.getD_some, hmake]
      exact ⟨congrArg (a :: ·) hpaths, hworld⟩

theorem Template.planAll_paths (code : Code κ) : ∀ (ts : List (Template κ)) (parent : Address)
    (w v : κ.World) (xs : List (Site κ)), planAll code parent ts w = some (xs, v) →
      xs.map Site.address = pathsAll parent (namedAll code ts w).1 ∧ v = (namedAll code ts w).2
  | [], _, w, v, xs, hplan => by
    rw [planAll] at hplan
    obtain ⟨rfl, rfl⟩ := Prod.mk.inj (Option.some.inj hplan)
    rw [namedAll, pathsAll]
    exact ⟨rfl, rfl⟩
  | t :: ts, parent, w, v, xs, hplan => by
    rw [planAll] at hplan
    obtain ⟨⟨ys, u⟩, hys, hrest⟩ := Option.bind_eq_some_iff.mp hplan
    obtain ⟨⟨zs, v'⟩, hzs, hxs⟩ := Option.map_eq_some_iff.mp hrest
    obtain ⟨rfl, rfl⟩ := Prod.mk.inj hxs
    obtain ⟨hfirst, rfl⟩ := plan_paths code t parent w u ys hys
    obtain ⟨hothers, hworld⟩ := planAll_paths code ts parent _ v' zs hzs
    rw [namedAll, pathsAll, List.map_append, hfirst, hothers]
    exact ⟨rfl, hworld⟩

end

namespace Stage

variable {code : Code κ} {s u : Stage κ} {a parent : Address} {taken : List String}

/-! ## Names that are taken -/

/-- The names that are taken under `parent` are those of the actors that live there. -/
def Taken (parent : Address) (s : Stage κ) (taken : List String) : Prop :=
  ∀ id a, Address.make parent id = .ok a → (s.platform.isLive a = true ↔ id ∈ taken)

/-- Under an actor that is new no name is taken (`Taken`). -/
theorem Taken.planted {x : Site κ} (hx : s.platform.context? x.address = none)
    (hroot : x.address ≠ .root) (ht : s.platform.TableInv) :
    Taken x.address (x.plant code s) [] := by
  intro id a hmake
  have hbelow := Address.isBelow_of_make hmake
  rw [Site.isLive_plant]
  refine iff_of_false ?_ List.not_mem_nil
  rintro (rfl | hold)
  · exact Bool.false_ne_true ((Address.isBelow_irrefl x.address).symm.trans hbelow)
  · exact not_isLive_of_vacant ht hx hroot (Or.inr hbelow) hold

/-- When an actor was built with those below it, its name is taken as well (`Taken`). -/
theorem Taken.cons {xs : List (Site κ)} {id : String} (h : Taken parent s taken)
    (hmake : Address.make parent id = .ok a) (hhead : xs.head?.map Site.address = some a)
    (hxs : ∀ x ∈ xs, x.address.Within a) :
    Taken parent (s.plantAll code xs) (id :: taken) := by
  intro id' b hmake'
  rw [isLive_plantAll, h id' b hmake', List.mem_cons]
  refine or_congr_left ⟨?_, ?_⟩
  · rintro ⟨x, hx, rfl⟩
    by_contra hne
    exact (hxs x hx).apart (.refl _) hmake hmake' (Ne.symm hne) rfl
  · rintro rfl
    obtain rfl := Except.ok.inj (hmake'.symm.trans hmake)
    obtain ⟨x, hx, hxb⟩ := Option.map_eq_some_iff.mp hhead
    exact ⟨x, List.mem_of_mem_head? hx, hxb⟩

/-- Whether a place is found (`place`) depends on the name, whether that is given or generated. -/
theorem place_eq (code : Code κ) (parent : Address) (id : Option String) (s : Stage κ) :
    s.place code parent id =
      if s.platform.contains parent then
        match Address.make parent (code.name id s.world).1 with
        | .error e => (.error e, { s with world := (code.name id s.world).2 })
        | .ok a =>
          if s.platform.isLive a then
            (.error (.duplicateAddress a), { s with world := (code.name id s.world).2 })
          else (.ok ((code.name id s.world).1, a), { s with world := (code.name id s.world).2 })
      else (.error (.notFound parent), s) := by
  unfold place Code.name
  cases s.platform.contains parent <;> cases id <;> rfl

/-- Where no place is found (`place`), the name is flawed or taken. -/
theorem faults_of_place {id : Option String} {e : PlatformError}
    (hparent : s.platform.contains parent = true)
    (h : s.place code parent id = (.error e, u)) :
    Address.make parent (code.name id s.world).1 = .error e ∨
      ∃ a, Address.make parent (code.name id s.world).1 = .ok a ∧
        s.platform.isLive a = true ∧ e = .duplicateAddress a := by
  rw [place_eq, if_pos hparent] at h
  split at h
  · rename_i hmake
    exact Or.inl (hmake.trans (congrArg _ (Except.error.inj (Prod.mk.inj h).1)))
  · rename_i a hmake
    split at h
    · rename_i hlive
      exact Or.inr ⟨a, hmake, hlive, (Except.error.inj (Prod.mk.inj h).1).symm⟩
    · exact absurd h (by simp)

/-! ## Allocating finds the first fault -/

mutual

/-- **Allocating fails with the first fault** (`Template.faults`), and succeeds if there is none. -/
theorem allocate_faults (code : Code κ) (parent : Address) : ∀ (t : Template κ) (s : Stage κ)
    (taken : List String), s.platform.TableInv → s.platform.Neat →
      s.platform.contains parent = true → Taken parent s taken →
      (∀ a, (allocate code parent t s).1 = .ok a →
        Address.make parent (code.name t.id s.world).1 = .ok a ∧
        (t.named code s.world).1.faults parent taken = []) ∧
      ∀ e, (allocate code parent t s).1 = .error e →
        ((t.named code s.world).1.faults parent taken).head? = some e
  | .mk id factory args trap groups children, s, taken, ht, hs, hparent, htaken => by
    rw [Template.named, Template.faults, Option.getD_some]
    rcases allocate_inv code parent (.mk id factory args trap groups children) s ht with
      ⟨e, u, hplace, hu⟩ | ⟨a, hmake, hroot, hnone, -, hbuilt, hgranted, hrefused⟩
    · rw [hu]
      refine ⟨fun a ha => absurd ha (by simp), fun e' he => ?_⟩
      obtain rfl : e = e' := Except.error.inj he
      have hplace' : s.place code parent id = (.error e, u) := hplace
      rcases faults_of_place hparent hplace' with hmake | ⟨a, hmake, hlive, rfl⟩
      · rw [hmake]
        rfl
      · rw [hmake]
        dsimp only
        rw [if_pos ((htaken _ a hmake).mp hlive)]
        rfl
    have hmake' : Address.make parent (code.name id s.world).1 = .ok a := hmake
    let x := Template.site code a (.mk id factory args trap groups children) s.world
    have hthere : (x.plant code s).platform.contains a = true :=
      contains_iff.mpr (Or.inr ⟨_, Site.context?_plant.trans (if_pos rfl)⟩)
    obtain ⟨hall, hfail⟩ := allocateAll_faults code a children (x.plant code s) [] hbuilt
      (x.plant_neat code hs) hthere (Taken.planted (x := x) hnone hroot ht)
    have hfree : (code.name id s.world).1 ∉ taken := by
      rw [← htaken _ a hmake', isLive_iff]
      rintro ⟨c, hc⟩
      exact absurd (hnone.symm.trans hc) (by simp)
    rw [hmake']
    dsimp only
    rw [if_neg hfree, List.nil_append]
    cases hchildren : allocateAll code a children (x.plant code s) with
    | mk failed u =>
    rw [hchildren] at hall hfail
    cases failed with
    | some e =>
      rw [hrefused e u hchildren]
      refine ⟨fun b hb => absurd hb (by simp), fun e' he => ?_⟩
      obtain rfl : e = e' := Except.error.inj he
      exact hfail e rfl
    | none =>
      rw [hgranted u hchildren]
      refine ⟨fun b hb => ?_, fun e he => absurd he (by simp)⟩
      obtain rfl := Except.ok.inj hb
      exact ⟨hmake', hall rfl⟩

theorem allocateAll_faults (code : Code κ) (parent : Address) : ∀ (ts : List (Template κ))
    (s : Stage κ) (taken : List String), s.platform.TableInv → s.platform.Neat →
      s.platform.contains parent = true → Taken parent s taken →
      ((allocateAll code parent ts s).1 = none →
        Template.faultsAll parent taken (Template.namedAll code ts s.world).1 = []) ∧
      ∀ e, (allocateAll code parent ts s).1 = some e →
        (Template.faultsAll parent taken (Template.namedAll code ts s.world).1).head? = some e
  | [], s, taken, _, _, _, _ => by
    rw [allocateAll, Template.namedAll, Template.faultsAll]
    exact ⟨fun _ => rfl, fun e he => absurd he (by simp)⟩
  | t :: ts, s, taken, ht, hs, hparent, htaken => by
    obtain ⟨hok, hfail⟩ := allocate_faults code parent t s taken ht hs hparent htaken
    obtain ⟨hplanted, -⟩ := allocate_attempt code parent t s ht hs
    have hinv := TableInv.upkeep (allocate_upkeep code parent t s ht) ht
    rw [allocateAll, Template.namedAll, Template.faultsAll]
    cases hfirst : allocate code parent t s with
    | mk r s₁ =>
    rw [hfirst] at hok hfail hplanted hinv
    cases r with
    | error e =>
      refine ⟨fun hnone => absurd hnone (by simp), fun e' he => ?_⟩
      obtain rfl : e = e' := Option.some.inj he
      rw [List.head?_append, hfail e rfl]
      rfl
    | ok a =>
      obtain ⟨hmake, hnone⟩ := hok a rfl
      obtain ⟨xs, hhead, hwithin, hplan, -, hleft⟩ := hplanted a rfl
      obtain ⟨-, hworld⟩ := t.plan_paths code parent _ _ xs hplan
      dsimp only at hworld hleft ⊢
      subst hleft
      obtain ⟨hall, hfail'⟩ := allocateAll_faults code parent ts _ _ hinv
        (plantAll_neat code xs hs) (contains_plantAll hparent) (htaken.cons hmake hhead hwithin)
      rw [hnone, List.nil_append, Template.name_named, ← hworld]
      exact ⟨hall, hfail'⟩

end

/-- What is wrong with a request to allocate, in order: that nothing can live under `parent`, or
what is wrong with the names. -/
def faults (code : Code κ) (parent : Address) (t : Template κ) (s : Stage κ) : List PlatformError :=
  if s.platform.contains parent then
    (t.named code s.world).1.faults parent ((s.platform.directChildren parent).map Address.id)
  else [.notFound parent]

theorem taken_directChildren (ht : s.platform.TableInv) :
    Taken parent s ((s.platform.directChildren parent).map Address.id) := by
  intro id a hmake
  obtain ⟨-, -, hup, hid⟩ := Address.of_make hmake
  rw [isLive_iff, List.mem_map]
  constructor
  · exact fun hlive => ⟨a, (mem_directChildren_iff ht.placed).mpr ⟨hlive, hup⟩, hid⟩
  · rintro ⟨k, hk, rfl⟩
    obtain ⟨⟨c, hc⟩, rfl⟩ := (mem_directChildren_iff ht.placed).mp hk
    obtain ⟨hroot, hdiscard⟩ := ht.placed k c hc
    obtain rfl := Except.ok.inj ((Address.make_self hroot hdiscard).symm.trans hmake)
    exact ⟨c, hc⟩

/-- **A request is refused for its first fault** (`Template.faults`), and granted if it has none. -/
theorem allocate_error_iff (code : Code κ) (parent : Address) (t : Template κ)
    (ht : s.platform.TableInv) (hs : s.platform.Neat) (e : PlatformError) :
    (allocate code parent t s).1 = .error e ↔ (s.faults code parent t).head? = some e := by
  unfold faults
  by_cases hparent : s.platform.contains parent = true
  · rw [if_pos hparent]
    obtain ⟨hok, hfail⟩ := allocate_faults code parent t s _ ht hs hparent
      (taken_directChildren ht)
    cases hr : (allocate code parent t s).1 with
    | error e' =>
      rw [hfail e' hr]
      exact ⟨fun h => congrArg some (Except.error.inj h), fun h => congrArg _ (Option.some.inj h)⟩
    | ok a =>
      rw [(hok a hr).2]
      exact ⟨fun h => absurd h (by simp), fun h => absurd h (by simp)⟩
  · rw [if_neg hparent]
    have hrefused : (allocate code parent t s).1 = .error (.notFound parent) := by
      cases t
      rw [allocate, place_eq, if_neg hparent]
    rw [hrefused]
    exact ⟨fun h => congrArg some (Except.error.inj h), fun h => congrArg _ (Option.some.inj h)⟩

/-- **Whoever is allocated** (`allocate`) has a place: its parent is there, and nobody lived at its
address. -/
theorem allocate_granted (ht : s.platform.TableInv) (hs : s.platform.Neat) {t : Template κ}
    (h : (allocate code parent t s).1 = .ok a) : s.platform.contains parent = true ∧
      Address.make parent (code.name t.id s.world).1 = .ok a ∧ s.platform.context? a = none := by
  have hparent : s.platform.contains parent = true := by
    by_contra hno
    have hrefused := (allocate_error_iff code parent t ht hs (.notFound parent)).mpr
      (by rw [faults, if_neg hno]; rfl)
    exact absurd (h.symm.trans hrefused) (by simp)
  obtain ⟨hok, -⟩ := allocate_faults code parent t s _ ht hs hparent
    (taken_directChildren ht)
  obtain ⟨hplanted, -⟩ := allocate_attempt code parent t s ht hs
  obtain ⟨xs, hhead, -, -, hfree, -⟩ := hplanted a h
  obtain ⟨x, hx, rfl⟩ := Option.map_eq_some_iff.mp hhead
  exact ⟨hparent, (hok _ h).1, hfree.vacant x (List.mem_of_mem_head? hx)⟩

/-- **A sound template** (`Template.Sound`) **is allocated** where there is a place for it, if
generated names are fresh. -/
theorem allocate_of_sound {used : κ.World → String → Prop} {t : Template κ}
    (h : code.Fresh t.ids used) (ht : s.platform.TableInv)
    (hparent : s.platform.contains parent = true) (hsound : t.Sound)
    (hvacant : ∀ a, Address.make parent (code.name t.id s.world).1 = .ok a →
      s.platform.context? a = none) :
    ∃ a, (allocate code parent t s).1 = .ok a := by
  obtain ⟨a, xs, v, hplan, hmake, hbelow, hxs, -⟩ := t.exists_plan h parent s.world hsound
    (List.Subset.refl _) (ht.ne_discard hparent)
  obtain ⟨hroot, -⟩ := Address.of_make hmake
  have ha := hvacant a hmake
  have hfree (x : Site κ) (hx : x ∈ xs) : s.platform.context? x.address = none := by
    rw [Option.eq_none_iff_forall_not_mem]
    exact fun c hc => not_isLive_of_vacant ht ha hroot (Or.inr (hbelow x hx))
      (isLive_iff.mpr ⟨c, hc⟩)
  obtain ⟨b, -, hdone, -⟩ := allocate_of_plan code parent t s _ v hplan hparent
    (Template.nodup_sites hbelow hxs) (List.forall_mem_cons.mpr ⟨ha, hfree⟩)
  exact ⟨b, congrArg Prod.fst hdone⟩

end Stage
end Troupe
