import Troupe.Proofs.Address.Encoding
import Troupe.Proofs.Guarantee.Sending

/-!
# The nearest route that fits

A message for an address goes to the router of the nearest route at or above it (`Platform.router?`,
the source's `get_router`), where the routes do not count whose router is that address or above it
(`Nearest`). A router so never takes what is sent to itself or below it, also where routes cover
each other, and where the nearest route does not count a further one may.

That is said of one address and its routes by `Platform.Routed`, whatever was put
(`Platform.putRoute`, `put_route`) or removed (`Platform.removeRoute`, `remove_route`); and
`Dispatch.transferred_iff` ties it to what becomes of a message, since it goes to a router exactly
if one is responsible (`Platform.Responsible`).

Headlines:
* **`Platform.routed`**: on every platform, whatever its routes, an address has the nearest route
  that fits.
* **`Platform.routes_nearest`**: a message is transferred to that router, and to no other.
-/

namespace Troupe

open Platform Troupe.Flow

variable {κ : App}

/-! ## Routes in the tree -/

namespace Platform

variable {p q : Platform κ} {target level r : Address}

/-- The nearest route that fits (`Platform.routes`): it is at an address or above it, leads neither
to that address nor to one above it, and the routes nearer to that address all lead there. -/
structure Nearest (p : Platform κ) (target r level : Address) : Prop where
  above : target.Within level
  registered : p.routes.get? level = some r
  fits : ¬ target.Within r
  nearest : ∀ nearer r', target.Within nearer → nearer.isBelow level = true →
    p.routes.get? nearer = some r' → target.Within r'

theorem not_within_iff : ¬ target.Within r ↔ r ≠ target ∧ target.isBelow r = false := by
  rw [Address.Within, not_or, Bool.not_eq_true, eq_comm]

theorem responsible_iff_nearest (h : target ≠ .discard) :
    p.Responsible target r ↔ ∃ level, p.Nearest target r level := by
  constructor
  · rintro ⟨before, level, after, hsplit, hr, hne, hbelow, hnearest⟩
    have hlevel : level ∈ target.ancestry := hsplit ▸ List.mem_append_right _ List.mem_cons_self
    refine ⟨level, (Address.mem_ancestry_iff h).mp hlevel, hr, not_within_iff.mpr ⟨hne, hbelow⟩,
      ?_⟩
    intro nearer r' hwithin hnearer hr'
    have hmem := (Address.mem_before_ancestry_iff h hsplit).mpr ⟨hwithin, hnearer⟩
    exact (hnearest nearer hmem r' hr').imp_left Eq.symm
  · rintro ⟨level, hn⟩
    obtain ⟨before, after, hsplit⟩ := List.append_of_mem ((Address.mem_ancestry_iff h).mpr hn.above)
    obtain ⟨hne, hbelow⟩ := not_within_iff.mp hn.fits
    refine ⟨before, level, after, hsplit, hn.registered, hne, hbelow, fun l hl r' hr' => ?_⟩
    obtain ⟨hwithin, hnearer⟩ := (Address.mem_before_ancestry_iff h hsplit).mp hl
    exact (hn.nearest l r' hwithin hnearer hr').imp_left Eq.symm

theorem router?_eq_some_iff_nearest (h : target ≠ .discard) :
    p.router? target = some r ↔ ∃ level, p.Nearest target r level :=
  router?_eq_some.trans (responsible_iff_nearest h)

/-- **If some route fits**, an address at or below it has a router (`Platform.router?`), whose route
is no further. -/
theorem exists_nearest (h : target ≠ .discard) (hlevel : target.Within level)
    (hr : p.routes.get? level = some r) (hfits : ¬ target.Within r) :
    ∃ r' level', p.router? target = some r' ∧ p.Nearest target r' level' ∧ level'.Within level := by
  have hsome : (p.router? target).isSome := by
    rw [router?, List.find?_isSome]
    obtain ⟨hne, hbelow⟩ := not_within_iff.mp hfits
    refine ⟨r, List.mem_filterMap.mpr ⟨level, (Address.mem_ancestry_iff h).mpr hlevel, hr⟩, ?_⟩
    rw [Bool.and_eq_true, bne_iff_ne, Bool.not_eq_true']
    exact ⟨hne, hbelow⟩
  obtain ⟨r', hr'⟩ := Option.isSome_iff_exists.mp hsome
  obtain ⟨level', hn⟩ := (router?_eq_some_iff_nearest h).mp hr'
  refine ⟨r', level', hr', hn, (hn.above.total h hlevel).resolve_right fun hnearer => ?_⟩
  exact hfits (hn.nearest level r hlevel hnearer hr)

/-- An address's router depends on the routes at and above it only (`Address.Within`). -/
theorem router?_congr (h : target ≠ .discard)
    (hroutes : ∀ l, target.Within l → p.routes.get? l = q.routes.get? l) :
    p.router? target = q.router? target := by
  unfold router?
  rw [List.filterMap_congr fun l hl => hroutes l ((Address.mem_ancestry_iff h).mp hl)]

theorem routes_putRoute (p : Platform κ) (routed router : Address) :
    (p.putRoute routed router).routes = p.routes.insert routed router := rfl

theorem get?_removeRoute (p : Platform κ) (routed l : Address) :
    (p.removeRoute routed).routes.get? l = if l = routed then none else p.routes.get? l := by
  unfold removeRoute
  by_cases hroute : p.routes.contains routed = true
  · rw [if_pos hroute]
    exact Table.get?_erase p.routes routed l
  · rw [if_neg hroute]
    rw [Table.contains_eq, Option.not_isSome_iff_eq_none] at hroute
    by_cases hl : l = routed
    · rw [if_pos hl, hl, hroute]
    · rw [if_neg hl]

/-- What is known of the routes for an address (`Platform.Nearest`). -/
structure Routed (p : Platform κ) (target : Address) : Prop where
  router : ∀ r, p.router? target = some r ↔ ∃ level, p.Nearest target r level
  /-- There is no router if no route fits. -/
  unrouted : p.router? target = none ↔
    ∀ level r, target.Within level → p.routes.get? level = some r → target.Within r
  /-- A router never takes what is sent to itself or below it. -/
  outside : ∀ r, target.Within r → p.router? target ≠ some r
  /-- Where a route fits, everything at or below its address is routed, by this route or a nearer
  one. -/
  covered : ∀ level r, target.Within level → p.routes.get? level = some r → ¬ target.Within r →
    ∃ r' level', p.router? target = some r' ∧ p.Nearest target r' level' ∧ level'.Within level
  /-- A route makes no difference to what is not at or below its address. -/
  apart : ∀ routed, ¬ target.Within routed →
    (∀ router, (p.putRoute routed router).router? target = p.router? target) ∧
      (p.removeRoute routed).router? target = p.router? target

/-- **On every platform**, an address has the nearest route that fits (`Platform.Routed`). -/
theorem routed (p : Platform κ) (h : target ≠ .discard) : p.Routed target where
  router r := router?_eq_some_iff_nearest h
  unrouted := by
    constructor
    · intro hnone level r hlevel hr
      by_contra hfits
      obtain ⟨r', level', hr', -⟩ := exists_nearest h hlevel hr hfits
      exact absurd (hnone.symm.trans hr') (by simp)
    · intro hall
      refine Option.eq_none_iff_forall_ne_some.mpr fun r hr => ?_
      obtain ⟨level, hn⟩ := (router?_eq_some_iff_nearest h).mp hr
      exact hn.fits (hall level r hn.above hn.registered)
  outside r hr hrouter := by
    obtain ⟨level, hn⟩ := (router?_eq_some_iff_nearest h).mp hrouter
    exact hn.fits hr
  covered level r hlevel hr hfits := exists_nearest h hlevel hr hfits
  apart routed hapart := by
    have hother (l : Address) (hl : target.Within l) : l ≠ routed := fun he => hapart (he ▸ hl)
    refine ⟨fun router => router?_congr h fun l hl => ?_, router?_congr h fun l hl => ?_⟩
    · rw [routes_putRoute, Table.get?_insert, if_neg (hother l hl)]
    · rw [get?_removeRoute, if_neg (hother l hl)]

end Platform

/-! ## Messages -/

theorem Event.transferred_inj {r r' : Address} {env : Envelope} :
    Event.transferred r env = .transferred r' env ↔ r = r' :=
  ⟨fun h => Option.some.inj (congrArg Event.address h), fun h => h ▸ rfl⟩

theorem Event.transferred_ne {r : Address} {env : Envelope} {e : Event}
    (h : e.kind ≠ .messageTransferred) : Event.transferred r env ≠ e :=
  fun he => h (he ▸ rfl)

/-- A message is transferred to the router of its target (`Platform.router?`), and to no other. -/
theorem Dispatch.transferred_iff {p : Platform κ} {env : Envelope} {events : List Event}
    {place : Option (Address × Nat × Way)} {taken : Bool} (h : Dispatch p env events place taken)
    (htarget : env.target ≠ .discard) (r : Address) :
    Event.transferred r env ∈ (if taken then events else []) ↔ p.router? env.target = some r := by
  have haccepted (a : Address) : Event.transferred r env ≠ .accepted a env :=
    Event.transferred_ne (by simp [Event.accepted, Event.withEnvelope, Event.about])
  have hdropped : Event.transferred r env ≠ .dropped env :=
    Event.transferred_ne (by simp [Event.dropped, Event.withEnvelope])
  have hresponsible {r' : Address} (hr : p.Responsible env.target r') :
      p.router? env.target = some r ↔ r = r' := by
    rw [router?_eq_some.mpr hr, Option.some.injEq, eq_comm]
  have hnone (hr : ∀ r', ¬ p.Responsible env.target r') : p.router? env.target ≠ some r :=
    fun h => hr r (router?_eq_some.mp h)
  cases h with
  | absorbed hdiscard => exact absurd hdiscard htarget
  | rerouted _ hr _ =>
    simp [hresponsible hr, haccepted, Event.transferred_inj]
  | lost _ hr _ =>
    simp [hresponsible hr, hdropped, Event.transferred_inj]
  | taken _ hr _ => simp [hnone hr, haccepted]
  | refused _ hr _ => simp [hnone hr]

namespace Platform

/-- **A message goes to the nearest router that fits** (`Platform.Routed`), on every platform and
whatever its routes: it is transferred to this router and to no other, and if there is none, it is
not transferred. -/
theorem routes_nearest (p : Platform κ) (target : Address) (h : target ≠ .discard) :
    p.Routed target ∧
      ∀ (answer : (c : Call κ) → Stage κ → Option (c.Answer × Stage κ)) (s : Stage κ)
        (env : Envelope), s.platform = p → env.target = target →
          ∃ events place taken, Settles answer (route env) s env events place taken ∧
            ∀ r, Event.transferred r env ∈ events ↔ ∃ level, p.Nearest target r level := by
  refine ⟨p.routed h, ?_⟩
  rintro answer s env rfl rfl
  obtain ⟨events, place, taken, hd⟩ := Dispatch.exists_of s.platform env
  refine ⟨_, place, taken, hd.settles_route, fun r => ?_⟩
  rw [hd.transferred_iff h, (s.platform.routed h).router]

end Platform

namespace Crossroads

/-- A router outside. -/
def outer : Address :=
  .path (.child .root ⟨['o', 'u', 't'], rfl⟩)

/-- What is served by two routers. -/
def served : Path :=
  .child .root ⟨['s', 'v', 'c'], rfl⟩

/-- A router below the address that it serves. -/
def inner : Address :=
  .path (served.child ⟨['i', 'n'], rfl⟩)

/-- Everything is routed to the one outside (`outer`), but what is served inside to the one there.
-/
def platform : Platform App.sample :=
  (Moment.sample.platform.putRoute .root outer).putRoute (.path served) inner

/-- What is sent to the router inside (`inner`) is left to the one outside (`outer`). -/
theorem inner_served_outside : inner ≠ .discard ∧ platform.router? (.path served) = some inner ∧
    platform.router? inner = some outer ∧ ∃ level, platform.Nearest inner outer level := by
  have hrouted := (Platform.routes_nearest platform inner (by decide)).1
  have hrouter : platform.router? inner = some outer := rfl
  exact ⟨by decide, rfl, hrouter, (hrouted.router outer).mp hrouter⟩

end Crossroads

end Troupe
