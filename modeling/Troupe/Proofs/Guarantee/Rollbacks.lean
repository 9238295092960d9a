import Troupe.Proofs.Stage.Attempts

/-!
# What a failed allocation leaves behind

When a template cannot be allocated to the end (`Stage.allocate`, the source's `alloc_actor`), what
was built of it is removed again: actors, mailboxes, memberships and slots are as before, and every
actor that was built gets its last call once. Removing an actor (`Stage.terminate`) cleans up after
its address, though, and does not ask whether what it finds there came with the actor. The routes to
and through the addresses go, as they do whenever an actor is removed, also those that were put
before anybody lived there (`Platform.routesBeside`); and an address that was left blocked is freed.

So a request that is refused can change who gets a message: on `Detour.stage` a family of three
generations is refused among actors, groups and routes, and a keeper loses the routes to those that
never came (`Detour.generations_taken_back`, `Detour.route_lost`).

Headline:
* **`Moment.allocation_taken_back`**: what is as before, what is told, and what is not as before.
-/

namespace Troupe

variable {κ : App}

open Platform Stage

/-- The routes (`Platform.routes`) that lead neither from one of these addresses nor to one. -/
def Platform.routesBeside (p : Platform κ) (as : List Address) : Table Address Address :=
  p.routes.retain fun target router => target ∉ as ∧ router ∉ as

namespace Moment

variable {code : Code κ} {m : Moment κ} {u : Stage κ}

/-- **A failed allocation takes back what it built**, at free sites for the first nodes of the
template. Beside the generation counter and the bus this touches the routes from and to these sites
(`Platform.routesBeside`) and, if a site was left blocked, what it was blocked by and its place
among those that wait. -/
theorem allocation_taken_back (h : Reach code m) {parent : Address} {t : Template κ}
    {e : PlatformError} (hfail : m.stage.allocate code parent t = (.error e, u)) :
    ∃ xs : List (Site κ),
      (∃ done rest, t.nodes = done ++ rest ∧ List.Forall₂ Site.IsOf xs done) ∧
      (xs.map Site.address).Nodup ∧
      (∀ x ∈ xs, m.stage.platform.context? x.address = none ∧
        x.address.isBelow parent = true) ∧
      (∃ bus, u.platform =
        { m.stage.platform with
          routes := m.stage.platform.routesBeside (xs.map Site.address)
          blocked := m.stage.platform.blocked.retain fun k _ => k ∉ xs.map Site.address
          waitQueue := m.stage.platform.waitQueue.filter (· ∉ xs.map Site.address)
          queued := m.stage.platform.queued.retain fun k _ =>
            k ∉ xs.map Site.address ∨ k ∉ m.stage.platform.waitQueue
          nextGeneration := m.stage.platform.nextGeneration + xs.length
          bus } ∧
        m.stage.platform.bus.Grown (fun e => e.IsArrival ∨ e.kind = .actorRemoved) bus) ∧
      ((∀ x ∈ xs, m.stage.platform.isBlocked x.address = false) → ∃ bus, u.platform =
        { m.stage.platform with
          routes := m.stage.platform.routesBeside (xs.map Site.address)
          nextGeneration := m.stage.platform.nextGeneration + xs.length
          bus }) ∧
      ∃ id ys, List.Perm ys xs ∧ u.world =
        ys.foldl (fun w y => code.stop (y.built code).1 w)
          (code.name id (m.stage.plantAll code xs).world).2 := by
  have hi := h.ok.inv
  obtain ⟨-, hattempt⟩ := allocate_attempt code parent t m.stage hi.table hi.neat
  rw [hfail] at hattempt
  obtain ⟨xs, gone, hattempt, hperm⟩ := hattempt e rfl
  obtain ⟨bus, hu, hgrown⟩ := hattempt.platform_eq hperm hi h.claimed
  refine ⟨xs, hattempt.begun, hattempt.free.apart,
    fun x hx => ⟨hattempt.free.vacant x hx, hattempt.free.below x hx⟩, ⟨bus, hu, hgrown⟩,
    fun hfree => ⟨bus, ?_⟩, hattempt.world_eq hi.neat hperm⟩
  have hsites (a : Address) (ha : a ∈ xs.map Site.address) :
      m.stage.platform.isBlocked a = false := by
    obtain ⟨x, hx, rfl⟩ := List.mem_map.mp ha
    exact hfree x hx
  obtain ⟨hblocked, hwaiting, hqueued⟩ := waiting_of_unblocked hi.queues hsites
  rw [hblocked, hwaiting, hqueued] at hu
  exact hu

end Moment

/-! ## A route that is lost -/

namespace Detour

/-- An actor with a child that cannot be placed, since its identifier is empty. -/
def template : Template App.sample :=
  .mk (some "a") () [] none [] [.mk (some "") () [] none [] []]

/-- An actor with two children, both in a group, of which the second cannot be placed. -/
def generations : Template App.sample :=
  .mk (some "a") () [] none ["group"]
    [.mk (some "c") () [] none ["group"] [], .mk (some "") () [] none ["group"] []]

/-- The gateway. -/
def gateway : Address :=
  .path (.child .root ⟨['g', 'w'], rfl⟩)

/-- The actor at the `gateway`. -/
def keeper : Template App.sample :=
  .mk (some "gw") () [] none ["group"] []

/-- The gateway is there, a member of the group that waits for a task, and its mail is put off.
Routes lead to it from the address of the child and from elsewhere. -/
def stage : Stage App.sample :=
  (((Moment.sample.afterwards Code.sample
    (Operation.spawn Code.sample keeper)).afterwards Code.sample
      (Operation.exec gateway .notify)).afterwards Code.sample
        (Operation.putRoute .sampleChild gateway)).afterwards Code.sample
          (Operation.putRoute .sampleMate gateway)

theorem reach_stage : Moment.Reach Code.sample (.between stage) :=
  (((Moment.reach_sample.perform 20 (.spawn keeper) rfl).perform 20
    (.exec gateway .notify) rfl).perform 20 (.putRoute .sampleChild gateway) rfl).perform 20
      (.putRoute .sampleMate gateway) rfl

/-- **Neither generation stays.** (`generations`) The actors, the groups, the slots and those that
are blocked are as before, and so is the route from elsewhere; the one from the address of the child
is gone, and two numbers of incarnations are used up. -/
theorem generations_taken_back : ∃ u : Stage App.sample, Moment.Reach Code.sample (.between stage) ∧
    stage.allocate Code.sample .root generations = (.error (.invalidId "" "empty id"), u) ∧
    stage.platform.contexts.keys = [gateway] ∧ stage.platform.pendingSlots = 1 ∧
    stage.platform.routes.entries = [(.sampleChild, gateway), (.sampleMate, gateway)] ∧
    u.platform.contexts = stage.platform.contexts ∧ u.platform.groups = stage.platform.groups ∧
    u.platform.pending = stage.platform.pending ∧ u.platform.blocked = stage.platform.blocked ∧
    u.platform.waitQueue = stage.platform.waitQueue ∧
    u.platform.routes.entries = [(.sampleMate, gateway)] ∧
    u.platform.nextGeneration = stage.platform.nextGeneration + 2 := by
  obtain ⟨u, hu, hroutes, hgenerations⟩ : ∃ u,
      stage.allocate Code.sample .root generations = (.error (.invalidId "" "empty id"), u) ∧
      u.platform.routes.entries = [(.sampleMate, gateway)] ∧
      u.platform.nextGeneration = stage.platform.nextGeneration + 2 := ⟨_, rfl, rfl, rfl⟩
  obtain ⟨xs, -, -, hvacant, -, hfree, -⟩ := Moment.allocation_taken_back reach_stage hu
  have hblocked (x : Site App.sample) (hx : x ∈ xs) :
      stage.platform.isBlocked x.address = false := by
    -- only the gateway is blocked, and that is no free site
    by_cases hg : x.address = gateway
    · exact nomatch (hg ▸ hvacant x hx).1
    · rw [← Bool.not_eq_true, isBlocked, Table.contains_eq, ← Table.mem_keys_iff]
      exact fun hkey => hg (List.mem_singleton.mp hkey)
  obtain ⟨bus, hp⟩ := hfree hblocked
  refine ⟨u, reach_stage, hu, rfl, rfl, rfl, ?_⟩
  rw [hroutes, hgenerations, hp]
  exact ⟨rfl, rfl, rfl, rfl, rfl, rfl, rfl⟩

/-- **A refused request takes a route away** that was put before, for the address at which the actor
was to live (`Platform.router?`). -/
theorem route_lost : ∃ s : Stage App.sample, Moment.Reach Code.sample (.between s) ∧
    s.platform.router? .sample = some gateway ∧
    (s.allocate Code.sample .root template).1 = .error (.invalidId "" "empty id") ∧
    (s.allocate Code.sample .root template).2.platform.router? .sample = none := by
  have hreach := Moment.reach_sample.perform 1 (.putRoute .sample gateway) rfl
  exact ⟨_, hreach, rfl, rfl, rfl⟩

end Detour

end Troupe
