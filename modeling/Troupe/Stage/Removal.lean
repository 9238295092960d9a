import Troupe.Stage.Basic

/-!
# Removing actors

An actor goes together with all actors below it (`Platform::terminate`), children before parents,
siblings in the order of their addresses (`Stage.terminate`, by `Stage.terminateWithin`). The root
is no actor: below it everything goes and the root stays.

* With its context go the memberships of an actor and the routes to its address and through it
  (`Platform.forget`, `State::remove`), the slots that were scheduled for it and its settled tasks
  (`Platform.unschedule`). Tasks that are not finished stay; their outcome is discarded then.
* The actor gets its last call at once (`Code.stop`). If its code is running just now, it is not in
  the context, and gets its last call when its code ends (`Flow.act`).
* Removing does not wait for anything and asks nobody. What the application does in `Code.stop` can
  change its own state only.

`Stage.terminateWithin` goes down a bounded number of steps, which is what its recursion is on;
`Stage.terminate` bounds it by the number of live actors, and no way down passes more. What is left
of a platform when a subtree is gone is `Platform.without`, and that it is just that is shown in
`Troupe.Proofs.Stage.Subtrees`.
-/

namespace Troupe

variable {κ : App}

/-- Removes a context, and the routes and memberships of its address (`State::remove`). -/
def Platform.forget (p : Platform κ) (a : Address) : Platform κ :=
  { p with
    contexts := p.contexts.erase a
    routes := p.routes.retain fun target router => target != a && router != a
    groups := (p.groups.mapValues fun _ set => set.erase a).retain fun _ set => !set.isEmpty }

namespace Stage

/-- Removes one actor, if it is alive (`terminate`). -/
def remove (code : Code κ) (a : Address) (s : Stage κ) : Stage κ :=
  match s.platform.context? a with
  | none => s
  | some c =>
    let world := match c.actor with
      | some actor => code.stop actor s.world
      | none => s.world
    let platform := ((s.platform.forget a).unschedule a).publish (.about .actorRemoved a)
    { s with platform, world }

/-- Removes an actor and those below it, going down at most `n` steps (`terminate`). Below the root,
which is no actor, it removes everything. -/
def terminateWithin (code : Code κ) : Nat → Address → Stage κ → Stage κ
  | 0, _, s => s
  | n + 1, a, s =>
    if s.platform.contains a then
      let s := (s.platform.directChildren a).foldl (fun s c => terminateWithin code n c s) s
      if a.isRoot then s else s.remove code a
    else s

/-- Removes an actor and all actors below it (`Platform::terminate`). No way down passes more actors
than are alive. -/
def terminate (code : Code κ) (a : Address) (s : Stage κ) : Stage κ :=
  terminateWithin code (s.platform.size + 1) a s

end Stage

end Troupe
