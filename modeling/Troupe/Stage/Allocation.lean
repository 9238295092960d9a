import Troupe.Stage.Removal

/-!
# Allocating actors

An actor is allocated under a live parent, or under the root, from its template (`alloc_actor`,
`Stage.allocate`):

* It is placed (`Stage.place`): the parent has to be there (`PlatformError.notFound`), the
  identifier of the template, or a fresh one (`Code.freshId`), has to make an address
  (`Address.make`), and nobody may live at it (`PlatformError.duplicateAddress`). Faults are found
  in this order.
* It is built and asked for its behaviour (`Code.build`, `Code.init`), and gets a context with the
  next generation; that is published, and it joins the groups of its template (`Stage.install`).
* Then its children are allocated the same way, in order (`Stage.allocateAll`). If one of them
  cannot be, the actor is removed again with all that was allocated below it (`Stage.terminate`),
  and the error is the answer.

Nothing is started, and no code of the application runs that could ask the platform for anything. So
what allocating comes to can be said beforehand (`Template.plan`): see `Troupe.Proofs.Stage.Plans`
and `Troupe.Proofs.Stage.Attempts`. What a failed attempt leaves behind, the generations that it has
used and the routes that a removal took along, is said in `Troupe.Proofs.Guarantee.Rollbacks`.
-/

namespace Troupe.Stage

variable {κ : App}

/-- The address of a new actor under `parent`, or why there can be none (`Address::make`). An actor
without an identifier of its own gets a fresh one. -/
def place (code : Code κ) (parent : Address) (id : Option String) (s : Stage κ) :
    Except PlatformError (String × Address) × Stage κ :=
  if !s.platform.contains parent then (.error (.notFound parent), s)
  else
    let (id, world) := match id with
      | some id => (id, s.world)
      | none => code.freshId s.world
    let s := { s with world }
    match Address.make parent id with
    | .error e => (.error e, s)
    | .ok a =>
      if s.platform.isLive a then (.error (.duplicateAddress a), s)
      else (.ok (id, a), s)

/-- Builds the actor of a template at an address and lets it join its groups (`alloc_actor`). -/
def install (code : Code κ) (a : Address) (template : Template κ) (s : Stage κ) : Stage κ :=
  let (actor, world) := code.build template.factory template.args s.world
  let (behaviour, world) := code.init actor world
  let p := s.platform
  let generation := p.nextGeneration
  let context := Context.new a generation p.config.frameLimit actor behaviour template
  let p := { p with
    nextGeneration := generation + 1
    contexts := p.contexts.insert a context }
  let p := p.publish (.about .actorAllocated a)
  let p := template.groups.foldl (fun p g => (p.putMember g a).2) p
  { s with platform := p, world }

mutual

/-- Allocates the actors of a template under `parent` (`alloc_actor`); answers the address of the
topmost. -/
def allocate (code : Code κ) (parent : Address) :
    Template κ → Stage κ → Except PlatformError Address × Stage κ
  | .mk id factory args trap groups children, s =>
    match s.place code parent id with
    | (.error e, s) => (.error e, s)
    | (.ok (id, a), s) =>
      let s := s.install code a (.mk (some id) factory args trap groups children)
      match allocateAll code a children s with
      | (none, s) => (.ok a, s)
      | (some e, s) => (.error e, s.terminate code a)

/-- Allocates the actors of several templates under `parent`, up to the first error. -/
def allocateAll (code : Code κ) (parent : Address) :
    List (Template κ) → Stage κ → Option PlatformError × Stage κ
  | [], s => (none, s)
  | t :: ts, s =>
    match allocate code parent t s with
    | (.error e, s) => (some e, s)
    | (.ok _, s) => allocateAll code parent ts s

end

end Troupe.Stage
