import Troupe.Message.Render

/-!
# Application code

A platform runs actors that it knows nothing about. `App` names what an application brings along:
what builds actors (`App.Factory`), actors, traps, foreign functions of scripts, tasks, and the
state that all of its code shares (`App.World`). These are types and nothing else. The platform
carries their values around and never looks inside, so whatever is shown for every `App` holds of
all actors there can be.

What the values do is said by the code of the application (`Code`): what a factory builds, what an
actor does on each `Hook`, what a trap answers, how far a task is.

* `App.World` stands for all that closures and actors keep between calls and share with one another.
  An actor's own fields are part of it, and an `App.Actor` may be no more than a name for them.
* A `Template` is a recipe for an actor and the actors below it. `Stage.allocate` builds from it and
  `Flow.restart` builds again from the one that is kept in the context (`Context.template`), with
  the identifier that the actor has got (`Template.withId`).
-/

namespace Troupe

/-- The types of an application. What their values do is said by `Code`. -/
structure App where
  /-- What builds actors (`Factory`). -/
  Factory : Type
  /-- Actors (`Actor`). -/
  Actor : Type
  /-- What judges errors (`Trap`). -/
  Trap : Type
  /-- Functions that scripts call (`FunKind`). -/
  Foreign : Type
  /-- Work that is done beside the platform and ends in an outcome (`TaskFuture`). -/
  Task : Type
  /-- All state that the application keeps, its actors' included. -/
  World : Type

/-- A recipe for an actor (`Template`): its identifier (or none, for a fresh one), who builds it
with which arguments, its trap, the groups it joins and the recipes of its children. -/
inductive Template (κ : App)
  | mk (id : Option String) (factory : κ.Factory) (args : List Message) (trap : Option κ.Trap)
      (groups : List String) (children : List (Template κ))

namespace Template

variable {κ : App}

instance [Inhabited κ.Factory] : Inhabited (Template κ) := ⟨mk none default [] none [] []⟩

/-- The identifier, if one is given (`Template::id`). -/
def id : Template κ → Option String
  | mk id _ _ _ _ _ => id

/-- Who builds the actor (`instantiate`). -/
def factory : Template κ → κ.Factory
  | mk _ factory _ _ _ _ => factory

/-- What the actor is built with (`Template::args`). -/
def args : Template κ → List Message
  | mk _ _ args _ _ _ => args

/-- What judges errors of the actor (`Template::classify`). -/
def trap : Template κ → Option κ.Trap
  | mk _ _ _ trap _ _ => trap

/-- The groups that the actor joins (`Template::groups`). -/
def groups : Template κ → List String
  | mk _ _ _ _ groups _ => groups

/-- The recipes of the children (`Template::children`). -/
def children : Template κ → List (Template κ)
  | mk _ _ _ _ _ children => children

/-- The recipe with an identifier (`with_id`). -/
def withId (t : Template κ) (id : String) : Template κ :=
  mk (some id) t.factory t.args t.trap t.groups t.children

/-- The text of a recipe for diagnostics. -/
def inspect (t : Template κ) : String :=
  let id := match t.id with
    | some id => "Some(" ++ Text.quoted id ++ ")"
    | none => "None"
  "Template \x7b id: " ++ id ++
    ", args: [" ++ ", ".intercalate (Message.inspectItems t.args) ++
    "], trap: " ++ toString t.trap.isSome ++
    ", groups: [" ++ ", ".intercalate (t.groups.map Text.quoted) ++
    "], children: " ++ toString t.children.length ++ " \x7d"

end Template

end Troupe
