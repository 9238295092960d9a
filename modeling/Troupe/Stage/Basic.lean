import Troupe.Capability
import Troupe.Event.Audience
import Troupe.Platform.Mail

/-!
# The stage

A `Stage` is a platform together with everything around it that its work can change: the state of
the application (`App.World`), and the audience of the bus with its listener (`Listener`). All work
of a platform is a function or a `Flow` on stages.

* `Stage.new` is where the life of a platform begins (`PlatformBuilder::build`). Without subscribers
  there is no listener, so nobody reads the bus on their behalf.
* `Stage.edit` changes the platform only. Everything in `Troupe.Platform` reaches the stage this
  way.
* `Stage.pause` and `Stage.settle` let the audience work (`Listener.pause`, `Listener.settle`). The
  first happens while the main loop waits for tasks (`Flow.awaitTask`), the second between
  operations. What the audience does at other times is `Moment.Next.meanwhile`.
* `Stage.interrupt?` is what ends the wait of the main loop for its tasks (the arms of `select!`
  that are no task): `Code.interrupt` says that the platform was cancelled or a signal came, and a
  signal counts if `Config.handleSignals` asks for it (`shutdown_requested`).
-/

namespace Troupe

/-- A platform with its surroundings: the application's state (`App.World`) and the audience
(`Listener`). -/
structure Stage (κ : App) where
  platform : Platform κ
  world : κ.World
  listener : Option Listener

namespace Stage

variable {κ : App}

/-- A platform without actors, heard by these subscribers (`PlatformBuilder::build`). -/
def new (config : Config) (rootTrap : Option κ.Trap) (subs : List Subscriber) (w : κ.World) :
    Stage κ :=
  let p := Platform.new config rootTrap
  if subs.isEmpty then ⟨p, w, none⟩
  else
    let (receiver, bus) := p.bus.subscribe
    ⟨{ p with bus }, w, some ⟨receiver, .ofSubscribers subs⟩⟩

/-- Changes the platform (`Stage.platform`). -/
def edit (s : Stage κ) (f : Platform κ → Platform κ) : Stage κ :=
  { s with platform := f s.platform }

/-- What interrupts a platform that waits (`shutdown_requested`). Signals do so only if the main
loop listens for them. -/
def interrupt? (code : Code κ) (s : Stage κ) : Option Interrupt :=
  (code.interrupt s.world).filter fun i => i ≠ .signal || s.platform.config.handleSignals

/-- Lets the listener and its audience do something with the bus (`Listener`). -/
def listen (s : Stage κ) (f : Listener → Bus → Bus × Listener) : Stage κ :=
  match s.listener with
  | none => s
  | some l =>
    let (bus, l) := f l s.platform.bus
    { s with platform := { s.platform with bus }, listener := some l }

/-- Gives the audience a pause of the platform (`Listener.pause`). -/
def pause (s : Stage κ) : Stage κ :=
  s.listen Listener.pause

/-- Lets the audience take in all that was published (`Listener.settle`). -/
def settle (s : Stage κ) : Stage κ :=
  s.listen Listener.settle

end Stage

end Troupe
