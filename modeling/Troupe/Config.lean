/-!
# Configuration

`Config` holds the knobs of a platform:

* `busCapacity`: how many events the bus keeps (`Bus.ofCapacity`). A zero is taken for one
  (`Config.busCapacityClamped`).
* `maxFrames`: how deep the frame stack of a machine may get (`Machine.pushFrame`). A zero is taken
  for `defaultMaxFrames` (`Config.frameLimit`).
* `logOps`: whether every instruction is published (`Flow.runMachine`).
* `handleSignals`: whether the main loop listens for signals (`Stage.interrupt?`).

The first is read when the platform is built (`Platform.new`), the second when an actor is
(`Stage.install`), the others while it works; none of them ever changes. `Config.ofMessage` reads a
configuration, with these defaults for what is not given.
-/

namespace Troupe

/-- The frame limit where none is given (`DEFAULT_MAX_FRAMES`). -/
def defaultMaxFrames : Nat := 256

/-- The knobs of a platform (`Config`). -/
structure Config where
  /-- How many events the bus keeps (`bus_capacity`). -/
  busCapacity : Nat := 1024
  /-- How deep calls may nest in one actor (`max_frames`). -/
  maxFrames : Nat := defaultMaxFrames
  /-- Whether every instruction publishes an event (`log_ops`). -/
  logOps : Bool := false
  /-- Whether the main loop listens for operating system signals (`handle_signals`). -/
  handleSignals : Bool := false
  deriving DecidableEq, Inhabited

namespace Config

/-- The bus capacity that is used (`bus_capacity_clamped`). -/
def busCapacityClamped (c : Config) : Nat :=
  max c.busCapacity 1

/-- The frame limit that is used (`frame_limit`). -/
def frameLimit (c : Config) : Nat :=
  if c.maxFrames = 0 then defaultMaxFrames else c.maxFrames

end Config

end Troupe
