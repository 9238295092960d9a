import Troupe.Message.Matcher

/-!
# Behaviours

How an actor takes its messages is settled when it is built (`Actor::init`, `Code.init`), and does
not change while it lives:

* A *direct* actor accepts each message as it comes (`Behaviour.direct`).
* A *buffered* one keeps them in a mailbox until a receiver asks (`Behaviour.buffered`). A behaviour
  may carry the matcher of a first receiver, which stands for good if the actor is *immutable*
  (`Behaviour.immutable`).
* A *temporary* actor goes away after its first received message (`Behaviour.temporary`,
  `Match.temporary`).
* A *router* takes messages transferred to it directly even if it is buffered (`Behaviour.router`,
  `Flow.deliverAt`). Who is not a router in this sense can still be the router of a route.

`Flags` holds these properties, which an actor may combine as it likes; `Context.new` reads them.
`Flags.bits` packs them into a number, and `Flags.ofBits_bits` says that nothing is lost.
-/

namespace Troupe

/-- The properties of a behaviour (`Flags`). -/
structure Flags where
  immutable : Bool := false
  buffered : Bool := false
  temporary : Bool := false
  router : Bool := false
  deriving DecidableEq, Inhabited

namespace Flags

/-- The flags as a number, one bit each (`Flags::bits`). -/
def bits (f : Flags) : Nat :=
  f.immutable.toNat + 2 * f.buffered.toNat + 4 * f.temporary.toNat + 8 * f.router.toNat

/-- The flags of a number's lowest four bits (`Flags`). -/
def ofBits (n : Nat) : Flags :=
  ⟨n.testBit 0, n.testBit 1, n.testBit 2, n.testBit 3⟩

theorem ofBits_bits (f : Flags) : ofBits f.bits = f := by
  obtain ⟨a, b, c, d⟩ := f
  cases a <;> cases b <;> cases c <;> cases d <;> rfl

end Flags

/-- How an actor takes its messages (`Behaviour`). -/
structure Behaviour where
  flags : Flags
  matcher : Option Matcher

namespace Behaviour

/-- Accepts each message as it comes (`Behaviour::direct`). -/
def direct : Behaviour :=
  ⟨{}, none⟩

/-- Keeps messages until a receiver asks (`Behaviour::buffered`). -/
def buffered : Behaviour :=
  ⟨{ buffered := true }, none⟩

/-- Keeps messages and always receives with one matcher (`Behaviour::immutable`). -/
def immutable (m : Matcher) : Behaviour :=
  ⟨{ immutable := true, buffered := true }, some m⟩

/-- Keeps messages and goes away after the first that the matcher takes (`Behaviour::temporary`). -/
def temporary (m : Matcher) : Behaviour :=
  ⟨{ temporary := true, buffered := true }, some m⟩

/-- Takes transferred messages directly (`Behaviour::router`). -/
def router (b : Behaviour) : Behaviour :=
  { b with flags := { b.flags with router := true } }

end Behaviour

instance : Inhabited Behaviour := ⟨.direct⟩

end Troupe
