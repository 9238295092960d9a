import Troupe.Proofs.Watch.Comings
import Troupe.Proofs.Watch.Homes
import Troupe.Proofs.Watch.Takings
import Troupe.Proofs.Watch.Temporary

/-!
# What is known of a platform with a diary

At every moment in the life of a platform whose application keeps a diary (`Moment.Recorded`), the
lives of its actors are in order (`Recorded.lives`), its incarnations have begun to act on what they
took (`Recorded.attended`), there is a ledger of what they took (`Recorded.ledger`), and their
receivers are accounted for (`Recorded.receivers`). Between operations nothing is due
(`Recorded.settled_lives`, `Recorded.settled_attended`, `Recorded.settled_brief`).

Headlines:
* **`Recorded.acted`**: on what it took an incarnation has begun to act, but for one occasion at
  most, and between operations on all of it.
* **`Recorded.heard`**: the messages that were put somewhere are those of which the bus told that
  they were accepted.
* **`Recorded.accepted`**: between operations an incarnation has accepted all messages that came
  into its own hands.

The last section is a small platform with a diary (`Code.diarist`, `Moment.blank`).
-/

namespace Troupe

variable {κ : App}

open Platform Troupe.Flow

namespace Moment

variable {code : Code κ.recorded} {V : Event → Prop} {m : Moment κ.recorded} {s : Stage κ.recorded}
  {h : List (Stage κ.recorded)}

theorem Recorded.lives (hp : Recorded code V m h) (hpub : code.Publishes V) :
    ∃ x, Story x h m.stage :=
  Past.holds hp (upheld_lives hpub) (outlook_lives code V)

theorem Recorded.attended (hp : Recorded code V m h) (hpub : code.Publishes V) :
    ∃ x, Attended x h m.stage :=
  Past.holds hp (upheld_attended hpub) (outlook_attended code V)

theorem Recorded.ledger (hp : Recorded code V m h) (hpub : code.Publishes V) :
    ∃ x, ∀ a g, Ledger V a g x h m.stage :=
  Past.holds hp (upheld_ledger (Code.recorded_publishes hpub))
    (outlook_ledger _ fun _ _ hm => hm.bus)

theorem Recorded.drawn (hp : Recorded code V m h) (hpub : code.Publishes V) (a : Address)
    (g : Nat) : Drawn a g (m.stage :: h) := by
  obtain ⟨_, hdrawn⟩ := Past.holds hp (upheld_takes (Code.recorded_publishes hpub))
    (outlook_takes _ fun _ _ hm => hm.bus)
  exact hdrawn a g

theorem Recorded.receivers (hp : Recorded code V m h) (hpub : code.Publishes V) :
    (∀ a g, Stacked a g h m.stage) ∧ (m.stage :: h).IsChain fun t s => Handled V s t := by
  obtain ⟨_, hstacked⟩ := Past.holds hp (upheld_receivers (Code.recorded_publishes hpub))
    (outlook_receivers _ fun _ _ hm => hm.bus)
  exact hstacked

theorem Recorded.brief (hp : Recorded code V m h) (hpub : code.Publishes V) :
    ∃ x, Brief V x h m.stage := by
  obtain ⟨x, -, -, hbrief⟩ := Past.holds hp (upheld_brief hpub) (outlook_brief code V)
  exact ⟨x, hbrief⟩

theorem Recorded.tells (hp : Recorded code V m h) (hpub : code.Publishes V) : m.stage.Tells V := by
  obtain ⟨_, htells⟩ := Past.holds hp (upheld_comings (Code.recorded_publishes hpub))
    (outlook_comings _ fun _ _ hm => hm.bus)
  exact htells

/-- **Between operations** nobody is in hand (`Story`), and nobody is acting. -/
theorem Recorded.settled_lives (hp : Recorded code V (between s) h) (hpub : code.Publishes V) :
    Story none h s ∧ s.Unoccupied := by
  obtain ⟨hfit, hrest⟩ := Past.fit hp (upheld_lives hpub) (outlook_lives code V)
  exact ⟨hfit.holds, hrest⟩

/-- **Between operations** incarnations have begun to act on all that they took (`Attended`). -/
theorem Recorded.settled_attended (hp : Recorded code V (between s) h) (hpub : code.Publishes V) :
    Attended none h s :=
  (Past.fit hp (upheld_attended hpub) (outlook_attended code V)).1.holds

/-- **Between operations** temporary incarnations that are there have received nothing (`receipts`).
-/
theorem Recorded.settled_brief {a : Address} {c : Context κ.recorded}
    (hp : Recorded code V (between s) h) (hpub : code.Publishes V)
    (hc : s.platform.context? a = some c) (htemp : c.flags.temporary = true) :
    receipts a c.generation (s :: h) = [] := by
  obtain ⟨⟨-, ⟨-, ha, hb⟩, -⟩, -⟩ := Past.fit hp (upheld_brief hpub) (outlook_brief code V)
  have hactor := ((Past.reach hp).idle hc).1
  have hnone : Diary.begun a c.generation .mail s.world.2 = [] := by
    refine (hb.once a c hc htemp).resolve_right fun h => h.elim (fun hn => ?_) (by simp)
    simp [hn] at hactor
  refine (ha.begun a c.generation .mail).trans ?_
  rw [hnone]
  rfl

/-- **On what it took** (`takings`) an incarnation has begun to act, but for one occasion at most,
and between operations on all of it. -/
theorem Recorded.acted (hp : Recorded code V m h) (hpub : code.Publishes V) (a : Address) (g : Nat)
    (w : Way) : ∃ due, ((∃ s, m = between s) → due = []) ∧ due.length ≤ 1 ∧
      (takings a g w (m.stage :: h)).flatMap w.occasions =
        Diary.begun a g w m.stage.world.2 ++ due := by
  cases m with
  | between s => exact ⟨[], fun _ => rfl, by simp, (hp.settled_attended hpub).begun a g w⟩
  | amid f s =>
    obtain ⟨x, ha⟩ := hp.attended hpub
    exact ⟨_, fun ⟨_, he⟩ => absurd he (by simp), Due.length_errand a g w x, ha.begun a g w⟩

/-- **The messages that were put somewhere** (`posted`) are those of which the bus told that they
were accepted, but for one at most, and between operations all of them. -/
theorem Recorded.heard (hp : Recorded code V m h) (hpub : code.Publishes V) (a : Address)
    (g : Nat) : ∃ due, ((∃ s, m = between s) → due = []) ∧ due.length ≤ 1 ∧
      Echoes (∀ e, V e → e.kind ≠ .messageAccepted)
        ((posted a g (m.stage :: h)).map (fun y => .accepted a y.2) ++ due)
        (announced a g (m.stage :: h)) := by
  cases m with
  | between s =>
    have hl := (Past.fit hp (upheld_ledger (Code.recorded_publishes hpub))
      (outlook_ledger _ fun _ _ hm => hm.bus)).1.holds a g
    have hnone : (if s.platform.isCurrent a g then Due.announcement (κ := κ.recorded) a none
        else []) = [] := ite_self _
    exact ⟨[], fun _ => rfl, by simp, hnone ▸ hl.heard⟩
  | amid f s =>
    obtain ⟨x, hl⟩ := hp.ledger hpub
    refine ⟨_, fun ⟨_, he⟩ => absurd he (by simp), ?_, (hl a g).heard⟩
    split
    · exact Due.length_announcement a x
    · simp

/-- **Between operations** an incarnation has accepted all messages that came into its own hands
(`arrivals`). -/
theorem Recorded.accepted {a : Address} {c : Context κ.recorded}
    (hp : Recorded code V (between s) h) (hpub : code.Publishes V)
    (hc : s.platform.context? a = some c) : Diary.begun a c.generation .hand s.world.2 =
      (arrivals a c.generation .hand (s :: h)).map .accept := by
  obtain ⟨x, hledger⟩ := hp.ledger hpub
  have hbegun := (hp.settled_attended hpub).begun a c.generation .hand
  have hempty : c.waiting .hand = [] := ((Past.reach hp).idle hc).2.2
  have harrived := (hledger a c.generation).balance c hc rfl .hand
  rw [hempty, List.append_nil] at harrived
  rw [show Due.errand a c.generation .hand none = [] from rfl, List.append_nil,
    flatMap_hand] at hbegun
  rw [← hbegun]
  exact congrArg _ harrived.symm

end Moment

/-! ## A platform with a diary at work -/

/-- Its actors behave as told. A message in their own hands (`Hook.accept`) makes them tell
themselves another one if it is empty, and go away if it is true. -/
def Code.diarist (b : Behaviour) : Code App.sample.recorded where
  freshId w := ("fresh", w)
  build _ _ w := (((), 0), w)
  init _ w := (b, w)
  stop _ w := w
  judge _ _ w := (.stop, w)
  hook
    | _, .accept ⟨_, _, .null⟩, a => .ask (.tell a (.bool false)) fun _ => .done (.ok ())
    | _, .accept ⟨_, _, .bool true⟩, _ => .ask .exit fun _ => .done (.ok ())
    | _, _, _ => .done (.ok ())
  foreign _ _ _ := .done (.ok .nil)
  poll _ w := (.ready (.ok none), w)

/-- What actors are made from. -/
def Template.plain : Template App.sample.recorded :=
  .mk (some "a") () [] none [] []

/-- It publishes nothing of its own (`Code.Publishes`). -/
theorem diarist_publishes (V : Event → Prop) (b : Behaviour) : (Code.diarist b).Publishes V := by
  refine ⟨fun actor hook a => ?_, fun _ _ _ => trivial⟩
  unfold Code.diarist
  dsimp only
  split
  · exact ⟨fun _ he => absurd he (by simp), fun _ => trivial⟩
  · exact ⟨fun _ he => absurd he (by simp), fun _ => trivial⟩
  · trivial

namespace Moment

/-- The platform on which operations are tried, with nothing in the `Diary`. -/
def blank : Stage App.sample.recorded :=
  .new {} none [] ((), [])

/-- Spawning an actor (`Operation.spawn`) allocates it, which publishing an event does not. -/
theorem spawn_publishes (V : Event → Prop) (code : Code App.sample.recorded) :
    Operation.Publishes V (Operation.spawn code.recorded .plain) := by
  intro e next h
  have hstage := (Flow.set.inj (congrFun (Flow.get.inj h) blank)).1
  have hsize : 1 = 0 := congrArg (fun s => s.platform.contexts.size) hstage
  exact absurd hsize (by decide)

/-- Telling an actor something (`Operation.tell`) begins with looking for a router. -/
theorem tell_publishes (V : Event → Prop) (message : Message) :
    Operation.Publishes V (Operation.tell (κ := App.sample.recorded) .sample message) := by
  intro e next h
  exact nomatch congrFun (Flow.get.inj h) blank

theorem recorded_blank (b : Behaviour) (V : Event → Prop) :
    Recorded (Code.diarist b) V (between blank) [] :=
  .new {} none [] rfl

end Moment

end Troupe
