import Troupe.Proofs.Watch.Recorded

/-!
# Messages in an actor's own hands

An actor that is not buffered takes messages in its own hands (`Flow.deliverAt`, the source's
`deliver_at`), and so does a router with those that are meant for others. They are held back first
(`Context.backlog`), and handed over at once if the actor is at hand, or else when its code has run
(`Flow.flushBacklog`, the source's `flush_backlog`). Whatever goes on meanwhile, it accepts them
once each and in the order in which they came.

What came into its hands is read off the past (`arrivals`, with `Way.hand`), what it has begun to
accept off the diary (`Diary.begun`). At every moment what it took is what it has begun to act on,
but for one occasion (`Recorded.acted`), and between operations nothing is held back
(`Recorded.accepted`).

Headline:
* **`Moment.accepted_in_order`**: an incarnation accepts the messages that came into its hands in
  order, and between operations it has accepted all of them.
-/

namespace Troupe.Moment

variable {κ : App} {code : Code κ.recorded} {V : Event → Prop} {m : Moment κ.recorded}
  {h : List (Stage κ.recorded)}

open Platform Troupe.Flow

/-- **Messages are accepted in order.** What an incarnation has begun to accept (`Diary.begun`) is
the beginning of what came into its hands, and between operations, as long as it is there, all of
it. Messages that are not for the mailbox come into its hands, in the order in which the bus told
that they were accepted; at most one of these is still on its way. -/
theorem accepted_in_order (hpub : code.Publishes V) (hp : Recorded code V m h) (a : Address)
    (g : Nat) :
    Diary.begun a g .hand m.stage.world.2 <+: (arrivals a g .hand (m.stage :: h)).map .accept ∧
    (∀ s, m = between s → s.platform.isCurrent a g = true →
      Diary.begun a g .hand s.world.2 = (arrivals a g .hand (s :: h)).map .accept) ∧
    (∀ c, m.stage.platform.context? a = some c → c.generation = g →
      ∀ y ∈ posted a g (m.stage :: h), y.1 = c.way a y.2) ∧
    (∃ due, ((∃ s, m = between s) → due = []) ∧ due.length ≤ 1 ∧
      Echoes (∀ e, V e → e.kind ≠ .messageAccepted)
        ((posted a g (m.stage :: h)).map (fun y => .accepted a y.2) ++ due)
        (announced a g (m.stage :: h))) := by
  obtain ⟨x, hl⟩ := hp.ledger hpub
  refine ⟨?_, fun s hs hcur => ?_, (hl a g).ways, hp.heard hpub a g⟩
  · obtain ⟨due, -, -, hacted⟩ := hp.acted hpub a g .hand
    have hbegun : Diary.begun a g .hand m.stage.world.2 <+:
        ((takings a g .hand (m.stage :: h)).map Prod.fst).map .accept :=
      flatMap_hand _ ▸ hacted ▸ List.prefix_append _ _
    exact hbegun.trans (((hl a g).behind .hand).map _)
  · subst hs
    obtain ⟨c, hc, rfl⟩ := isCurrent_iff.mp hcur
    exact hp.accepted hpub hc

/-- A message that an actor tells itself while it accepts another is accepted after it
(`Behaviour.direct`). -/
theorem accepted_told : ∃ (s : Stage App.sample.recorded) (h : List (Stage App.sample.recorded)),
    Recorded (Code.diarist .direct) (fun e => e.kind ≠ .messageAccepted) (between s) h ∧
      s.platform.isCurrent .sample 1 = true ∧
      (arrivals .sample 1 .hand (s :: h)).map Hook.accept =
        [.accept ⟨.sample, .discard, .null⟩, .accept ⟨.sample, .sample, .bool false⟩] ∧
      announced .sample 1 (s :: h) =
        (posted .sample 1 (s :: h)).map fun y => .accepted .sample y.2 := by
  obtain ⟨_, hactor⟩ := Past.perform (recorded_blank .direct fun e => e.kind ≠ .messageAccepted) 12
    (.spawn .plain) (spawn_publishes _ _) rfl
  obtain ⟨h, htold⟩ := Past.perform hactor 12 (.tell .sample .null) (tell_publishes _ _) rfl
  obtain ⟨-, hall, -, due, hend, -, hheard⟩ :=
    accepted_in_order (diarist_publishes _ _) htold .sample 1
  obtain rfl := hend ⟨_, rfl⟩
  exact ⟨_, h, htold, rfl, (hall _ rfl rfl).symm.trans rfl,
    (hheard.eq fun _ he => he).trans (List.append_nil _)⟩

end Troupe.Moment
