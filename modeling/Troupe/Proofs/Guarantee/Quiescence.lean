import Troupe.Proofs.Watch.Recorded

/-!
# Between operations nothing is under way

Actors and their machines are taken out and put back in nested ways (`checkout_instance`,
`checkout_runtime`): a hook sends a message, whoever gets it sends one back, is removed and comes
again. Whatever happens meanwhile, once an operation has returned everybody is at hand again, and
nothing is held back for anybody (`Platform.Resting`).

* That loans are paid back is what `Platform.Quiet` and `Quiet.repaid` say of work; that nobody idle
  keeps a backlog is kept track of (`Moment.Reach.idle`).
* A slot is put back if the machine of its actor is out when its turn comes (`run_slot`). That never
  happens, since no hook and no script can drain the platform (`Moment.Reach.undeferred`).
* A message that was held back for an actor's own hands has been accepted by then, since the backlog
  is given out when the actor is at hand again (`flush_backlog`).

Headlines:
* **`Moment.quiescent`**: between operations nothing is under way, a slot whose turn has come finds
  the machine of its actor at hand, and messages that were held back have been accepted.
* `Moment.Reach.resting`: everybody is at hand between operations.
-/

namespace Troupe

variable {κ : App} {α : Type}

open Platform Troupe.Flow

/-- Nothing is under way: no slot is running (`Platform.running`), actors and their machines are at
hand, there is no script on a machine and nothing on its heap, and no message is held back. -/
structure Platform.Resting (p : Platform κ) : Prop where
  running : ∀ a, p.running.contains a = false
  actors : ∀ a c, p.context? a = some c → c.actor.isSome = true
  machines : ∀ a c, p.context? a = some c → ∃ m, c.machine = some m ∧ m.depth = 0 ∧ m.heap.live = 0
  backlogs : ∀ a c, p.context? a = some c → c.backlog = []

namespace Moment

variable {code : Code κ} {s : Stage κ} {a : Address}

theorem Reach.resting (hr : Reach code (between s)) : s.platform.Resting := by
  obtain ⟨hinv, hcalm⟩ := hr.ok
  refine ⟨hcalm.settled.quiet.running, fun a c hc => (hr.idle hc).1, fun a c hc => ?_,
    fun a c hc => (hr.idle hc).2.2⟩
  obtain ⟨m, hm⟩ := Option.isSome_iff_exists.mp (hr.idle hc).2.1
  have hrest := hinv.machines a c m hc hm
  refine ⟨m, hm, congrArg List.length hrest.frames, ?_⟩
  rw [hrest.sound.live_eq, hrest.frames]
  rfl

/-- When its turn has come, a slot finds the machine at hand, and is not put back
(`Platform.putBackSlot`). -/
theorem Reach.undeferred {next : Unit → Flow κ α} {slot : Slot κ} {q : Platform κ}
    (hr : Reach code (amid (.call .drain next) s)) (hslot : s.platform.turn = .slot a slot q) :
    (∀ c, q.context? a = some c → c.machine.isSome = true) ∧
      ∀ deferred t, Advances (body code) (runSlot a slot, { s with platform := q })
        (.done deferred, t) → deferred = false := by
  obtain ⟨hinv, hsettled, -⟩ := hr.ok
  have hs : s.platform.Settled := hsettled
  obtain ⟨hturn, hmachine, hawake⟩ := hs.begin hinv hslot
  have hq : q.Inv := Inv.outer (V := Event.Any) hturn.rounds.outer hinv
  refine ⟨fun c hc => ?_, fun deferred t hrun => ?_⟩
  · by_contra hn
    exact hmachine c.generation ⟨c, hc, rfl, by simpa using hn⟩
  · have hmeets := runSlot_meets (V := Event.Any) (s := { s with platform := q }) hq hmachine
      (.begin hslot (hinv.awake_of_quiet hs.quiet a))
    obtain ⟨-, -, hend⟩ := hrun.meets (R := WithinOuter Event.Any)
      (honours_discipline code.publishes_any) (fun _ => Outer.refl _) (fun _ _ _ => Outer.trans)
      (fun _ _ => Inv.outer) (fun _ _ _ => withinOuter_of_moves) hq
      (hmeets.mono (fun _ _ h => (Nested.rounds h).outer) fun _ _ h => h)
    exact hend.1

/-- **Between operations nothing is under way.** (`Platform.Resting`) Whenever a slot's turn has
come, the machine is at hand, so the slot is never put back. And all messages that came into the
hands of an incarnation that is still there, also those that were held back while it was busy, have
been handed to it. -/
theorem quiescent (code : Code κ) (recording : Code κ.recorded) :
    (∀ s, Reach code (between s) → s.platform.Resting) ∧
    (∀ {α : Type} (next : Unit → Flow κ α) (s : Stage κ) (a : Address) (slot : Slot κ)
      (q : Platform κ), Reach code (amid (.call .drain next) s) → s.platform.turn = .slot a slot q →
        (∀ c, q.context? a = some c → c.machine.isSome = true) ∧
          ∀ deferred t, Advances (body code) (runSlot a slot, { s with platform := q })
            (.done deferred, t) → deferred = false) ∧
    (∀ (s : Stage κ.recorded) (h : List (Stage κ.recorded)),
      Recorded recording Event.Any (between s) h → ∀ a c, s.platform.context? a = some c →
        Diary.begun a c.generation .hand s.world.2 =
          (arrivals a c.generation .hand (s :: h)).map .accept) :=
  ⟨fun _ hr => hr.resting, fun _ _ _ _ _ hr hslot => hr.undeferred hslot,
    fun _ _ hp _ _ hc => hp.accepted recording.publishes_any hc⟩

/-- A message that an actor tells itself while it accepts another is held back (`Context.backlog`),
and accepted then. -/
theorem quiescent_told :
    (∃ s t : Stage App.sample, Reach Code.sample (between s) ∧ s.platform.isLive .sample = true ∧
      s.platform.Resting ∧ ∃ next : Unit → Flow App.sample (Except PlatformError Unit), ∃ slot q,
        Reach Code.sample (amid (.call .drain next) t) ∧ t.platform.turn = .slot .sample slot q ∧
          ∀ deferred u, Advances (body Code.sample) (runSlot .sample slot, { t with platform := q })
            (.done deferred, u) → deferred = false) ∧
    ∃ (s : Stage App.sample.recorded) (h : List (Stage App.sample.recorded)),
      Recorded (Code.diarist .direct) Event.Any (between s) h ∧ s.platform.isLive .sample = true ∧
        (arrivals .sample 1 .hand (s :: h)).map Hook.accept =
          [.accept ⟨.sample, .discard, .null⟩, .accept ⟨.sample, .sample, .bool false⟩] := by
  obtain ⟨hrest, hslot, hhanded⟩ := quiescent Code.sample (Code.diarist .direct)
  have hspawned := reach_sample.perform 8 (.spawn .sample) rfl
  have hrun := hspawned.perform 8 .run rfl
  have hdrain := hrun.later (.head (.begin (.exec .sample .notify))
    (Later.advances (.head .get (.head .get (.head .set .refl)))))
  obtain ⟨_, hactor⟩ := Past.perform (recorded_blank .direct Event.Any) 12 (.spawn .plain)
    (Operation.publishes_any _) rfl
  obtain ⟨h, htold⟩ := Past.perform hactor 12 (.tell .sample .null) (Operation.publishes_any _) rfl
  exact ⟨⟨_, _, hrun, rfl, hrest _ hrun, _, _, _, hdrain, rfl, (hslot _ _ _ _ _ hdrain rfl).2⟩,
    _, h, htold, rfl, (hhanded _ h htold .sample _ rfl).symm.trans rfl⟩

end Moment

end Troupe
