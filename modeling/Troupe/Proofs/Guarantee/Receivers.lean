import Troupe.Proofs.Watch.Recorded

/-!
# Receivers and what they receive

Whatever its hooks do, and whatever its script does while they run, the receivers of an incarnation
(`Context.receivers`) are accounted for (`Equipped`): at every moment they are the standing
receiver, if it has come with one (`Behaviour.matcher`), and on top of it the one-shot receivers
that are still open (`Platform.armReceiver`, the source's `arm_receiver`). Each message that is
received uses up the one on top (`Platform.takeMatch`), and nothing else does; and a `TEMPORARY`
actor receives once.

Headlines:
* **`takeMatch_standing`**: a standing receiver that nothing is on top of takes a message that it
  wants, and stays.
* **`Moment.equipped`**: at every moment the receivers of all incarnations are accounted for.
-/

namespace Troupe

variable {κ : App}

open Platform Troupe.Flow

/-- The receivers of an incarnation are accounted for up to a moment `m`, after the stages `h`. -/
structure Equipped (V : Event → Prop) (a : Address) (g : Nat) (m : Moment κ.recorded)
    (h : List (Stage κ.recorded)) : Prop where
  /-- Whoever is there has come with a behaviour. The receiver that is standing because of it is at
  the bottom, and what is open is on top. -/
  stack : ∀ c, m.stage.platform.context? a = some c → c.generation = g → ∃ n actor b tmpl,
    debut a g (m.stage :: h) = some (.new a g n actor b tmpl) ∧ c.flags = b.flags ∧
      c.receivers = openings a g (m.stage :: h) ++ b.standing
  /-- What is open was armed, and is in the order in which it was armed. -/
  opened : (openings a g (m.stage :: h)).Sublist (armings a g (m.stage :: h)) ∧
    ∀ r ∈ armings a g (m.stage :: h), r.standing = false
  /-- A receiver that is armed is put on top, for one message. -/
  arms : ∀ c matcher, m.stage.platform.context? a = some c → c.generation = g →
    (m.stage.platform.armReceiver a matcher).receivers a g = ⟨matcher, false⟩ :: c.receivers
  /-- A message is received because the receiver on top took it, which is gone then unless it is
  standing, and else receivers are armed at most. -/
  steps : (m.stage :: h).IsChain fun t s => Handled V s t
  /-- On what it received the incarnation has begun to act; between operations on all of it. -/
  acted : ∃ due, ((∃ s, m = .between s) → due = []) ∧ due.length ≤ 1 ∧
    receipts a g (m.stage :: h) = Diary.begun a g .mail m.stage.world.2 ++ due
  /-- Without a standing receiver, each message uses up one of those that were armed. -/
  bounded : ∀ n actor b tmpl, debut a g (m.stage :: h) = some (.new a g n actor b tmpl) →
    b.flags.immutable = false ∨ b.matcher = none →
      (receipts a g (m.stage :: h)).length + (openings a g (m.stage :: h)).length =
        (armings a g (m.stage :: h)).length
  /-- With one, it is there as long as the incarnation is; once nothing else is open, it takes what
  it wants, and stays. -/
  again : ∀ n actor b tmpl c matcher, debut a g (m.stage :: h) = some (.new a g n actor b tmpl) →
    b.flags.immutable = true → b.matcher = some matcher →
      m.stage.platform.context? a = some c → c.generation = g →
        c.receivers.getLast? = some ⟨matcher, true⟩ ∧
        ∀ env box tag, openings a g (m.stage :: h) = [] → c.mailbox = some (env :: box) →
          matcher.select env.message = some tag →
            ∃ p, m.stage.platform.takeMatch a = some (⟨tag, env, c.flags.temporary⟩, p) ∧
              p.context? a = some { c with mailbox := some box }
  /-- If it is temporary, it receives one message at most. -/
  once : ∀ n actor b tmpl, debut a g (m.stage :: h) = some (.new a g n actor b tmpl) →
    b.flags.temporary = true → (receipts a g (m.stage :: h)).length ≤ 1
  /-- When it has acted on that message it is removed next, and nothing happens before but beside
  the actors. -/
  parts : (m.stage :: h).IsChain fun t s => Parts V s t
  /-- Between operations it has received nothing, or is gone. -/
  parted : ∀ s c, m = .between s → s.platform.context? a = some c → c.generation = g →
    c.flags.temporary = true → receipts a g (s :: h) = []

/-- A receiver that is armed (`Platform.armReceiver`) is put on top. -/
theorem receivers_armReceiver {p : Platform κ} {a : Address} {c : Context κ}
    (hc : p.context? a = some c) (matcher : Matcher) :
    (p.armReceiver a matcher).receivers a c.generation = ⟨matcher, false⟩ :: c.receivers := by
  have harmed : (p.armReceiver a matcher).context? a =
      some { c with receivers := ⟨matcher, false⟩ :: c.receivers } := by
    unfold armReceiver
    rw [context?_scheduleMail, context?_modifyContext, if_pos rfl, hc]
    rfl
  exact receivers_eq harmed rfl

/-- **A standing receiver** (`Receiver.standing`) that nothing is on top of takes a message that it
wants, and stays. -/
theorem takeMatch_standing {p : Platform κ} {a : Address} {c : Context κ} {matcher : Matcher}
    {env : Envelope} {box : List Envelope} {tag : String} (hc : p.context? a = some c)
    (hreceivers : c.receivers = [⟨matcher, true⟩]) (hbox : c.mailbox = some (env :: box))
    (hselect : matcher.select env.message = some tag) :
    ∃ q, p.takeMatch a = some (⟨tag, env, c.flags.temporary⟩, q) ∧
      q.context? a = some { c with mailbox := some box } := by
  refine ⟨p.modifyContext a fun d => { d.mapMailbox List.tail with receivers := c.receivers },
    ?_, ?_⟩
  · unfold takeMatch
    rw [hc]
    show (c.receivers.head?.bind fun r => _) = _
    rw [hreceivers, hbox]
    show ((matcher.select env.message).bind fun tag => _) = _
    rw [hselect]
    rfl
  · rw [context?_modifyContext, if_pos rfl, hc, Option.map_some]
    unfold Context.mapMailbox
    rw [hbox]
    rfl

namespace Moment

variable {code : Code κ.recorded} {V : Event → Prop} {m : Moment κ.recorded}
  {h : List (Stage κ.recorded)}

/-- **Receivers are accounted for.** At every moment (`Equipped`) the receivers of an incarnation
are its standing one, if it has one, and on top of it those one-shot receivers that were not used up
by a message; it receives nothing in another way. -/
theorem equipped (hpub : code.Publishes V) (hp : Recorded code V m h) (a : Address) (g : Nat) :
    Equipped V a g m h := by
  obtain ⟨hstacked, hsteps⟩ := hp.receivers hpub
  have hs := hstacked a g
  obtain ⟨x, hbrief⟩ := hp.brief hpub
  have hstack (c : Context κ.recorded) (n : Nat) (actor : κ.recorded.Actor) (b : Behaviour)
      (tmpl : Template κ.recorded) (hc : m.stage.platform.context? a = some c)
      (hg : c.generation = g)
      (hd : debut a g (m.stage :: h) = some (.new a g n actor b tmpl)) :
      c.receivers = openings a g (m.stage :: h) ++ b.standing :=
    (receivers_new n actor b tmpl).1 ▸ hs.stack c _ hc hg hd
  refine
    { stack := fun c hc hg => ?stack
      opened := ⟨openings_sublist _, armings_oneShot _⟩
      arms := fun c matcher hc hg => hg ▸ receivers_armReceiver hc matcher
      steps := hsteps
      acted := hp.acted hpub a g .mail
      bounded := fun n actor b tmpl hd hb => hs.balance _ hd ?bounded
      again := fun n actor b tmpl c matcher hd him hmatcher hc hg => ?again
      once := fun n actor b tmpl hd htemp => ?once
      parts := hbrief.parts
      parted := fun s c hm hc hg htemp => ?parted }
  case stack =>
    obtain ⟨d, hd, hflags⟩ := hs.flags m.stage List.mem_cons_self c hc hg
    obtain ⟨n, actor, b, tmpl, rfl⟩ := hs.came d hd
    exact ⟨n, actor, b, tmpl, hd, hflags, hstack c n actor b tmpl hc hg hd⟩
  case bounded =>
    rw [(receivers_new n actor b tmpl).1]
    unfold Behaviour.standing
    rcases hb with hb | hb
    · rw [hb]
      rfl
    · rw [hb]
      exact ite_self _
  case again =>
    have hstanding : b.standing = [⟨matcher, true⟩] := by
      unfold Behaviour.standing
      rw [him, hmatcher]
      rfl
    have hreceivers := hstack c n actor b tmpl hc hg hd
    rw [hstanding] at hreceivers
    refine ⟨by rw [hreceivers, List.getLast?_concat], fun env box tag hopen hbox hselect => ?_⟩
    rw [hopen, List.nil_append] at hreceivers
    exact takeMatch_standing hc hreceivers hbox hselect
  case once =>
    refine (hbrief.ever a g).resolve_right ?_
    rintro ⟨r, hr, c, hc, hg, hlasts⟩
    obtain ⟨d, hd', hflags⟩ := hs.flags r hr c hc hg
    obtain rfl := Option.some.inj (hd'.symm.trans hd)
    exact absurd (hlasts.symm.trans ((congrArg Flags.temporary hflags).trans htemp)) (by simp)
  case parted =>
    subst hm hg
    exact hp.settled_brief hpub hc htemp

/-- Receives all flags, one after the other (`Behaviour.immutable`). -/
def devoted : Behaviour :=
  ⟨{ buffered := true, immutable := true }, some ⟨[.ofKind "flag" .bool]⟩⟩

/-- Two flags are received (`devoted`), what comes between them is dropped, and the receiver stays.
-/
theorem equipped_told : ∃ (s : Stage App.sample.recorded) (h : List (Stage App.sample.recorded)),
    Recorded (Code.diarist devoted) (fun e => e.kind ≠ .messageReceived) (between s) h ∧
      Equipped (fun e => e.kind ≠ .messageReceived) .sample 1 (between s) h ∧
      receipts .sample 1 (s :: h) = [.receive "flag" ⟨.sample, .discard, .bool true⟩,
        .receive "flag" ⟨.sample, .discard, .bool false⟩] ∧
      ∃ c, s.platform.context? .sample = some c ∧
        c.receivers = [⟨⟨[.ofKind "flag" .bool]⟩, true⟩] ∧
        ∃ n actor b tmpl, debut .sample 1 (s :: h) = some (.new .sample 1 n actor b tmpl) ∧
          c.receivers = openings .sample 1 (s :: h) ++ b.standing := by
  obtain ⟨_, hactor⟩ := Past.perform (recorded_blank devoted fun e => e.kind ≠ .messageReceived) 16
    (.spawn .plain) (spawn_publishes _ _) rfl
  obtain ⟨_, hflag⟩ := Past.perform hactor 16 (.tell .sample (.bool true)) (tell_publishes _ _) rfl
  obtain ⟨_, hnull⟩ := Past.perform hflag 16 (.tell .sample .null) (tell_publishes _ _) rfl
  obtain ⟨h, htold⟩ := Past.perform hnull 16 (.tell .sample (.bool false)) (tell_publishes _ _) rfl
  have hall := equipped (diarist_publishes _ _) htold .sample 1
  obtain ⟨due, hend, -, hacted⟩ := hall.acted
  obtain rfl := hend ⟨_, rfl⟩
  obtain ⟨n, actor, b, tmpl, hdebut, -, hstack⟩ := hall.stack _ rfl rfl
  exact ⟨_, h, htold, hall, hacted, _, rfl, rfl, n, actor, b, tmpl, hdebut, hstack⟩

end Moment

end Troupe
