import Troupe.Proofs.Watch.Recorded

/-!
# Messages in a mailbox

Whoever sends to a buffered actor (`Flow.route`, the source's `route_message`), and whatever its
receivers and its script take meanwhile (`Platform.takeMatch`, `take_match`), its mailbox is a
queue: nothing is lost, doubled or put in another order. `Queued` says so of one incarnation:

* What came in is what was taken, followed by what is still there (`Queued.balance`); after its end,
  what was taken is the beginning of what came in (`Queued.behind`). What came in is read off the
  past (`arrivals`, with `Way.mail`), and so is what was taken out (`takings`).
* A message is taken by a receiver, dropped, or taken by the script (`Queued.drawn`), and the bus
  tells of the first two (`Queued.fates`).
* Those that receivers took are received in order, but for one at most that has been taken and is
  about to be (`Queued.received`); messages of one sender in the order in which it sent them
  (`Queued.senders`).
* A message goes into the mailbox at once when it is sent (`Queued.sent`), and past it only if it is
  transferred to a router (`Queued.ways`).

Headlines:
* **`Flow.perform_route`**: a message that is not routed is put at the end of the mailbox at once.
* **`Moment.queued`**: at every moment the mailboxes of all incarnations are queues, and their
  messages came in the order in which the bus told that they were accepted.
* `Moment.Recorded.mailbox`: what came in is what was taken out, and the mailbox behind it.
-/

namespace Troupe

variable {κ : App}

open Platform Troupe.Flow

/-- The mailbox of an incarnation has been a queue up to a moment `m`, after the stages `h`. -/
structure Queued (code : Code κ.recorded) (a : Address) (g : Nat) (m : Moment κ.recorded)
    (h : List (Stage κ.recorded)) : Prop where
  /-- What came is what was taken, followed by what is still there. -/
  balance : ∀ c, m.stage.platform.context? a = some c → c.generation = g →
    arrivals a g .mail (m.stage :: h) =
      (takings a g .mail (m.stage :: h)).map Prod.fst ++ c.mailbox.getD []
  /-- Also of an incarnation that has gone, what was taken is the beginning of what came. -/
  behind : (takings a g .mail (m.stage :: h)).map Prod.fst <+: arrivals a g .mail (m.stage :: h)
  /-- It is a receiver or the script that takes a message, or else it is dropped. -/
  drawn : Drawn a g (m.stage :: h)
  /-- The bus told once of each message that a receiver took or that was dropped. -/
  fates : ∀ y ∈ takings a g .mail (m.stage :: h), Fate a y
  /-- Those that receivers took are received, in order; between operations all of them have been. -/
  received : ∃ due, ((∃ s, m = .between s) → due = []) ∧ due.length ≤ 1 ∧
    (takings a g .mail (m.stage :: h)).flatMap Way.mail.occasions =
      Diary.begun a g .mail m.stage.world.2 ++ due
  /-- Messages of one sender that are meant for the actor are received in the order in which they
  came. -/
  senders : ∀ source, List.Sublist
    (((Diary.begun a g .mail m.stage.world.2).filterMap Hook.envelope).filter fun env =>
      env.source = source ∧ env.target = a)
    ((arrivals a g .mail (m.stage :: h)).filter fun env => env.source = source ∧ env.target = a)
  /-- Nothing goes past the mailbox of a buffered actor but what is transferred to a router. -/
  ways : ∀ c, m.stage.platform.context? a = some c → c.generation = g →
    ∀ y ∈ posted a g (m.stage :: h), y.1 = c.way a y.2
  /-- A message that is sent to it and not routed is accepted and put at the end, before anything
  else happens. -/
  sent : ∀ c env, m.stage.platform.context? a = some c → c.generation = g → c.isBuffered = true →
    env.target = a → a.isDiscard = false → m.stage.platform.router? a = none →
      ∃ t, Flow.perform (body code.recorded) 0 (Flow.route env) m.stage = some (true, t) ∧
        m.stage.platform.bus.since t.platform.bus = [.accepted a env] ∧
        t.platform.waiting a g .mail = m.stage.platform.waiting a g .mail ++ [env]

namespace Flow

variable {α β : Type} {body : (c : Call κ) → Flow κ c.Answer} {n : Nat} {s : Stage κ}

/-- **A message that is not routed** (`Flow.route`) is accepted and put at the end of the mailbox,
before anything else happens. -/
theorem perform_route {env : Envelope} {c : Context κ} (htarget : env.target.isDiscard = false)
    (hrouter : s.platform.router? env.target = none)
    (hc : s.platform.context? env.target = some c) (hbox : c.isBuffered = true) :
    ∃ t, perform body n (route env) s = some (true, t) ∧
      s.platform.bus.since t.platform.bus = [.accepted env.target env] ∧
      t.platform.waiting env.target c.generation .mail =
        s.platform.waiting env.target c.generation .mail ++ [env] := by
  refine ⟨(s.edit (·.publish (.accepted env.target env))).edit fun p =>
    (p.putMail env.target env).scheduleMail env.target, ?_, ?_, ?_⟩
  · unfold route
    rw [htarget, if_neg Bool.false_ne_true, perform_ask, hrouter]
    dsimp only
    unfold deliver deliverAt
    rw [perform_ask, hc]
    dsimp only
    rw [perform_edit, hbox]
    exact perform_edit _ _
  · show s.platform.bus.since
      (((s.platform.publish _).putMail env.target env).scheduleMail _).bus = _
    obtain ⟨_, _, _, _, hlook⟩ := scheduleMail_eq
      ((s.platform.publish (.accepted env.target env)).putMail env.target env) env.target
    rw [hlook]
    exact since_publish _ _
  · obtain ⟨box, hbox⟩ := Option.isSome_iff_exists.mp hbox
    have hput : ((s.platform.publish (.accepted env.target env)).putMail env.target env).context?
        env.target = some (c.mapMailbox (· ++ [env])) := by
      unfold putMail
      rw [context?_modifyContext, if_pos rfl]
      exact congrArg (Option.map _) hc
    rw [Ledger.waiting_eq hc rfl]
    refine (Ledger.waiting_eq (context?_scheduleMail.trans hput) rfl .mail).trans ?_
    unfold Context.waiting Context.mapMailbox
    rw [hbox]
    rfl

end Flow

namespace Moment

variable {code : Code κ.recorded} {V : Event → Prop} {m : Moment κ.recorded}
  {h : List (Stage κ.recorded)}

theorem Recorded.mailbox (hp : Recorded code V m h) (hpub : code.Publishes V) (a : Address)
    (g : Nat) : Queued code a g m h := by
  obtain ⟨x, hl⟩ := hp.ledger hpub
  obtain ⟨due, hend, hlen, hacted⟩ := hp.acted hpub a g .mail
  refine ⟨fun c hc hg => (hl a g).balance c hc hg .mail, (hl a g).behind .mail, hp.drawn hpub a g,
    (hl a g).fates, ⟨due, hend, hlen, hacted⟩, fun source => ?_, (hl a g).ways,
    fun c env hc hg hbox htarget hdiscard hrouter => ?_⟩
  · have hbegun : (Diary.begun a g .mail m.stage.world.2).Sublist
        ((takings a g .mail (m.stage :: h)).flatMap Way.mail.occasions) :=
      hacted ▸ List.sublist_append_left _ _
    have hreceived := (hbegun.filterMap Hook.envelope).trans (receipts_sublist (hl a g).fates)
    exact (hreceived.trans ((hl a g).behind .mail).sublist).filter _
  · subst htarget hg
    exact perform_route hdiscard hrouter hc hbox

/-- **Mailboxes are queues.** At every moment the mailbox of an incarnation has been a queue
(`Queued`), and its messages came in the order in which the bus told that they were accepted; at
most one of these is still on its way. -/
theorem queued (hpub : code.Publishes V) (hp : Recorded code V m h) (a : Address) (g : Nat) :
    Queued code a g m h ∧
    ∃ due, ((∃ s, m = between s) → due = []) ∧ due.length ≤ 1 ∧
      Echoes (∀ e, V e → e.kind ≠ .messageAccepted)
        ((posted a g (m.stage :: h)).map (fun y => .accepted a y.2) ++ due)
        (announced a g (m.stage :: h)) :=
  ⟨hp.mailbox hpub a g, hp.heard hpub a g⟩

/-- Receives one flag, and keeps what comes after it (`Behaviour.buffered`). -/
def heeding : Behaviour :=
  ⟨{ buffered := true }, some ⟨[.ofKind "flag" .bool]⟩⟩

/-- What is no flag is dropped, the first flag is received (`heeding`), and the second stays in the
mailbox. -/
theorem queued_told : ∃ (s : Stage App.sample.recorded) (h : List (Stage App.sample.recorded)),
    Recorded (Code.diarist heeding) (fun e => e.kind ≠ .messageAccepted) (between s) h ∧
      s.platform.isLive .sample = true ∧
      Queued (Code.diarist heeding) .sample 1 (between s) h ∧
      (∃ earlier, arrivals .sample 1 .mail (s :: h) =
        earlier ++ [⟨.sample, .discard, .bool false⟩]) ∧
      (takings .sample 1 .mail (s :: h)).flatMap Way.mail.occasions =
        [.receive "flag" ⟨.sample, .discard, .bool true⟩] ∧
      announced .sample 1 (s :: h) =
        (posted .sample 1 (s :: h)).map (fun y => .accepted .sample y.2) ∧
      ∃ t, perform (body (Code.diarist heeding).recorded) 0 (route ⟨.sample, .discard, .null⟩) s =
        some (true, t) := by
  obtain ⟨_, hactor⟩ := Past.perform (recorded_blank heeding fun e => e.kind ≠ .messageAccepted) 16
    (.spawn .plain) (spawn_publishes _ _) rfl
  obtain ⟨_, hnull⟩ := Past.perform hactor 16 (.tell .sample .null) (tell_publishes _ _) rfl
  obtain ⟨_, hflag⟩ := Past.perform hnull 16 (.tell .sample (.bool true)) (tell_publishes _ _) rfl
  obtain ⟨h, htold⟩ := Past.perform hflag 16 (.tell .sample (.bool false)) (tell_publishes _ _) rfl
  obtain ⟨hqueued, due', hend', -, hheard⟩ := queued (diarist_publishes _ _) htold .sample 1
  obtain ⟨due, hend, -, hreceived⟩ := hqueued.received
  obtain rfl := hend ⟨_, rfl⟩
  obtain rfl := hend' ⟨_, rfl⟩
  obtain ⟨t, hsent, -⟩ := hqueued.sent _ ⟨.sample, .discard, .null⟩ rfl rfl rfl rfl rfl rfl
  exact ⟨_, h, htold, rfl, hqueued, ⟨_, hqueued.balance _ rfl rfl⟩, hreceived,
    (hheard.eq fun _ he => he).trans (List.append_nil _), t, hsent⟩

end Moment

end Troupe
