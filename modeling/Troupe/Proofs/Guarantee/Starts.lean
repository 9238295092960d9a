import Troupe.Proofs.Flow.Lines
import Troupe.Proofs.Flow.Serving
import Troupe.Proofs.Watch.Heralds
import Troupe.Proofs.Watch.Recorded

/-!
# Starts and runs

The bus tells that an actor was started (`Flow.startActor`, the source's `start_actor`), and its run
hook is what should follow. Whether it does is decided when the start is told: an actor whose code
and machine are both at hand begins to act at once (`advances_start_idle`), and a busy one does not
act at all, neither then nor later (`advances_start_busy`). So the starts that were told to actors
at hand (`summons`) are the runs that were begun (`Diary.runs`), and the bus may tell of more.
`Overeager.code` is an application whose actors come to that.

Every way of starting an actor is the same call (`Call.start`): operations, code of the application,
scripts, and allocations that start what they have allocated.

Headlines:
* **`Moment.starts_told`**: what becomes of every start, and what the bus tells of it.
* `Flow.perform_actAt_busy`: a hook of a busy actor is not called.
-/

namespace Troupe

variable {κ : App} {α : Type}

open Platform Troupe.Flow

namespace Flow

variable {code : Code κ} {s : Stage κ} {a : Address} {c : Context κ} {m : Machine κ} {n : Nat}

/-! ## Busy actors -/

/-- An actor that is not at hand does not act (`Flow.act`). -/
theorem perform_act_away (hook : Hook) (hc : s.platform.context? m.address = some c)
    (hactor : c.actor = none) :
    perform (body code) n (act code m hook) s = some ((none, m), s) := by
  obtain ⟨_, _, actor, _, _, _, _, _, _⟩ := c
  obtain rfl : actor = none := hactor
  unfold act
  rw [perform_see, hc]
  rfl

/-- An actor that is busy (`Context.isIdle`) does not act, and is as busy as before. -/
theorem perform_actAt_busy (hook : Hook) (hm : s.platform.MachineInv)
    (hc : s.platform.context? a = some c) (hbusy : c.isIdle = false) :
    ∃ t d, perform (body code) n (actAt code a hook) s = some (none, t) ∧ t.world = s.world ∧
      t.platform.bus = s.platform.bus ∧ t.platform.context? a = some d ∧ d.isIdle = false := by
  let out : Stage κ := s.edit (·.modifyContext a fun c => { c with machine := none })
  have hout : out.platform.context? a = some { c with machine := none } :=
    (context?_modifyContext _).trans ((if_pos rfl).trans (congrArg (Option.map _) hc))
  have hask : perform (body code) n (checkOut a) s = some (c.machine, out) := by
    show some ((s.platform.context? a).bind Context.machine, out) = _
    rw [hc, Option.bind_some]
  unfold actAt
  rw [perform_bind, hask, Option.bind_some]
  cases hmachine : c.machine with
  | none => exact ⟨out, _, rfl, rfl, rfl, hout, by simp [Context.isIdle]⟩
  | some m =>
    -- it is the actor that is away, and the machine is put back
    obtain ⟨rfl, hgen, -, -, -⟩ := hm a c m hc hmachine
    have hactor : c.actor = none := by simpa [Context.isIdle, hmachine] using hbusy
    have hcur : out.platform.isCurrent m.address m.generation = true :=
      isCurrent_iff.mpr ⟨_, hout, hgen.symm⟩
    let back : Platform κ := out.platform.modifyContext m.address fun c => { c with machine := some m }
    have hback : (back.enqueue m.address).context? m.address =
        some { c with machine := some m } := by
      rw [context?_enqueue]
      exact (context?_modifyContext _).trans ((if_pos rfl).trans (congrArg (Option.map _) hout))
    refine ⟨{ out with platform := back.enqueue m.address }, _, ?_, rfl, ?_, hback, ?_⟩
    · dsimp only
      rw [perform_bind, perform_act_away hook hout hactor, Option.bind_some]
      exact congrArg (fun p => some (none, { out with platform := p })) (if_pos hcur)
    · obtain ⟨_, _, _, henqueue⟩ := enqueue_eq back m.address
      dsimp only
      rw [henqueue]
      rfl
    · simp [Context.isIdle, hactor]

/-- Nothing is taken from the backlog of a busy actor (`Context.isIdle`). -/
theorem performCall_flush_busy (hc : s.platform.context? a = some c) (hbusy : c.isIdle = false) :
    performCall (body code) (n + 1) (.flush a) s = some ((), s) := by
  have hnone : s.platform.takeBacklog a = none := by
    unfold Platform.takeBacklog
    rw [hc]
    dsimp only
    rw [hbusy]
  show perform (body code) n (flushBacklog code a) s = _
  unfold flushBacklog
  rw [perform_ask]
  dsimp only [id]
  rw [hnone]
  rfl

/-! ## Starts -/

/-- What the body of a call comes to, the call comes to (`Flow.body`). -/
theorem advances_call {c : Call κ} {x : c.Answer} {t : Stage κ}
    (h : perform (body code) n (body code c) s = some (x, t)) (next : c.Answer → Flow κ α) :
    Advances (body code) (.call c next, s) (next x, t) :=
  .head .call ((perform_advances h).bind next)

/-- Where nobody lives nothing is started (`PlatformError.notFound`). -/
theorem advances_start_nobody (hgone : s.platform.isLive a = false)
    (next : Except PlatformError Unit → Flow κ α) :
    Advances (body code) (.call (.start a) next, s) (next (.error (.notFound a)), s) := by
  refine advances_call (n := 0) (c := .start a) ?_ next
  show perform (body code) 0 (startActor code a) s = _
  unfold startActor
  rw [perform_ask, hgone]
  rfl

/-- A busy actor is started in name only (`EventKind.actorStarted`). -/
theorem advances_start_busy (hm : s.platform.MachineInv) (hc : s.platform.context? a = some c)
    (hbusy : c.isIdle = false) (next : Except PlatformError Unit → Flow κ α) :
    ∃ t, t.platform.bus = s.platform.bus.publish (.about .actorStarted a) ∧ t.world = s.world ∧
      Advances (body code) (.call (.start a) next, s) (next (.ok ()), t) := by
  have hlive : s.platform.isLive a = true := isLive_iff.mpr ⟨c, hc⟩
  let told : Stage κ := s.edit (·.publish (.about .actorStarted a))
  have hbusied : ∃ t d, perform (body code) 1 (actAt code a .run) told = some (none, t) ∧
      t.world = told.world ∧ t.platform.bus = told.platform.bus ∧
        t.platform.context? a = some d ∧ d.isIdle = false :=
    perform_actAt_busy .run (hm.congr fun _ => rfl) hc hbusy
  obtain ⟨t, d, hact, hworld, hbus, hd, hidle⟩ := hbusied
  refine ⟨t, hbus, hworld, advances_call (n := 1) (c := .start a) ?_ next⟩
  show perform (body code) 1 (startActor code a) s = _
  unfold startActor
  rw [perform_ask, hlive, if_neg (by simp), perform_edit]
  show perform (body code) 1 (actAt code a .run >>= _) told = _
  rw [perform_bind, hact, Option.bind_some]
  have hflush (k : Unit → Flow κ (Except PlatformError Unit)) :
      perform (body code) 1 (invoke (.flush a) >>= k) t = perform (body code) 1 (k ()) t := by
    refine (performWith_bind (invoke (.flush a)) k t).trans ?_
    rw [performWith_invoke, performCall_flush_busy hd hidle]
    rfl
  exact hflush _

/-- An actor that is at hand begins to act on being started (`Hook.run`). -/
theorem advances_start_idle {code : Code κ.recorded} {s : Stage κ.recorded}
    {c : Context κ.recorded} (hm : s.platform.MachineInv) (hc : s.platform.context? a = some c)
    (hidle : c.isIdle = true) (next : Except PlatformError Unit → Flow κ.recorded α) :
    ∃ x f, c.actor = some x ∧ Advances (body code.recorded) (.call (.start a) next, s)
      (f, (s.busy a).note x.2 (.began .run a c.generation)) := by
  rw [Context.isIdle, Bool.and_eq_true, Option.isSome_iff_exists, Option.isSome_iff_exists] at hidle
  obtain ⟨⟨x, hx⟩, m, hmachine⟩ := hidle
  obtain ⟨haddress, hgen, -, -, -⟩ := hm a c m hc hmachine
  obtain ⟨k, hserve⟩ := advances_startActor code.recorded (body code.recorded) hc hx hmachine
    haddress hgen.symm
  have hg : (s.busy a).platform.generation? a = some c.generation := by
    let out : Stage κ.recorded := (s.edit (·.publish (.about .actorStarted a))).edit
      (·.modifyContext a fun c => { c with machine := none })
    have hactor : (s.busy a).platform.generation? a = out.platform.generation? a :=
      generation?_modifyContext fun _ => rfl
    have hout : out.platform.generation? a = s.platform.generation? a :=
      generation?_modifyContext fun _ => rfl
    exact (hactor.trans hout).trans (congrArg (Option.map _) hc)
  have hnote (n : Nat) (deed : Platform κ.recorded → Deed)
      (act : Act κ.recorded (Except ActorError Unit)) (t : Stage κ.recorded) :
      Advances (body code.recorded) ((serve code.recorded (.note n deed act) m).bind k, t)
        ((serve code.recorded act m).bind k, t.note n (deed t.platform)) :=
    .head .get (.head .get (.single .set))
  have hbegun := Relation.ReflTransGen.trans hserve
    (hnote x.2 (fun p => .began .run a ((p.generation? a).getD 0)) _ (s.busy a))
  rw [hg] at hbegun
  exact ⟨x, _, hx, .head .call (Advances.bind hbegun next)⟩

end Flow

namespace Moment

variable {code : Code κ.recorded} {V : Event → Prop} {m : Moment κ.recorded}
  {h : List (Stage κ.recorded)}

/-- **Starts are told, and actors that are at hand act on them.** At every address the starts that
were told while the actor was at hand (`summons`) are the runs that its actors began, each by the
incarnation that was told to, in order, but for one at most that is about to begin, and between
operations all of them. Whoever starts an actor is told that nobody lives there, and nothing else
happens; or the start is told and the run hook begins; or the actor is busy, the start is told,
nobody begins anything, and all is said to be well. -/
theorem starts_told (hp : Recorded code V m h) (hpub : code.Publishes V)
    (hV : ∀ e, V e → e.kind ≠ .actorStarted) :
    (∀ a, ∃ due, ((∃ s, m = between s) → due = []) ∧ due.length ≤ 1 ∧
      tally (summons a) (m.stage :: h) = Diary.runs a m.stage.world.2 ++ due) ∧
    ∀ {α : Type} (a : Address) (next : Except PlatformError Unit → Flow κ.recorded α)
      (s : Stage κ.recorded), m = amid (.call (.start a) next) s →
        (s.platform.isLive a = false →
          Advances (body code.recorded) (.call (.start a) next, s)
            (next (.error (.notFound a)), s)) ∧
        ∀ c, s.platform.context? a = some c →
          (c.isIdle = true → ∃ x f, c.actor = some x ∧
            Advances (body code.recorded) (.call (.start a) next, s)
              (f, (s.busy a).note x.2 (.began .run a c.generation))) ∧
          (c.isIdle = false → ∃ t,
            t.platform.bus = s.platform.bus.publish (.about .actorStarted a) ∧
              t.world = s.world ∧
                Advances (body code.recorded) (.call (.start a) next, s) (next (.ok ()), t)) := by
  constructor
  · intro a
    obtain ⟨o, ho, htally⟩ := hp.heralded hpub hV
    refine ⟨owed a o, ?_, length_owed a o, htally a⟩
    rintro ⟨s, rfl⟩
    obtain rfl : o = none := ho
    rfl
  · rintro α a next s rfl
    have hm : s.platform.MachineInv := (Past.reach hp).ok.inv.machines
    refine ⟨fun hgone => advances_start_nobody hgone next, fun c hc => ⟨fun hidle => ?_, ?_⟩⟩
    · exact advances_start_idle hm hc hidle next
    · exact fun hbusy => advances_start_busy hm hc hbusy next

end Moment

/-! ## An actor that starts itself -/

namespace Overeager

/-- Its actors take messages in their own hands, and then start themselves (`Request.start`). -/
def code : Code App.sample.recorded where
  freshId w := ("fresh", w)
  build _ _ w := (((), 0), w)
  init _ w := (.direct, w)
  stop _ w := w
  judge _ _ w := (.stop, w)
  hook
    | _, .accept _, a => .ask (.start a) fun _ => .done (.ok ())
    | _, _, _ => .done (.ok ())
  foreign _ _ _ := .done (.ok .nil)
  poll _ w := (.ready (.ok none), w)

theorem publishes (V : Event → Prop) : code.Publishes V := by
  refine ⟨fun actor hook a => ?_, fun _ _ _ => trivial⟩
  cases hook with
  | accept => exact ⟨fun _ he => absurd he (by simp), fun _ => trivial⟩
  | run | receive => trivial

/-- The stage once it is there and was told something. -/
def told : Option (Stage App.sample.recorded) :=
  (perform (body code.recorded) 12 (Operation.spawn code.recorded .plain) Moment.blank).bind
    fun x => (perform (body code.recorded) 12 (Operation.tell .sample .null) x.2).map Prod.snd

theorem recorded_told {s : Stage App.sample.recorded} (hs : told = some s) :
    ∃ h, Moment.Recorded code (fun e => e.kind ≠ .actorStarted) (.between s) h := by
  obtain ⟨⟨_, s₁⟩, hs₁, hs⟩ := Option.bind_eq_some_iff.mp hs
  obtain ⟨⟨_, s₂⟩, hs₂, rfl⟩ := Option.map_eq_some_iff.mp hs
  have hnew : Moment.Recorded code (fun e => e.kind ≠ .actorStarted) (.between Moment.blank) [] :=
    .new {} none [] rfl
  obtain ⟨_, hspawn⟩ := Moment.Past.perform hnew 12 (.spawn .plain)
    (Moment.spawn_publishes _ code) hs₁
  exact Moment.Past.perform hspawn 12 (.tell .sample .null) (Moment.tell_publishes _ _) hs₂

/-- What there is to see: how often it was told that the actor was started, and its runs
(`Diary.runs`). -/
theorem seen : (told.map fun s =>
    ((s.platform.bus.published.toList.filter (Event.starts .sample)).length,
      Diary.runs .sample s.world.2)) = some (2, [1]) := by
  decide +kernel

/-- A message to it makes it start itself while it is busy with the message: it is told twice that
it was started, and its run hook began once (`Diary.runs`). -/
theorem started_in_name : ∃ s h,
    Moment.Recorded code (fun e => e.kind ≠ .actorStarted) (.between s) h ∧
      (s.platform.bus.published.toList.filter (Event.starts .sample)).length = 2 ∧
      Diary.runs .sample s.world.2 = [1] := by
  obtain ⟨s, hs, hsight⟩ := Option.map_eq_some_iff.mp seen
  obtain ⟨htwice, honce⟩ := Prod.mk.inj hsight
  obtain ⟨h, hp⟩ := recorded_told hs
  exact ⟨s, h, hp, htwice, honce⟩

/-- Only the first time was it at hand (`summons`). -/
theorem summoned_once : ∃ s h,
    Moment.Recorded code (fun e => e.kind ≠ .actorStarted) (.between s) h ∧
      tally (summons .sample) (s :: h) = [1] := by
  obtain ⟨s, hs, hsight⟩ := Option.map_eq_some_iff.mp seen
  obtain ⟨h, hp⟩ := recorded_told hs
  obtain ⟨hruns, -⟩ := Moment.starts_told hp (publishes _) fun _ he => he
  obtain ⟨due, hnone, -, htally⟩ := hruns .sample
  obtain rfl := hnone ⟨s, rfl⟩
  rw [List.append_nil] at htally
  exact ⟨s, h, hp, htally.trans (Prod.mk.inj hsight).2⟩

end Overeager

end Troupe
