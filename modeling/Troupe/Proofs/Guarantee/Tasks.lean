import Troupe.Proofs.Flow.Changes
import Troupe.Proofs.Guarantee.Sending

/-!
# What becomes of tasks

From one moment to the next tasks are registered (`register_task`), or the first in line is asked
(`run` polls it), or one is settled (`settle`): `Moment.Next.watched`. So between operations the
tasks that are asked are those that are pending. A task that is pending stays so until it is settled
(`Moment.Reach.kept`), and is never pending again (`Moment.Reach.once`); it is settled once, and
then its outcome is applied if the incarnation that registered it is alive.

What registering does to a platform is `Platform.Registration`, and `Platform.registerTask` is one
(`Platform.registration`): the task is pending under the next number, its owner waits for it, and
all else is as it was. What is done with an outcome is `Flow.Applies`: nothing if the incarnation is
gone or nothing came of the task, one error queued on the owner (`Stage.queuing`) if it failed, and
one message to the owner in its own name, which comes to what a message comes to (`Dispatch`), if it
came to that. `Code.failing` is an application one of whose tasks fails.

Headlines:
* **`Flow.applies`**: what an outcome comes to.
* **`Moment.settled_once`**: what becomes of a task, from its registration to its outcome.
-/

namespace Troupe

open Platform Troupe.Flow

variable {κ : App} {code : Code κ} {V : Event → Prop}

/-- An event that tells of no task (`Event.isOfTask`). -/
def Event.OffTask (e : Event) : Prop :=
  e.isOfTask = false

/-! ## What becomes of an outcome -/

/-- The stage after an error was queued on an address (`Platform.raiseAt`): it stands behind those
that wait already, together with the template of whoever lives there, and the bus tells of it. -/
def Stage.queuing (s : Stage κ) (a : Address) (e : ActorError) : Stage κ where
  platform := { s.platform with
    bus := s.platform.bus.publish
      { kind := .errorRaised, address := some a, reason := some e.message }
    raised := s.platform.raised ++ [⟨a, e, (s.platform.context? a).map Context.template⟩] }
  world := s.world
  listener := s.listener

/-- What a flow does with the outcome of a task that has just been settled, as `Flow.applyOutcome`
should. If the incarnation that registered it is alive, its address is the owner. -/
inductive Flow.Applies (answer : (c : Call κ) → Stage κ → Option (c.Answer × Stage κ))
    (s : Stage κ) : Option Address → Outcome → Flow κ Unit → Prop
  /-- The incarnation is gone: nothing is done. -/
  | discarded {o : Outcome} {f : Flow κ Unit} :
      own answer f s = [] → performWith answer f s = some ((), s) → Applies answer s none o f
  /-- Nothing came of the task: nothing is done. -/
  | nothing {owner : Address} {f : Flow κ Unit} : own answer f s = [] →
      performWith answer f s = some ((), s) → Applies answer s (some owner) (.ok none) f
  /-- One error is queued on the owner, and nothing else is done. -/
  | failed {owner : Address} {e : ActorError} {f : Flow κ Unit} :
      own answer f s = [(s, s.queuing owner e)] →
      performWith answer f s = some ((), s.queuing owner e) →
      Applies answer s (some owner) (.error e) f
  /-- One message is sent to the owner in its own name, and comes to what a message comes to. -/
  | sent {owner : Address} {message : Message} {f : Flow κ Bool} {events : List Event}
      {place : Option (Address × Nat × Way)} {taken : Bool} :
      Dispatch s.platform ⟨owner, owner, message⟩ events place taken →
      Settles answer f s ⟨owner, owner, message⟩ (if taken then events else []) place taken →
      Applies answer s (some owner) (.ok (some message)) (f >>= fun _ => pure ())

/-- **Outcomes are applied** as they should be, by `Flow.applyOutcome`. -/
theorem Flow.applies (answer : (c : Call κ) → Stage κ → Option (c.Answer × Stage κ)) (s : Stage κ)
    (owner : Option Address) (o : Outcome) : Applies answer s owner o (applyOutcome owner o) := by
  cases owner with
  | none => exact .discarded rfl rfl
  | some owner =>
    cases o with
    | error e => exact .failed rfl rfl
    | ok message =>
      cases message with
      | none => exact .nothing rfl rfl
      | some message =>
        obtain ⟨_, _, _, hdispatch⟩ := Dispatch.exists_of s.platform ⟨owner, owner, message⟩
        exact .sent hdispatch hdispatch.settles_route

namespace Moment

variable {m m' m'' : Moment κ} {s t : Stage κ} {id : Nat} {o : Outcome} {e : TaskEntry}

/-- A task is settled from one moment to the next. The operation goes on with `g`, which applies the
outcome if the incarnation that registered the task is alive, and then with the main loop. -/
inductive Settles (id : Nat) (o : Outcome) (e : TaskEntry) : Moment κ → Moment κ → Prop
  | mk {α : Type} {f : Flow κ α} {g : Flow κ Unit} {k : Except PlatformError Unit → Flow κ α}
      {s t : Stage κ} : Settlement s.platform id o e t.platform → t.world = s.world →
      t.listener = s.listener → (∀ answer, Applies answer t
        (if s.platform.isCurrent e.owner e.generation then some e.owner else none) o g) →
      Settles id o e (amid f s) (amid (g.bind fun _ => .call .run k) t)

theorem Settles.settlement (h : Settles id o e m m') :
    Settlement m.stage.platform id o e m'.stage.platform := by
  cases h with
  | mk h => exact h

/-- **A task that failed** raises one error on its owner (`Stage.queuing`), if the incarnation that
registered the task is alive. -/
theorem Settles.failed {err : ActorError} (h : Settles id (.error err) e m m')
    (hlive : m.stage.platform.isCurrent e.owner e.generation = true) (code : Code κ) :
    ∃ m'', Later code m' m'' ∧ m''.stage = m'.stage.queuing e.owner err := by
  cases h with
  | @mk _ _ _ _ s _ _ _ _ happlies =>
    have hfailed := happlies (performCall (body code) 0)
    have hcurrent : s.platform.isCurrent e.owner e.generation = true := hlive
    rw [if_pos hcurrent] at hfailed
    cases hfailed with
    | failed _ hperform =>
      have hadvances := perform_advances (n := 0) hperform
      exact ⟨_, .advances (hadvances.bind _), rfl⟩

/-- What a flow does when it settles a task is that (`Flow.Settling`). -/
theorem Settles.of_settling {α : Type} {f g : Flow κ α} (h : Settling s id o e t g) :
    Settles id o e (amid f s) (amid g t) := by
  obtain ⟨k, rfl⟩ := h.applied
  exact .mk h.settled h.world h.listener fun answer => applies answer t _ o

/-- At this moment the task that is first in line is asked (`Code.poll`), and this is its answer. -/
def Hears (code : Code κ) : Moment κ → Heard
  | between _ => fun _ _ => False
  | amid f s => Polled code f s

/-- The answers that tasks have given before (`Hears`, at an earlier moment). -/
def Answered (code : Code κ) (m : Moment κ) : Heard := fun id o =>
  ∃ n, Reach code n ∧ Later code n m ∧ n.Hears code id o

/-! ## From one moment to the next -/

/-- What is left of an operation changes what is allowed (`Flow.Each`). -/
def Watched (V : Event → Prop) (code : Code κ) : Moment κ → Prop
  | between _ => True
  | amid f s => Each V code (Answered code (amid f s)) f (fun _ _ => True) s

/-- Answers are not forgotten (`Answered`). -/
theorem Reach.answered (h : Reach code m) (hnext : Next code m m') :
    (Answered code m).also (m.Hears code) ≤ Answered code m' := by
  rintro id o (⟨n, hn, hl, hheard⟩ | hheard)
  · exact ⟨n, hn, .tail hl hnext, hheard⟩
  · exact ⟨m, h, .single hnext, hheard⟩

/-- **From one moment to the next** tasks are registered (`Platform.Registering`), the first in line
is asked, or one that has answered is settled. -/
theorem Next.watched (hnext : Next code m m') (h : Reach code m) (hpub : code.Publishes V)
    (hout : m.Outside V m') (hm : m.Ok V) (hw : m.Watched V code) : m'.Watched V code ∧
      (Registering V m.stage.platform m'.stage.platform ∨
        Asking (Answered code m) m.stage.platform m'.stage.platform ∨
        ∃ id o e, m.Answered code id o ∧ Settles id o e m m') := by
  have hheard := h.answered hnext
  cases hnext with
  | begin hf => exact ⟨public_each hf hout hm.1 hm.2 fun _ _ => trivial, Or.inl .refl⟩
  | advance hstep =>
    obtain ⟨hw', hs⟩ := hstep.each hpub (fun _ _ => Inv.outer) hm.1 hm.2 hw
    refine ⟨hw'.mono hheard fun _ _ _ _ h => h, ?_⟩
    rcases hs with hsame | hrounds | hasking | ⟨hid, hs⟩
    · dsimp only at hsame
      exact Or.inl (hsame ▸ .refl)
    · exact Or.inl (Rounds.registering hrounds)
    · exact Or.inr (Or.inl hasking)
    · exact Or.inr (Or.inr ⟨_, _, _, hid, .of_settling hs⟩)
  | back => exact ⟨trivial, Or.inl .refl⟩
  | meanwhile bus w listener =>
    exact ⟨trivial, Or.inl (.single (Or.inl ⟨rfl, rfl, fun _ _ => Iff.rfl, hout⟩))⟩

/-- A moment and one that comes after it, if of the events that come from outside meanwhile `V` is
true. -/
def LaterOf (V : Event → Prop) (code : Code κ) : Moment κ → Moment κ → Prop :=
  Relation.ReflTransGen fun m m' => Next code m m' ∧ m.Outside V m'

theorem LaterOf.later (h : LaterOf V code m m') : Later code m m' :=
  Relation.ReflTransGen.mono (fun _ _ h => h.1) _ _ h

theorem Later.any (h : Later code m m') : LaterOf Event.Any code m m' :=
  Relation.ReflTransGen.mono (fun m m' h => ⟨h, outside_any m m'⟩) _ _ h

/-- **Whatever happens**, what is left of an operation is known (`Watched`). -/
theorem LaterOf.watched (hl : LaterOf V code m m') (h : Reach code m) (hpub : code.Publishes V)
    (hm : m.Ok V) (hw : m.Watched V code) : m'.Ok V ∧ m'.Watched V code := by
  induction hl with
  | refl => exact ⟨hm, hw⟩
  | tail hl hstep ih =>
    obtain ⟨hnext, hout⟩ := hstep
    have hreach := h.later (LaterOf.later hl)
    exact ⟨(hnext.ok hpub hout ih.1).1, (hnext.watched hreach hpub hout ih.1 ih.2).1⟩

theorem Reach.new (code : Code κ) (config : Config) (trap : Option κ.Trap) (subs : List Subscriber)
    (w : κ.World) : Reach code (between (.new config trap subs w)) :=
  ⟨config, trap, subs, w, .refl⟩

theorem Reach.watched (h : Reach code m) : m.Watched Event.Any code := by
  obtain ⟨config, trap, subs, w, hlater⟩ := h
  exact (hlater.any.watched (.new code config trap subs w) code.publishes_any
    (ok_new config trap subs w) trivial).2

/-- Wherever a platform comes to, tasks are registered next (`Platform.Registering`), or asked, or
settled. -/
theorem Reach.next (h : Reach code m) (hnext : Next code m m') :
    Registering Event.Any m.stage.platform m'.stage.platform ∨
      Asking (Answered code m) m.stage.platform m'.stage.platform ∨
      ∃ id o e, m.Answered code id o ∧ Settles id o e m m' :=
  (hnext.watched h code.publishes_any (outside_any _ _) h.ok h.watched).2

theorem not_pending_new (config : Config) (trap : Option κ.Trap) (subs : List Subscriber)
    (w : κ.World) : ¬ (Stage.new config trap subs w).platform.Pending id e := by
  obtain ⟨bus, -, hnew⟩ := new_platform config trap subs w
  rw [hnew]
  exact fun hp => absurd ((Table.get?_empty id).symm.trans hp.1) (by simp)

/-- **Pending tasks** are asked, or have answered (`Platform.Accounted`). -/
theorem Reach.accounted (h : Reach code m) : Accounted (Answered code m) m.stage.platform := by
  obtain ⟨config, trap, subs, w, hlater⟩ := h
  have hnew := Reach.new code config trap subs w
  induction hlater with
  | refl =>
    exact fun id e hp => absurd hp (not_pending_new config trap subs w)
  | tail hl hnext ih =>
    have hreach := hnew.later hl
    have hmore := ih.mono fun id o ho => hreach.answered hnext id o (Or.inl ho)
    rcases hreach.next hnext with hr | ha | ⟨_, _, _, -, hs⟩
    · exact hmore.registering hr
    · exact hmore.asking (ha.mono fun id o ho => hreach.answered hnext id o (Or.inl ho))
    · exact hmore.settlement hs.settlement

/-! ## The life of a task -/

theorem Reach.recorded (h : Reach code m) (hp : m.stage.platform.Pending id e) :
    id < m.stage.platform.nextTask :=
  h.ok.inv.tasks.fresh id e hp.1

/-- If no task is settled, no number is used again and what was pending is (`Platform.Pending`). -/
theorem Reach.unsettled (h : Reach code m) (hnext : Next code m m') :
    (m.stage.platform.nextTask ≤ m'.stage.platform.nextTask ∧
      ∀ id e, id < m.stage.platform.nextTask →
        (m'.stage.platform.Pending id e ↔ m.stage.platform.Pending id e)) ∨
      ∃ id o e, m.Answered code id o ∧ Settles id o e m m' := by
  rcases h.next hnext with hr | ha | hs
  · exact Or.inl hr.kept
  · obtain ⟨_, heq⟩ := ha.eq
    rw [heq]
    exact Or.inl ⟨Nat.le_refl _, fun _ _ _ => Iff.rfl⟩
  · exact Or.inr hs

/-- Numbers of tasks are not used again, and a task that is pending (`Platform.Pending`) has been so
all the time. -/
theorem Reach.kept (h : Reach code m) (hl : Later code m m') :
    m.stage.platform.nextTask ≤ m'.stage.platform.nextTask ∧
      ∀ id e, m'.stage.platform.Pending id e → id < m'.stage.platform.nextTask ∧
        (id < m.stage.platform.nextTask → m.stage.platform.Pending id e) := by
  induction hl with
  | refl => exact ⟨Nat.le_refl _, fun _ _ hp => ⟨h.recorded hp, fun _ => hp⟩⟩
  | tail hl hnext ih =>
    obtain ⟨hle, hback⟩ := ih
    have hreach := h.later hl
    have hreach' := hreach.later (.single hnext)
    rcases hreach.unsettled hnext with ⟨hle', hsame⟩ | ⟨i, o, e, -, hs⟩
    · refine ⟨Nat.le_trans hle hle', fun id e hp => ⟨hreach'.recorded hp, fun hid => ?_⟩⟩
      have hbefore := (hsame id e (Nat.lt_of_lt_of_le hid hle)).mp hp
      exact (hback id e hbefore).2 hid
    · have hset := hs.settlement
      refine ⟨hset.next ▸ hle, fun id e hp => ⟨hreach'.recorded hp, fun hid => ?_⟩⟩
      exact (hback id e (hset.pending_iff.mp hp).2).2 hid

/-- **A pending task** stays so until it has answered and is settled (`Answered`, `Settles`). -/
theorem Reach.settled (h : Reach code m) (hl : Later code m m')
    (hp : m.stage.platform.Pending id e) : m'.stage.platform.Pending id e ∨
      ∃ m₁ m₂ o, Later code m m₁ ∧ m₁.Answered code id o ∧ Next code m₁ m₂ ∧
        Settles id o e m₁ m₂ ∧ Later code m₂ m' := by
  induction hl with
  | refl => exact Or.inl hp
  | @tail m₁ m₂ hl hnext ih =>
    rcases ih with hp | ⟨n, n', o, hn, ho, hn', hs, hl'⟩
    · rcases (h.later hl).unsettled hnext with ⟨-, hsame⟩ | ⟨i, o, e', ho, hs⟩
      · exact Or.inl ((hsame id e ((h.later hl).recorded hp)).mpr hp)
      · by_cases hi : id = i
        · subst hi
          obtain rfl := hs.settlement.pending.unique hp
          exact Or.inr ⟨m₁, m₂, o, hl, ho, hnext, hs, .refl⟩
        · exact Or.inl (hs.settlement.pending_iff.mpr ⟨hi, hp⟩)
    · exact Or.inr ⟨n, n', o, hn, ho, hn', hs, .tail hl' hnext⟩

/-- **A task that was settled** is not settled again (`Settles`). -/
theorem Reach.once (h : Reach code m) (hnext : Next code m m') (hs : Settles id o e m m')
    (hl : Later code m' m'') (o' : Outcome) (e' : TaskEntry) (n : Moment κ) :
    ¬ Settles id o' e' m'' n := by
  intro hs'
  have hset := hs.settlement
  have hid : id < m'.stage.platform.nextTask := hset.next ▸ h.recorded hset.pending
  have hreach := h.later (.single hnext)
  have hagain := ((hreach.kept hl).2 id e' hs'.settlement.pending).2 hid
  exact (hset.pending_iff.mp hagain).1 rfl

/-! ## What is told of tasks -/

/-- The moments that the life of a platform can come to, if only the platform tells of tasks
(`Event.OffTask`). -/
def Private (code : Code κ) (m : Moment κ) : Prop :=
  code.Publishes Event.OffTask ∧
    ∃ config trap subs w, LaterOf Event.OffTask code (between (.new config trap subs w)) m

theorem journal_new (config : Config) (trap : Option κ.Trap) (subs : List Subscriber)
    (w : κ.World) : (Stage.new config trap subs w).platform.Journal := by
  obtain ⟨bus, hbus, hnew⟩ := new_platform config trap subs w
  have hnone (k : EventKind) : bus.tasksOf k = [] := by
    unfold Bus.tasksOf
    rw [hbus]
    rfl
  have hsettled : bus.settled = [] := hnone _
  have hregistered : bus.registered = [] := hnone _
  have hpending (id : Nat) (e : TaskEntry) :
      ¬ (Stage.new config trap subs w).platform.Pending id e := not_pending_new config trap subs w
  rw [hnew] at hpending ⊢
  refine ⟨Nat.one_pos, hregistered, ?_, fun id => ?_, fun id e hp => absurd hp (hpending id e)⟩
  · exact hsettled ▸ List.nodup_nil
  · show id ∈ bus.registered ↔ id ∈ bus.settled ∨ _
    rw [hsettled, hregistered]
    simp [hpending]

/-- **The bus tells of tasks what happens to them.** (`Platform.Journal`) -/
theorem Private.journal (h : Private code m) : m.stage.platform.Journal := by
  obtain ⟨hpub, config, trap, subs, w, hlater⟩ := h
  have hnew := Reach.new code config trap subs w
  induction hlater with
  | refl => exact journal_new config trap subs w
  | tail hl hstep ih =>
    obtain ⟨hnext, hout⟩ := hstep
    obtain ⟨hok, hw⟩ := LaterOf.watched hl hnew hpub (ok_new config trap subs w) trivial
    have hreach := hnew.later (LaterOf.later hl)
    rcases (hnext.watched hreach hpub hout hok hw).2 with hr | ha | ⟨id, o, e, -, hs⟩
    · exact ih.registering hr fun _ hoff => hoff
    · exact ih.asking ha
    · exact ih.settlement hs.settlement

/-- An operation that does not publish an event (`Operation.Publishes`) is done privately. -/
theorem Private.perform {α : Type} {f : Flow κ α} {x : α} (h : Private code (between s))
    (depth : Nat) (hf : Operation.Public code f) (hpub : Operation.Publishes Event.OffTask f)
    (hp : Flow.perform (body code) depth f s = some (x, t)) : Private code (between t) := by
  obtain ⟨hcode, config, trap, subs, w, hlater⟩ := h
  have goes {y z : Flow κ α × Stage κ} (hyz : Advances (body code) y z) :
      LaterOf Event.OffTask code (amid y.1 y.2) (amid z.1 z.2) := by
    induction hyz with
    | refl => exact .refl
    | tail _ hstep ih => exact .tail ih ⟨.advance hstep, trivial⟩
  refine ⟨hcode, config, trap, subs, w, Relation.ReflTransGen.trans hlater ?_⟩
  exact .head ⟨.begin hf, hpub⟩ (.tail (goes (perform_advances hp)) ⟨.back, trivial⟩)

theorem publishes_run : Operation.Publishes V (Operation.run (κ := κ)) :=
  fun _ _ h => nomatch h

/-! ## Exactly once -/

/-- Between operations the pending tasks are those that are asked (`Platform.taskIds`). -/
theorem Reach.asked (h : Reach code (between s)) (id : Nat) :
    (∃ e, s.platform.Pending id e) ↔ id ∈ s.platform.taskIds := by
  obtain ⟨hi, hcalm⟩ := h.ok
  exact pending_iff hi.tasks hcalm.settled.unpolled

/-- **Tasks are settled exactly once.** The pending tasks are those that are asked, but for one at
most that is in hand, and that one has answered; between operations there is none in hand. From one
moment to the next tasks are registered, or the first in line is asked, or one is settled as it has
answered. `registerTask` hands out the next number and records the task for whoever lives at the
address of its owner (`Platform.Registration`), so new tasks have new numbers. A pending task stays
so until it is settled, and is not settled again. When it is settled (`Platform.Settlement`), its
outcome is applied (`Flow.Applies`) if the incarnation that registered it is alive, and discarded if
it is not; and a task that failed raises one error on its owner. The bus tells just that, if nobody
but the platform tells of tasks; and after a run that ends idle every task was settled. -/
theorem settled_once (h : Reach code m) :
    (m.stage.platform.taskIds.Nodup ∧
      (∃ hand, (∀ id, (∃ e, m.stage.platform.Pending id e) ↔
        id ∈ m.stage.platform.taskIds ∨ hand = some id) ∧
        ∀ id, hand = some id → ∃ o, m.Answered code id o) ∧
      ∀ s, m = between s → ∀ id, (∃ e, s.platform.Pending id e) ↔ id ∈ s.platform.taskIds) ∧
    (∀ m', Next code m m' → Registering Event.Any m.stage.platform m'.stage.platform ∨
      Asking (Answered code m) m.stage.platform m'.stage.platform ∨
      ∃ id o e, m.Answered code id o ∧ Settles id o e m m') ∧
    (∀ owner task,
      (m.stage.platform.registerTask owner task).1 = m.stage.platform.nextTask ∧
      Registration m.stage.platform owner task (m.stage.platform.registerTask owner task).2) ∧
    (∀ m', Later code m m' → m.stage.platform.nextTask ≤ m'.stage.platform.nextTask ∧
      (∀ id e, m'.stage.platform.Pending id e → id < m'.stage.platform.nextTask ∧
        (id < m.stage.platform.nextTask → m.stage.platform.Pending id e)) ∧
      ∀ id e, m.stage.platform.Pending id e → m'.stage.platform.Pending id e ∨
        ∃ m₁ m₂ o, Later code m m₁ ∧ m₁.Answered code id o ∧ Next code m₁ m₂ ∧
          Settles id o e m₁ m₂ ∧ Later code m₂ m') ∧
    (∀ id o e m₁ m₂, Next code m m₁ → Settles id o e m m₁ → Later code m₁ m₂ →
      ∀ o' e' m₃, ¬ Settles id o' e' m₂ m₃) ∧
    (∀ id err e m', Settles id (.error err) e m m' →
      m.stage.platform.isCurrent e.owner e.generation = true →
        ∃ m'', Later code m' m'' ∧ m''.stage = m'.stage.queuing e.owner err) ∧
    (Private code m → m.stage.platform.Journal) ∧
    (∀ s depth t, m = between s → perform (body code) depth Operation.run s = some (.ok (), t) →
      t.platform.stopped = false → (∀ id e, ¬ t.platform.Pending id e) ∧
        (Private code m → t.platform.bus.settled.Perm t.platform.bus.registered)) := by
  have hi := h.ok.inv
  refine ⟨⟨hi.tasks.nodup, ?_, ?_⟩, fun m' => h.next,
    fun owner task => ⟨rfl, registration _ owner task⟩,
    fun m' hl => ⟨(h.kept hl).1, (h.kept hl).2, fun id e => h.settled hl⟩,
    fun id o e m₁ m₂ hnext hs hl o' e' m₃ => h.once hnext hs hl o' e' m₃,
    fun _ _ _ _ hs hlive => hs.failed hlive code, Private.journal, ?_⟩
  · obtain ⟨hand, hiff, hnot⟩ := exists_hand hi.tasks hi.hand
    refine ⟨hand, hiff, fun id hid => ?_⟩
    obtain ⟨e, hp⟩ := (hiff id).mpr (Or.inr hid)
    exact (h.accounted id e hp).resolve_left (hnot id hid)
  · rintro s rfl
    exact h.asked
  · rintro s depth t rfl hrun hgoes
    have htasks : t.platform.tasks = [] := (h.ran hrun).resolve_left (by simp [hgoes])
    have hidle (id : Nat) (e : TaskEntry) : ¬ t.platform.Pending id e := fun hp => by
      have hid := ((h.perform depth .run hrun).asked id).mp ⟨e, hp⟩
      rw [taskIds, htasks] at hid
      exact absurd hid List.not_mem_nil
    exact ⟨hidle, fun hp => ((hp.perform depth .run publishes_run hrun).journal).perm hidle⟩

end Moment

/-! ## A task that fails -/

/-- The sample application (`Code.sample`), with tasks that fail. -/
def Code.failing : Code App.sample :=
  { Code.sample with poll := fun _ w => (.ready (.error (.application "late")), w) }

namespace Moment

/-- A platform that stops actors that have failed, by its root trap. -/
def strict : Stage App.sample :=
  .new {} (some ()) [] ()

/-- The platform after an actor was spawned there, which has registered a task in its run hook. -/
def hired : Stage App.sample :=
  strict.afterwards .failing (Operation.spawn .failing .sample)

/-- A run of the platform (`Operation.run`), after so many steps. -/
def failing (n : Nat) : Moment App.sample :=
  amid (after (body .failing) n (Operation.run, hired)).1
    (after (body .failing) n (Operation.run, hired)).2

/-- The application publishes nothing (`Code.Publishes`). -/
theorem failing_publishes : Code.failing.Publishes V := by
  refine ⟨fun _ hook _ => ?_, fun _ _ _ => trivial⟩
  cases hook with
  | run => exact ⟨fun _ he => (nomatch he), fun _ => trivial⟩
  | _ => trivial

/-- Spawning allocates an actor, which publishing an event does not. -/
theorem failing_spawn_publishes :
    Operation.Publishes V (Operation.spawn .failing Template.sample) := by
  intro e next h
  have hstage := (Flow.set.inj (congrFun (Flow.get.inj h) sample)).1
  have hsize : 1 = 0 := congrArg (fun s => s.platform.contexts.size) hstage
  exact absurd hsize (by decide)

theorem private_hired : Private .failing (between hired) := by
  have hstrict : Private .failing (between strict) :=
    ⟨failing_publishes, {}, some (), [], (), .refl⟩
  exact hstrict.perform 20 (.spawn .sample) failing_spawn_publishes rfl

theorem reach_hired : Reach .failing (between hired) := by
  have hstrict : Reach .failing (between strict) := ⟨{}, some (), [], (), .refl⟩
  exact hstrict.perform 20 (.spawn .sample) rfl

theorem reach_failing (n : Nat) : Reach .failing (failing n) :=
  reach_hired.later
    (.head (.begin .run) (Later.advances (advances_after _ n (Operation.run, hired))))

/-- The task of the actor is settled by the main loop. It has failed, so one error is raised on the
actor (`Stage.queuing`), and that is the end of the actor. -/
theorem settled_failing : ∃ (m : Moment App.sample) (t : Stage App.sample),
    Reach .failing (failing 11) ∧ Next .failing (failing 11) (failing 12) ∧
      Settles 1 (.error (.application "late")) ⟨.sample, 1, none⟩ (failing 11) (failing 12) ∧
      (failing 12).stage.platform.raised = [] ∧ Later .failing (failing 12) m ∧
      m.stage.platform.raised.map (fun r => (r.source, r.error)) =
        [(.sample, .application "late")] ∧
      perform (body .failing) 8 Operation.run hired = some (.ok (), t) ∧
      t.platform.isLive .sample = false ∧ t.platform.bus.settled = [1] ∧
      t.platform.bus.settled.Perm t.platform.bus.registered := by
  have hnext : Next .failing (failing 11) (failing 12) := .advance (advance_iff_next?.mpr rfl)
  have hbefore : (failing 11).stage.platform.Pending 1 ⟨.sample, 1, none⟩ := ⟨rfl, rfl⟩
  have hafter : (failing 12).stage.platform.entries.get? 1 =
      some ⟨.sample, 1, some (.error (.application "late"))⟩ := rfl
  obtain ⟨-, hsteps, -, -, -, hfailed, -, -⟩ := settled_once (reach_failing 11)
  obtain ⟨-, -, -, -, -, -, -, hend⟩ := settled_once reach_hired
  obtain ⟨-, hperm⟩ := hend _ 8 _ rfl rfl rfl
  have hsettles :
      Settles 1 (.error (.application "late")) ⟨.sample, 1, none⟩ (failing 11) (failing 12) := by
    -- the entry of the task has changed, which nothing but settling does
    rcases hsteps _ hnext with hr | ha | ⟨id, o, e, -, hs⟩
    · have hstill := ((hr.kept.2 1 _ (by decide)).mpr hbefore).1
      exact absurd (hafter.symm.trans hstill) (by simp)
    · obtain ⟨tasks, heq⟩ := ha.eq
      have hstill := (congrArg (fun p : Platform App.sample => p.entries.get? 1) heq).trans hbefore.1
      exact absurd (hafter.symm.trans hstill) (by simp)
    · have hset := hs.settlement
      obtain rfl : id = 1 := by
        by_contra hne
        have hstill := (hset.others 1 (Ne.symm hne)).trans hbefore.1
        exact absurd (hafter.symm.trans hstill) (by simp)
      obtain rfl := hset.pending.unique hbefore
      have ho : some (TaskEntry.mk .sample 1 (some o)) = _ := hset.entry.symm.trans hafter
      cases ho
      exact hs
  obtain ⟨m, hl, hm⟩ := hfailed _ _ _ _ hsettles rfl
  refine ⟨m, _, reach_failing 11, hnext, hsettles, rfl, hl, ?_, rfl, rfl, rfl,
    hperm private_hired⟩
  rw [hm]
  rfl

end Moment

end Troupe
