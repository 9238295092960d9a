import Troupe.Flow.Activities
import Troupe.Proofs.Flow.Requests
import Troupe.Proofs.Flow.Stepwise
import Troupe.Proofs.Operations
import Troupe.Proofs.Stage.Leavings

/-!
# What flows do to a stage

Each time a flow replaces the stage it does one thing (`Stage.Doing`): it allocates actors, it
removes them, or it goes on placidly, so that nobody comes or goes (`Platform.Placid`). The bus is
told of a restart by one activity only, the judging of raised errors (`supervise`). The calls that
scripts, hooks and deliveries make do not tell of any, unless the application does (`Flow.Modest`,
`Unrestarted`).

That a flow goes on like this (`Flow.Goes`) is computed from the flow, whatever its calls come to:
`Goes.bind`, `Goes.see`, `Goes.edit`, `Goes.invoke`, and one lemma for each activity.

A contract (`Flow.Meets`) compares the stage at the end with the one at the beginning. `Goes` speaks
of each replacement on its own, and so of what was told in between.

Headlines:
* **`Stage.Doing.told`**: whatever is done to a stage, the bus is told of no restart, unless the
  application does.
* **`Flow.body_goes`**, **`Operation.Public.goes`**: every body and every operation goes on like
  this.
* **`Flow.Advance.goes`**, **`Flow.Advances.told`**: so does every step, and on the way of modest
  work no restart is told of.
-/

namespace Troupe

variable {κ : App} {V : Event → Prop}

namespace Platform

variable {p q r : Platform κ} {a : Address}

/-- An event does not tell that an actor was restarted (`EventKind.actorRestarted`), unless the
application says so. -/
def Unrestarted (V : Event → Prop) (e : Event) : Prop :=
  e.kind ≠ .actorRestarted ∨ V e

/-- Nobody came or went (`Platform.identity?`), and the bus was told of no restart. -/
structure Placid (V : Event → Prop) (p q : Platform κ) : Prop where
  identities : ∀ a, q.identity? a = p.identity? a
  bus : p.bus.Grown (Unrestarted V) q.bus

theorem Placid.trans (h : Placid V p q) (h' : Placid V q r) : Placid V p r :=
  ⟨fun a => (h'.identities a).trans (h.identities a), h.bus.trans h'.bus⟩

theorem Placid.of_contexts (hc : ∀ a, q.context? a = p.context? a)
    (hb : p.bus.Grown (Unrestarted V) q.bus) : Placid V p q :=
  ⟨fun a => congrArg (Option.map Context.identity) (hc a), hb⟩

theorem Placid.publish (p : Platform κ) {e : Event} (he : Unrestarted V e) :
    Placid V p (p.publish e) :=
  .of_contexts (fun _ => rfl) (.publish _ he)

theorem Placid.modify (p : Platform κ) (a : Address) {f : Context κ → Context κ}
    (hf : ∀ c, (f c).identity = c.identity) : Placid V p (p.modifyContext a f) :=
  ⟨fun _ => identity?_modifyContext hf, .refl _⟩

theorem Placid.enqueue (p : Platform κ) (a : Address) : Placid V p (p.enqueue a) := by
  obtain ⟨_, _, _, h⟩ := enqueue_eq p a
  rw [h]
  exact .of_contexts (fun _ => rfl) (.refl _)

theorem Placid.look (p : Platform κ) (a : Address) : Placid V p (p.scheduleMail a) := by
  obtain ⟨_, _, _, _, h⟩ := scheduleMail_eq p a
  rw [h]
  exact .of_contexts (fun _ => rfl) (.refl _)

theorem Placid.raise (p : Platform κ) (a : Address) (e : ActorError) :
    Placid V p (p.raiseAt a e) :=
  .of_contexts (fun _ => rfl) (.publish _ (Or.inl (by simp)))

theorem Placid.drop (p : Platform κ) (env : Envelope) : Placid V p (p.dropMessage env) :=
  .publish p (Or.inl (by simp [Event.withEnvelope]))

theorem Placid.takeMail (p : Platform κ) (a : Address) : Placid V p (p.takeMail a).2 :=
  .modify p a fun c => by simp [Context.identity, Context.mapMailbox]

theorem Placid.discard (p : Platform κ) (a : Address) : Placid V p (p.discardMail a) := by
  have htake : Placid V p (p.takeMail a).2 := .takeMail p a
  unfold discardMail
  split
  · rename_i heq
    rw [heq] at htake
    exact htake.trans (.drop _ _)
  · rename_i heq
    rw [heq] at htake
    exact htake

theorem Placid.putMail (p : Platform κ) (a : Address) (env : Envelope) :
    Placid V p (p.putMail a env) :=
  .modify p a fun c => by simp [Context.identity, Context.mapMailbox]

theorem Placid.arm (p : Platform κ) (a : Address) (t : Matcher) :
    Placid V p (p.armReceiver a t) := by
  have harm : Placid V p
      (p.modifyContext a fun c => { c with receivers := ⟨t, false⟩ :: c.receivers }) :=
    .modify p a fun _ => rfl
  exact harm.trans (.look _ a)

theorem Placid.takeMatch {hit : Match} (h : p.takeMatch a = some (hit, q)) : Placid V p q := by
  obtain ⟨_, _, _, _, -, -, -, -, -, rfl⟩ := takeMatch_eq h
  exact .modify p a fun c => by simp [Context.identity, Context.mapMailbox]

theorem Placid.takeBacklog {env : Envelope} (h : p.takeBacklog a = some (env, q)) :
    Placid V p q := by
  obtain ⟨_, _, -, -, -, rfl⟩ := takeBacklog_some h
  exact .modify p a fun _ => rfl

theorem Placid.putRoute (p : Platform κ) (target router : Address) :
    Placid V p (p.putRoute target router) :=
  .of_contexts (fun _ => rfl) (.publish _ (Or.inl (by simp)))

theorem Placid.removeRoute (p : Platform κ) (target : Address) :
    Placid V p (p.removeRoute target) := by
  unfold Platform.removeRoute
  split
  · exact .of_contexts (fun _ => rfl) (.publish _ (Or.inl (by simp)))
  · exact .of_contexts (fun _ => rfl) (.refl _)

theorem Placid.join (p : Platform κ) (group : String) (a : Address) :
    Placid V p (p.putMember group a).2 := by
  unfold putMember
  dsimp only
  split
  · exact .of_contexts (fun _ => rfl) (.refl _)
  · exact .of_contexts (fun _ => rfl) (.publish _ (Or.inl (by simp)))

theorem Placid.part (p : Platform κ) (group : String) (a : Address) :
    Placid V p (p.removeMember group a).2 := by
  obtain ⟨_, h⟩ := removeMember_eq p group a
  rw [h]
  exact .of_contexts (fun _ => rfl) (.refl _)

theorem Placid.register (p : Platform κ) (a : Address) (task : κ.Task) :
    Placid V p (p.registerTask a task).2 :=
  .of_contexts (fun _ => rfl) (.publish _ (Or.inl (by simp)))

theorem Placid.settle (p : Platform κ) (id : Nat) (o : Outcome) : Placid V p (p.settle id o).2 := by
  cases he : p.entries.get? id with
  | none =>
    rw [settle_none o he]
    exact .of_contexts (fun _ => rfl) (.refl _)
  | some e =>
    obtain ⟨_, h⟩ := settle_some o he
    obtain ⟨_, _, _, hu⟩ := unblock_eq p e.owner id
    rw [h, hu]
    exact .of_contexts (fun _ => rfl) (.publish _ (Or.inl (by simp)))

theorem Placid.skip (h : p.turn = .skipped q) : Placid V p q := by
  obtain ⟨_, _, _, ⟨-, rfl⟩ | ⟨-, rfl⟩⟩ := turn_skipped h
  · exact .of_contexts (fun _ => rfl) (.refl _)
  · exact .of_contexts (fun _ => rfl) (.refl _)

theorem Placid.begin {slot : Slot κ} (h : p.turn = .slot a slot q) : Placid V p q := by
  obtain ⟨_, _, _, _, _, rfl⟩ := turn_slot h
  exact .of_contexts (fun _ => rfl) (.refl _)

theorem Placid.endTurn (p : Platform κ) (a : Address) (deferred : Bool) :
    Placid V p (p.endTurn a deferred) := by
  cases deferred with
  | true => exact .of_contexts (fun _ => rfl) (.refl _)
  | false =>
    obtain ⟨_, _, _, h⟩ := endTurn_eq p a
    rw [h]
    exact .of_contexts (fun _ => rfl) (.refl _)

theorem Placid.schedule (p : Platform κ) (a : Address) (g : Nat) (w : Work κ) :
    Placid V p (p.schedule a g w) := by
  obtain ⟨_, _, _, h⟩ := schedule_eq p a g w
  rw [h]
  exact .of_contexts (fun _ => rfl) (.refl _)

end Platform

open Platform

namespace Stage

variable {code : Code κ} {s t : Stage κ}

/-- What a flow does to a stage in one go: the rest (`Placid`), allocating, or removing. -/
inductive Doing (code : Code κ) (V : Event → Prop) (s : Stage κ) : Stage κ → Prop
  | placid {t : Stage κ} : Placid V s.platform t.platform → Doing code V s t
  | allocate (parent : Address) (t : Template κ) : Doing code V s (s.allocate code parent t).2
  | terminate (a : Address) : Doing code V s (s.terminate code a)

/-- Judging an error (`Stage.judge`) changes nothing on the platform but the bus, which is told what
traps say. -/
theorem judge_told (code : Code κ) (r : Raised κ) (levels : List Address) (s : Stage κ) :
    ∃ bus, (s.judge code r levels).2.platform = { s.platform with bus } ∧
      s.platform.bus.Grown (fun e => e.kind = .errorEscalated ∨
        e.kind = .errorIgnored ∧ (s.judge code r levels).1 = .ignored) bus := by
  induction levels generalizing s with
  | nil => exact ⟨_, rfl, .refl _⟩
  | cons level above ih =>
    rw [judge]
    dsimp only
    split
    · exact ⟨_, rfl, .refl _⟩
    · exact ⟨_, rfl, .refl _⟩
    · exact ⟨_, rfl, .publish _ (Or.inr ⟨rfl, rfl⟩)⟩
    · split
      · exact ⟨_, rfl, .refl _⟩
      · obtain ⟨bus, hbus, hgrown⟩ := ih _
        exact ⟨bus, hbus, Bus.Grown.trans (.publish _ (Or.inl rfl)) hgrown⟩

theorem placid_judge (code : Code κ) (r : Raised κ) (levels : List Address) (s : Stage κ) :
    Placid V s.platform (s.judge code r levels).2.platform := by
  obtain ⟨bus, hbus, hgrown⟩ := s.judge_told code r levels
  rw [hbus]
  refine .of_contexts (fun _ => rfl) (hgrown.mono fun e he => Or.inl ?_)
  rcases he with he | ⟨he, -⟩ <;> simp [he]

theorem placid_pause (s : Stage κ) : Placid V s.platform s.pause.platform := by
  unfold pause listen
  split
  · exact .of_contexts (fun _ => rfl) (.refl _)
  · rename_i l hl
    refine .of_contexts (fun _ => rfl) ((l.pause_grown s.platform.bus).mono fun e he => Or.inl ?_)
    intro hk
    simp [Event.isReport, Event.isOverflow, Event.isPanic, hk] at he

/-! ### What the bus is told -/

/-- Allocating (`Stage.allocate`) tells of no restart. -/
theorem allocate_told (code : Code κ) (parent : Address) (t : Template κ) (s : Stage κ) :
    s.platform.bus.Grown (fun e => e.kind ≠ .actorRestarted)
      (s.allocate code parent t).2.platform.bus := by
  refine Allocates.allocate (R := fun s t =>
    s.platform.bus.Grown (fun e => e.kind ≠ .actorRestarted) t.platform.bus) ?_ parent t s
  refine ⟨fun _ => .refl _, .trans, fun parent id s => ?_, fun a t s => ?_, fun a s => ?_⟩
  · rw [(place_platform code parent id s).1]
    exact .refl _
  · obtain ⟨_, _, heq, hgrown⟩ := install_eq code a t s
    rw [heq]
    refine (Bus.Grown.publish _ ?_).trans (hgrown.mono fun e he => ?_)
    · simp [Event.about]
    · simp [he]
  · exact (terminate_removals code a s).shared.2.2.mono fun e he => by simp [he]

/-- **Whatever is done** to a stage (`Doing`), the bus is told of no restart, unless the application
does. -/
theorem Doing.told (h : Doing code V s t) :
    s.platform.bus.Grown (Unrestarted V) t.platform.bus := by
  cases h with
  | placid h => exact h.bus
  | allocate parent t => exact (allocate_told code parent t s).mono fun _ => Or.inl
  | terminate a =>
    exact (terminate_removals code a s).shared.2.2.mono fun e he => Or.inl (by simp [he])

end Stage

open Stage

/-- The calls that scripts, hooks and deliveries make (`Call.resume`, `Call.start`, `Call.flush`).
-/
def Call.isNested : Call κ → Bool
  | .resume _ _ | .start _ | .flush _ => true
  | .drain | .await _ | .run => false

namespace Flow

variable {α β γ : Type} {code : Code κ} {f : Flow κ α} {s t : Stage κ}

/-- A call tells of no restart (`Call.isNested`), or all of them are said to be told by the
application. -/
def Modest (V : Event → Prop) (c : Call κ) : Prop :=
  c.isNested = true ∨ ∀ e, V e

/-- Begun on a stage, the flow does one thing after another (`Doing`), whatever its calls come to.
-/
def Goes (code : Code κ) (V : Event → Prop) : Flow κ α → Stage κ → Prop
  | done _, _ => True
  | get next, s => Goes code V (next s) s
  | set t next, s => Doing code V s t ∧ Goes code V next t
  | call c next, _ => Modest V c ∧ ∀ x t, Goes code V (next x) t

/-! ## Rules -/

namespace Goes

theorem pure (x : α) (s : Stage κ) : Goes code V (Pure.pure x : Flow κ α) s :=
  trivial

theorem bind {k : α → Flow κ β} (h : Goes code V f s) (hk : ∀ x t, Goes code V (k x) t) :
    Goes code V (f >>= k) s := by
  induction f generalizing s with
  | done x => exact hk x s
  | get next ih => exact ih s h
  | set t next ih => exact ⟨h.1, ih h.2⟩
  | call c next ih => exact ⟨h.1, fun x t => ih x (h.2 x t)⟩

theorem ask {q : Platform κ → γ} {k : γ → Flow κ α} (h : Goes code V (k (q s.platform)) s) :
    Goes code V (Flow.ask q >>= k) s :=
  h

theorem see {k : Stage κ → Flow κ α} (h : Goes code V (k s) s) :
    Goes code V (get Flow.done >>= k) s :=
  h

theorem onStage {m : Stage κ → α × Stage κ} (h : Doing code V s (m s).2) :
    Goes code V (Flow.onStage m) s :=
  ⟨h, trivial⟩

theorem modify {m : Stage κ → Stage κ} (h : Doing code V s (m s)) : Goes code V (Flow.modify m) s :=
  ⟨h, trivial⟩

theorem edit {m : Platform κ → Platform κ} (h : Placid V s.platform (m s.platform)) :
    Goes code V (Flow.edit m) s :=
  ⟨.placid h, trivial⟩

theorem onPlatform {m : Platform κ → α × Platform κ} (h : Placid V s.platform (m s.platform).2) :
    Goes code V (Flow.onPlatform m) s :=
  ⟨.placid h, trivial⟩

theorem invoke {c : Call κ} (h : Modest V c) : Goes code V (Flow.invoke c) s :=
  ⟨h, fun _ _ => trivial⟩

theorem nested {c : Call κ} (h : c.isNested = true) : Goes code V (Flow.invoke c) s :=
  invoke (Or.inl h)

theorem when {f : Flow κ Unit} (b : Bool) (h : Goes code V f s) :
    Goes code V (Flow.when b f) s := by
  unfold Flow.when
  split
  · exact h
  · exact pure () s

theorem ite {p : Prop} [Decidable p] {g : Flow κ α} (hf : Goes code V f s) (hg : Goes code V g s) :
    Goes code V (if p then f else g) s := by
  split
  · exact hf
  · exact hg

end Goes

/-! ## Deliveries -/

theorem deliverAt_goes (a : Address) (env : Envelope) (transferred : Bool) (s : Stage κ) :
    Goes code V (deliverAt a env transferred) s := by
  unfold deliverAt
  refine .ask ?_
  split
  · exact .pure _ _
  · refine .bind (.edit (.publish _ (Or.inl (by simp [Event.withEnvelope, Event.about]))))
      fun _ t => ?_
    split
    · exact .bind (.edit ((Placid.putMail _ a env).trans (.look _ a))) fun _ _ => .pure _ _
    · refine .bind (.edit (.modify _ a fun _ => rfl)) fun _ _ => ?_
      exact .bind (.nested rfl) fun _ _ => .pure _ _

theorem transfer_goes (router : Address) (env : Envelope) (s : Stage κ) :
    Goes code V (transfer router env) s := by
  unfold transfer
  refine .bind (.edit (.publish _ (Or.inl (by simp [Event.withEnvelope, Event.about]))))
    fun _ t => .ask (.ite (deliverAt_goes router env true t) ?_)
  exact .bind (.edit (.drop _ env)) fun _ _ => .pure _ _

theorem route_goes (env : Envelope) (s : Stage κ) : Goes code V (route env) s := by
  unfold route
  refine .ite (.pure _ _) (.ask ?_)
  split
  · exact transfer_goes _ env s
  · exact deliverAt_goes env.target env false s

theorem countM_goes {f : γ → Flow κ Bool} (hf : ∀ x s, Goes code V (f x) s) (xs : List γ)
    (s : Stage κ) : Goes code V (countM f xs) s := by
  induction xs generalizing s with
  | nil => exact .pure _ _
  | cons x xs ih => exact .bind (hf x s) fun b t => .bind (ih t) fun n u => .pure _ _

theorem routeToMembers_goes (group : String) (source : Address) (message : Message)
    (s : Stage κ) : Goes code V (routeToMembers group source message) s := by
  unfold routeToMembers
  exact .ask (countM_goes (fun _ t => route_goes _ t) _ s)

/-! ## Starting, removing and allocating -/

theorem startAll_goes (as : List Address) (s : Stage κ) : Goes code V (startAll as) s := by
  induction as generalizing s with
  | nil => exact .pure _ _
  | cons a as ih =>
    unfold startAll
    refine .ask (.ite (.bind (.nested rfl) fun x t => ?_) (ih s))
    split
    · exact ih t
    · exact .pure _ _

theorem startTree_goes (a : Address) (s : Stage κ) : Goes code V (startTree a) s := by
  unfold startTree
  refine .ask (.bind (.nested rfl) fun x t => ?_)
  split
  · exact startAll_goes _ t
  · exact .pure _ _

theorem killFor_goes (caller target : Address) (s : Stage κ) :
    Goes code V (killFor code caller target) s := by
  unfold killFor
  exact .ite (.bind (.modify (.terminate target)) fun _ _ => .pure _ _) (.pure _ _)

/-! ## Application code -/

theorem exec_goes (m : Machine κ) (script : Script κ) (s : Stage κ) :
    Goes code V (exec m script) s := by
  unfold exec
  split
  · exact .nested rfl
  · exact .bind (.edit (.raise _ _ _)) fun _ _ => .pure _ _

theorem onBehalf_goes (m : Machine κ) (h : Goes code V f s) : Goes code V (onBehalf m f) s :=
  .bind h fun _ _ => .pure _ _

theorem answer_goes (m : Machine κ) {r : Request κ} (hr : ∀ e, r = .trigger e → V e)
    (s : Stage κ) : Goes code V (answer code m r) s := by
  cases r with
  | tell target message => exact .bind (exec_goes m _ s) fun _ _ => .pure _ _
  | broadcast group message => exact onBehalf_goes m (routeToMembers_goes group _ message s)
  | forward env =>
    refine onBehalf_goes m (.ask (.ite ?_ (deliverAt_goes env.target env false s)))
    exact .bind (.edit (.drop _ env)) fun _ _ => .pure _ _
  | drop env => exact onBehalf_goes m (.edit (.drop _ env))
  | receive matcher => exact onBehalf_goes m (.edit (.arm _ _ matcher))
  | kill target => exact onBehalf_goes m (killFor_goes m.address target s)
  | start target => exact onBehalf_goes m (.nested rfl)
  | exit => exact onBehalf_goes m (.modify (.terminate m.address))
  | raise error => exact onBehalf_goes m (.edit (.raise _ m.address error))
  | runTask task => exact onBehalf_goes m (.onPlatform (.register _ m.address task))
  | route target => exact onBehalf_goes m (.edit (.putRoute _ target m.address))
  | unroute target => exact onBehalf_goes m (.edit (.removeRoute _ target))
  | join group => exact onBehalf_goes m (.onPlatform (.join _ group m.address))
  | exec script => exact exec_goes m script s
  | spawn template =>
    refine onBehalf_goes m (.bind (.onStage (.allocate m.address template)) fun x t => ?_)
    split
    · exact .pure _ _
    · refine .bind (startTree_goes _ t) fun y u => ?_
      split
      · exact .pure _ _
      · exact .pure _ _
  | alloc template => exact onBehalf_goes m (.onStage (.allocate m.address template))
  | trigger e => exact onBehalf_goes m (.edit (.publish _ (Or.inr (hr e rfl))))
  | stop => exact onBehalf_goes m (.edit (.of_contexts (fun _ => rfl) (.refl _)))

/-- **Application code** (`serve`) goes on like this, whatever it asks for. -/
theorem serve_goes {act : Act κ α} (hact : act.Publishes V) (m : Machine κ) (s : Stage κ) :
    Goes code V (serve code act m) s := by
  induction act generalizing m s with
  | done x => exact .pure _ _
  | ask r next ih => exact .bind (answer_goes m hact.1 s) fun x t => ih x.1 (hact.2 x.1) x.2 t
  | look next ih => exact ih s.platform s.world (hact _ _) m s
  | put w next ih =>
    refine .bind (.modify (.placid ?_)) fun _ t => ih hact m t
    exact .of_contexts (fun _ => rfl) (.refl _)

/-! ## Lending and giving back -/

theorem checkOut_goes (a : Address) (s : Stage κ) : Goes code V (checkOut a) s :=
  .onPlatform (.modify _ a fun _ => rfl)

theorem checkIn_goes (m : Machine κ) (s : Stage κ) : Goes code V (checkIn m) s := by
  refine .edit ?_
  split
  · have hback : Placid V s.platform
        (s.platform.modifyContext m.address fun c => { c with machine := some m }) :=
      .modify _ _ fun _ => rfl
    exact hback.trans (.enqueue _ _)
  · exact .of_contexts (fun _ => rfl) (.refl _)

/-! ## The ends of scripts and slots -/

theorem leaveFrame_goes (m : Machine κ) (base : Nat) (s : Stage κ) :
    Goes code V (leaveFrame m base) s := by
  unfold leaveFrame
  exact .ite (.pure _ _) (.nested rfl)

theorem failScript_goes (m : Machine κ) (base : Nat) (e : ActorError) (s : Stage κ) :
    Goes code V (failScript m base e) s :=
  .bind (.edit (.raise _ _ e)) fun _ _ => .pure _ _

theorem goOn_goes (m : Machine κ) (base : Nat) (met : Met κ) (s : Stage κ) :
    Goes code V (goOn m base met) s := by
  cases met with
  | nothing => exact .nested rfl
  | halt => exact .pure _ _
  | failed e => exact failScript_goes m base e s
  | push v =>
    unfold goOn
    dsimp only
    split
    · exact .nested rfl
    · exact failScript_goes m base _ s

theorem runSlot_goes (a : Address) (slot : Slot κ) (s : Stage κ) :
    Goes code V (runSlot a slot) s := by
  unfold runSlot
  refine .ask (.ite (.pure _ _) (.bind (checkOut_goes a s) fun m t => ?_))
  split
  · refine .bind (.edit (.of_contexts (fun _ => rfl) (.refl _))) fun _ _ => .pure _ _
  · refine .bind (exec_goes _ _ t) fun x u => .bind (checkIn_goes _ u) fun _ _ => ?_
    exact .bind (.nested rfl) fun _ _ => .pure _ _

theorem settleTask_goes (id : Nat) (outcome : Outcome) (s : Stage κ) :
    Goes code V (settleTask id outcome) s := by
  unfold settleTask
  refine .bind (.onPlatform (.settle _ id outcome)) fun owner t => ?_
  split
  · exact .pure _ _
  · split
    · exact .pure _ _
    · exact .bind (route_goes _ t) fun _ _ => .pure _ _
    · exact .edit (.raise _ _ _)

theorem finishRun_goes (reason : String) (s : Stage κ) : Goes code V (finishRun reason) s := by
  unfold finishRun
  refine .bind (.edit (.publish _ (Or.inl (by simp)))) fun _ t => .ask ?_
  split
  · exact .pure _ _
  · exact .pure _ _

/-! ## Working off queues and tasks -/

section Any

variable (hall : ∀ e, V e)

include hall

theorem restart_goes (r : Raised κ) (s : Stage κ) : Goes code V (restart code r) s := by
  unfold restart
  refine .ask ?_
  split
  · exact .pure _ _
  · refine .bind (.modify (.terminate _)) fun _ t => ?_
    refine .bind (.onStage (.allocate _ _)) fun x u => ?_
    split
    · exact .pure _ _
    · refine .bind (.edit (.publish _ (Or.inr (hall _)))) fun _ v => ?_
      exact .bind (startTree_goes _ v) fun _ _ => .pure _ _

theorem supervise_goes (r : Raised κ) (s : Stage κ) : Goes code V (supervise code r) s := by
  unfold supervise
  refine .bind (.onStage (.placid (placid_judge code r _ s))) fun x t => ?_
  split
  · exact .pure _ _
  · exact restart_goes hall r t
  · exact .modify (.terminate r.source)
  · exact .edit (.of_contexts (fun _ => rfl) (.publish _ (Or.inr (hall _))))

theorem drainQueues_goes (s : Stage κ) : Goes code V (drainQueues code) s := by
  have drain (t : Stage κ) : Goes code V (Flow.invoke .drain) t := .invoke (Or.inr hall)
  unfold drainQueues
  refine .ask (.ite (.pure _ _) ?_)
  split
  · refine .bind (.edit (.of_contexts (fun _ => rfl) (.refl _))) fun _ t => ?_
    exact .bind (supervise_goes hall _ t) fun _ u => drain u
  · split
    · exact .pure _ _
    · rename_i p hturn
      exact .bind (.edit (Placid.skip hturn)) fun _ t => drain t
    · rename_i a slot p hturn
      refine .bind (.edit (Placid.begin hturn)) fun _ t => .bind (runSlot_goes a slot t) ?_
      exact fun deferred u => .bind (.edit (.endTurn _ a deferred)) fun _ v => drain v

theorem awaitTask_goes (polled : Nat) (s : Stage κ) : Goes code V (awaitTask code polled) s := by
  have still {q : Platform κ} (p : Platform κ) (hc : q.contexts = p.contexts) (hb : q.bus = p.bus) :
      Placid V p q :=
    .of_contexts (fun a => congrArg (·.get? a) hc) (hb ▸ .refl _)
  have await (n : Nat) (t : Stage κ) : Goes code V (Flow.invoke (.await n)) t :=
    .invoke (Or.inr hall)
  unfold awaitTask
  refine .see ?_
  split
  · exact .pure _ _
  · split
    · exact .pure _ _
    refine .bind (.modify (.placid (still _ rfl rfl))) fun _ t => ?_
    split
    · exact .bind (.edit (still _ rfl rfl)) fun _ _ => .pure _ _
    · refine .bind (.edit (still _ rfl rfl)) fun _ u => .ite ?_ (await _ u)
      exact .bind (.modify (.placid (placid_pause _))) fun _ v => await _ v

theorem runLoop_goes (s : Stage κ) : Goes code V (runLoop (κ := κ)) s := by
  unfold runLoop
  refine .bind (.invoke (Or.inr hall)) fun _ t => .ask ?_
  refine .ite (finishRun_goes _ t) (.ite (finishRun_goes _ t) ?_)
  refine .bind (.invoke (Or.inr hall)) fun x u => ?_
  split
  · exact finishRun_goes _ u
  · exact .bind (.edit (.of_contexts (fun _ => rfl) (.refl _))) fun _ v => finishRun_goes _ v
  · exact .bind (settleTask_goes _ _ u) fun _ _ => .invoke (Or.inr hall)

end Any

/-! ## Actors at work -/

section Publishes

variable (hpub : code.Publishes V)

include hpub

theorem act_goes (m : Machine κ) (hook : Hook) (s : Stage κ) : Goes code V (act code m hook) s := by
  unfold act
  refine .see ?_
  split
  · refine .ite (.pure _ _) (.bind (.edit (.modify _ _ fun _ => rfl)) fun _ t => ?_)
    refine .bind (serve_goes (hpub.1 _ _ _) m t) fun x u => ?_
    refine .bind (.modify (.placid ?_)) fun _ _ => .pure _ _
    split
    · exact .modify _ _ fun _ => rfl
    · exact .of_contexts (fun _ => rfl) (.refl _)
  · exact .pure _ _

theorem actAt_goes (a : Address) (hook : Hook) (s : Stage κ) :
    Goes code V (actAt code a hook) s := by
  unfold actAt
  refine .bind (checkOut_goes a s) fun m t => ?_
  split
  · exact .pure _ _
  · exact .bind (act_goes hpub _ hook t) fun x u => .bind (checkIn_goes _ u) fun _ _ => .pure _ _

theorem readMail_goes (m : Machine κ) (s : Stage κ) : Goes code V (readMail code m) s := by
  unfold readMail
  refine .ask (.ite (.bind (.edit (.look _ _)) fun _ _ => .pure _ _) ?_)
  split
  · exact .pure _ _
  · rename_i hit p htake
    have htaken : Placid V s.platform (p.publish (Event.withEnvelope
        { kind := .messageReceived, address := some m.address, reason := some hit.tag }
        hit.envelope)) :=
      (Placid.takeMatch htake).trans (.publish _ (Or.inl (by simp [Event.withEnvelope])))
    refine .bind (.edit htaken) fun _ t => .bind (act_goes hpub m _ t) fun x u => ?_
    have rest (u : Stage κ) : Goes code V (when hit.temporary
        (modify (Stage.terminate code x.2.address)) >>= fun _ =>
          pure (Met.push (κ := κ) (.int 1), x.2)) u :=
      .bind (.when _ (.modify (.terminate _))) fun _ _ => .pure _ _
    dsimp only
    split
    · exact .bind (.edit (.raise _ _ _)) fun _ v => rest v
    · exact rest u

theorem meet_goes (m : Machine κ) (d : Demand κ) (s : Stage κ) :
    Goes code V (meet code m d) s := by
  cases d with
  | allocate template =>
    refine onBehalf_goes m (.bind (.onStage (.allocate m.address template)) fun x t => ?_)
    split
    · exact .pure _ _
    · exact .pure _ _
  | start target => exact onBehalf_goes m (.bind (.nested rfl) fun _ _ => .pure _ _)
  | send target message => exact onBehalf_goes m (.bind (route_goes _ s) fun _ _ => .pure _ _)
  | drop target message =>
    exact onBehalf_goes m (.bind (.edit (.drop _ _)) fun _ _ => .pure _ _)
  | arm matcher => exact onBehalf_goes m (.bind (.edit (.arm _ _ matcher)) fun _ _ => .pure _ _)
  | countReceivers => exact onBehalf_goes m (.ask (.pure _ _))
  | countMail => exact onBehalf_goes m (.ask (.pure _ _))
  | takeMail =>
    refine onBehalf_goes m (.bind (.onPlatform (.takeMail _ _)) fun x t => ?_)
    split
    · exact .pure _ _
    · exact .pure _ _
  | read => exact readMail_goes hpub m s
  | discardMail =>
    exact onBehalf_goes m (.bind (.edit (.discard _ _)) fun _ _ => .pure _ _)
  | kill target => exact onBehalf_goes m (.bind (killFor_goes _ target s) fun _ _ => .pure _ _)
  | route target =>
    exact onBehalf_goes m (.bind (.edit (.putRoute _ target _)) fun _ _ => .pure _ _)
  | unroute target =>
    exact onBehalf_goes m (.bind (.edit (.removeRoute _ target)) fun _ _ => .pure _ _)
  | foreign f args =>
    refine .bind (serve_goes (hpub.2 _ _ _) m s) fun x t => ?_
    dsimp only
    split
    · exact .pure _ _
    · exact .pure _ _

/-! ## The bodies -/

theorem carryOut_goes (m : Machine κ) (base : Nat) (i : Instr) (s : Stage κ) :
    Goes code V (carryOut code m base i) s := by
  unfold carryOut
  split
  · exact failScript_goes m base _ s
  · exact .nested rfl
  · exact .bind (meet_goes hpub _ _ s) fun x t => goOn_goes x.2 base x.1 t

theorem runMachine_goes (m : Machine κ) (base : Nat) (s : Stage κ) :
    Goes code V (runMachine code m base) s := by
  unfold runMachine
  refine .ask (.ite (.pure _ _) (.ite (.pure _ _) ?_))
  split
  · exact leaveFrame_goes m base s
  · refine .bind (.when _ (.edit (.publish _ (Or.inl (by simp))))) fun _ t => ?_
    exact .ite (leaveFrame_goes _ base t) (carryOut_goes hpub _ base _ t)

theorem startActor_goes (a : Address) (s : Stage κ) : Goes code V (startActor code a) s := by
  unfold startActor
  refine .ask (.ite (.pure _ _) ?_)
  refine .bind (.edit (.publish _ (Or.inl (by simp [Event.about])))) fun _ t => ?_
  refine .bind (actAt_goes hpub a .run t) fun x u => .bind (.nested rfl) fun _ v => ?_
  split
  · exact .bind (.edit (.raise _ a _)) fun _ _ => .pure _ _
  · exact .pure _ _

theorem flushBacklog_goes (a : Address) (s : Stage κ) : Goes code V (flushBacklog code a) s := by
  unfold flushBacklog
  refine .ask ?_
  split
  · exact .pure _ _
  · rename_i env p htake
    refine .bind (.edit (Placid.takeBacklog htake)) fun _ t => ?_
    refine .bind (actAt_goes hpub a _ t) fun x u => ?_
    split
    · exact .bind (.edit (.raise _ a _)) fun _ _ => .nested rfl
    · exact .nested rfl

/-- **Every body** (`body`) goes on like this. -/
theorem body_goes {c : Call κ} (hc : Modest V c) (s : Stage κ) : Goes code V (body code c) s := by
  cases c with
  | resume m base => exact runMachine_goes hpub m base s
  | start a => exact startActor_goes hpub a s
  | flush a => exact flushBacklog_goes hpub a s
  | drain => exact drainQueues_goes (hc.resolve_left (by simp [Call.isNested])) s
  | await polled => exact awaitTask_goes (hc.resolve_left (by simp [Call.isNested])) polled s
  | run => exact runLoop_goes (hc.resolve_left (by simp [Call.isNested])) s

/-! ## Step by step -/

/-- **A step** (`Advance`) does one thing to the stage, or leaves it as it is. -/
theorem Advance.goes {g : Flow κ α} (h : Advance (body code) (f, s) (g, t))
    (hf : Goes code V f s) : Goes code V g t ∧ (t = s ∨ Doing code V s t) := by
  cases h with
  | get => exact ⟨hf, Or.inl rfl⟩
  | set => exact ⟨hf.2, Or.inr hf.1⟩
  | call => exact ⟨.bind (body_goes hpub hf.1 s) hf.2, Or.inl rfl⟩

/-- **On the way** (`Advances`) of modest work the bus is told of no restart, unless the application
does. -/
theorem Advances.told {x y : Flow κ α × Stage κ} (h : Advances (body code) x y)
    (hx : Goes code V x.1 x.2) :
    Goes code V y.1 y.2 ∧ x.2.platform.bus.Grown (Unrestarted V) y.2.platform.bus := by
  induction h with
  | refl => exact ⟨hx, .refl _⟩
  | @tail y z _ hstep ih =>
    obtain ⟨hy, hgrown⟩ := ih
    obtain ⟨hz, hsame | hdoing⟩ := hstep.goes hpub hy
    · exact ⟨hz, hsame ▸ hgrown⟩
    · exact ⟨hz, hgrown.trans hdoing.told⟩

end Publishes

end Flow

/-! ## Operations -/

namespace Operation

open Troupe.Flow

variable {α : Type} {code : Code κ} {f : Flow κ α} {s : Stage κ}

theorem thenDrain_goes (hall : ∀ e, V e) (h : Goes code V f s) : Goes code V (thenDrain f) s :=
  .bind h fun _ _ => .bind (.invoke (Or.inr hall)) fun _ _ => .pure _ _

theorem spawnUnder_goes (hall : ∀ e, V e) (parent : Address) (t : Template κ) :
    Goes code V (spawnUnder code parent t) s := by
  unfold spawnUnder
  refine .bind (.onStage (.allocate parent t)) fun x u => ?_
  split
  · exact .pure _ _
  · refine thenDrain_goes hall (.bind (startTree_goes _ u) fun y v => ?_)
    split
    · exact .pure _ _
    · exact .pure _ _

/-- **Every operation** (`Operation.Public`) goes on like this. -/
theorem Public.goes (hf : Public code f) (hall : ∀ e, V e) (s : Stage κ) : Goes code V f s := by
  cases hf with
  | spawn t => exact spawnUnder_goes hall .root t
  | spawnUnder parent t => exact spawnUnder_goes hall parent t
  | allocate parent t => exact .onStage (.allocate parent t)
  | runActor a => exact thenDrain_goes hall (.nested rfl)
  | exec a script =>
    unfold Operation.exec
    refine .ask ?_
    split
    · exact .pure _ _
    · exact thenDrain_goes hall (.bind (.edit (.schedule _ a _ _)) fun _ _ => .pure _ _)
  | eval a script =>
    unfold Operation.eval
    refine .ask (.ite (.pure _ _) (.bind (checkOut_goes a s) fun m t => ?_))
    split
    · exact .pure _ _
    · refine thenDrain_goes hall (.bind (exec_goes _ script t) fun x u => ?_)
      refine .bind (checkIn_goes _ u) fun _ _ => ?_
      exact .bind (.nested rfl) fun _ _ => .pure _ _
  | send target source message => exact thenDrain_goes hall (route_goes _ s)
  | tellFrom target source message =>
    refine thenDrain_goes hall (.bind (route_goes _ s) fun sent t => ?_)
    exact .bind (.when _ (.edit (.drop _ _))) fun _ _ => .pure _ _
  | tell target message =>
    refine thenDrain_goes hall (.bind (route_goes _ s) fun sent t => ?_)
    exact .bind (.when _ (.edit (.drop _ _))) fun _ _ => .pure _ _
  | broadcastFrom group source message =>
    exact thenDrain_goes hall (routeToMembers_goes group source message s)
  | broadcast group message =>
    exact thenDrain_goes hall (routeToMembers_goes group .discard message s)
  | dropMessage env => exact .edit (.drop _ env)
  | kill target => exact thenDrain_goes hall (.modify (.terminate target))
  | raise a e => exact thenDrain_goes hall (.edit (.raise _ a e))
  | putRoute target router => exact .edit (.putRoute _ target router)
  | removeRoute target => exact .edit (.removeRoute _ target)
  | putMember group a => exact .onPlatform (.join _ group a)
  | removeMember group a => exact .onPlatform (.part _ group a)
  | trigger e => exact .edit (.publish _ (Or.inr (hall e)))
  | stop => exact .edit (.of_contexts (fun _ => rfl) (.refl _))
  | run => exact .invoke (Or.inr hall)

end Operation

end Troupe
