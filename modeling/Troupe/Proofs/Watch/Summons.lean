import Troupe.Proofs.Flow.Doings
import Troupe.Proofs.Watch.Diary
import Troupe.Proofs.Watch.Ledger

/-!
# Starts that are told

The bus tells that an actor was started before the actor acts on that (`start_actor`). `summons` are
the starts that were told to actors at hand (`Platform.atHand?`), as they can be read off the stages
of a life, and `Diary.runs` the runs that were begun. Whatever else is done to a stage in one go, it
tells of no start, and no actor begins to act on one (`Platform.Hushed`, `Stage.Hushed`, with a
lemma for each change). What was told and has not begun is owed (`Stage.Owes`).

What allocating and removing does is among it (`Hushed.tended`), and so is judging an error
(`Hushed.judge`), all that a step does (`Platform.Hushed.schedule`, `Platform.Hushed.takeMatch` and
so on) and a pause (`Hushed.pause`).

Headlines:
* **`Stage.Hushed.owes`**: where nothing is told and nothing begins, what is owed stays owed.
* **`Stage.Owes.publish`**, **`Stage.Owes.begin`**: a start that is told is owed, and the run that
  is owed begins.
-/

namespace Troupe

variable {κ : App} {V : Event → Prop}

open Platform Troupe.Flow

/-! ## Starts and runs -/

/-- Whether an event tells that the actor at an address was started (`EventKind.actorStarted`). -/
def Event.starts (a : Address) (e : Event) : Bool :=
  e.kind == .actorStarted && e.address == some a

/-- The incarnation that begins to act on being started (`Hook.run`), if it is one of the address.
-/
def Deed.runs (a : Address) : Deed → List Nat
  | .began .run b g => if b = a then [g] else []
  | .began (.accept _) _ _ | .began (.receive _ _) _ _ | .built | .init | .ended | .stopped => []

/-- The incarnations that began to act on being started at an address, in order (`Deed.runs`). -/
def Diary.runs (a : Address) : Diary → List Nat
  | [] => []
  | e :: d => runs a d ++ e.deed.runs a

/-- The incarnation at an address, if its actor and its machine are at hand (`Context.isIdle`). -/
def Platform.atHand? (p : Platform κ) (a : Address) : Option Nat :=
  ((p.context? a).filter Context.isIdle).map Context.generation

/-- The incarnations that were at hand on a stage when their start was told (`Event.starts`). -/
def summons (a : Address) (s t : Stage κ) : List Nat :=
  (s.platform.bus.since t.platform.bus).filterMap fun e =>
    if e.starts a then s.platform.atHand? a else none

/-- The run that is owed at an address, if any. -/
def owed (a : Address) : Option (Address × Nat) → List Nat
  | some (b, g) => if b = a then [g] else []
  | none => []

theorem length_owed (a : Address) (o : Option (Address × Nat)) : (owed a o).length ≤ 1 := by
  unfold owed
  split
  · split <;> simp
  · simp

theorem runs_cons (a : Address) (n : Nat) (deed : Deed) (d : Diary) :
    Diary.runs a (⟨n, deed⟩ :: d) = Diary.runs a d ++ deed.runs a := rfl

/-- What is noted of actors but that they begin to act on being started. -/
theorem runs_of_cons {a : Address} {n : Nat} {deed : Deed} {d : Diary} (hd : deed.runs a = []) :
    Diary.runs a (⟨n, deed⟩ :: d) = Diary.runs a d := by
  rw [runs_cons, hd, List.append_nil]

namespace Platform

variable {p : Platform κ} {a : Address} {c : Context κ}

theorem atHand?_idle (hc : p.context? a = some c) (h : c.isIdle = true) :
    p.atHand? a = some c.generation := by
  unfold atHand?
  rw [hc, Option.filter_some, if_pos h]
  rfl

theorem atHand?_busy (hc : p.context? a = some c) (h : c.isIdle = false) : p.atHand? a = none := by
  unfold atHand?
  rw [hc, Option.filter_some, if_neg (by simp [h])]
  rfl

end Platform

/-- No start was told (`Event.starts`). -/
def Platform.Hushed (p q : Platform κ) : Prop :=
  p.bus.Grown (fun e => e.kind ≠ .actorStarted) q.bus

/-- No start was told (`Platform.Hushed`), and nobody began to act on one (`Diary.runs`). -/
structure Stage.Hushed (s t : Stage κ.recorded) : Prop where
  platform : s.platform.Hushed t.platform
  runs : ∀ a, Diary.runs a t.world.2 = Diary.runs a s.world.2

/-- From one stage to the next all is owed that is told and has not begun (`owed`). -/
def Stage.Owes (s : Stage κ.recorded) (o o' : Option (Address × Nat)) (t : Stage κ.recorded) :
    Prop :=
  ∀ a, Diary.runs a s.world.2 ++ owed a o ++ summons a s t = Diary.runs a t.world.2 ++ owed a o'

/-! ## What tells of no start -/

namespace Platform.Hushed

variable {p q r : Platform κ} {a : Address}

theorem of_bus (h : q.bus = p.bus) : Hushed p q :=
  .of_published (congrArg Bus.published h)

theorem trans (h : Hushed p q) (h' : Hushed q r) : Hushed p r :=
  Bus.Grown.trans h h'

theorem publish (p : Platform κ) {e : Event} (he : e.kind ≠ .actorStarted) :
    Hushed p (p.publish e) :=
  Bus.Grown.publish _ he

theorem raise (p : Platform κ) (a : Address) (e : ActorError) : Hushed p (p.raiseAt a e) :=
  Bus.Grown.publish _ (by simp)

theorem drop (p : Platform κ) (env : Envelope) : Hushed p (p.dropMessage env) :=
  publish p (by simp [Event.withEnvelope])

theorem enqueue (p : Platform κ) (a : Address) : Hushed p (p.enqueue a) := by
  obtain ⟨_, _, _, h⟩ := enqueue_eq p a
  rw [h]
  exact of_bus rfl

theorem look (p : Platform κ) (a : Address) : Hushed p (p.scheduleMail a) := by
  obtain ⟨_, _, _, _, h⟩ := scheduleMail_eq p a
  rw [h]
  exact of_bus rfl

theorem schedule (p : Platform κ) (a : Address) (g : Nat) (w : Work κ) :
    Hushed p (p.schedule a g w) := by
  obtain ⟨_, _, _, h⟩ := schedule_eq p a g w
  rw [h]
  exact of_bus rfl

theorem endTurn (p : Platform κ) (a : Address) (deferred : Bool) :
    Hushed p (p.endTurn a deferred) := by
  cases deferred with
  | true => exact of_bus rfl
  | false =>
    obtain ⟨_, _, _, h⟩ := endTurn_eq p a
    rw [h]
    exact of_bus rfl

theorem discard (p : Platform κ) (a : Address) : Hushed p (p.discardMail a) := by
  have htake : Hushed p (p.takeMail a).2 := of_bus rfl
  unfold discardMail
  split
  · rename_i heq
    rw [heq] at htake
    exact htake.trans (drop _ _)
  · rename_i heq
    rw [heq] at htake
    exact htake

theorem takeMatch {hit : Match} (h : p.takeMatch a = some (hit, q)) : Hushed p q := by
  obtain ⟨_, _, _, _, -, -, -, -, -, rfl⟩ := takeMatch_eq h
  exact of_bus rfl

theorem takeBacklog {env : Envelope} (h : p.takeBacklog a = some (env, q)) : Hushed p q := by
  obtain ⟨_, _, -, -, -, rfl⟩ := takeBacklog_some h
  exact of_bus rfl

theorem putRoute (p : Platform κ) (target router : Address) :
    Hushed p (p.putRoute target router) :=
  Bus.Grown.publish _ (by simp)

theorem removeRoute (p : Platform κ) (target : Address) : Hushed p (p.removeRoute target) := by
  unfold Platform.removeRoute
  split
  · exact Bus.Grown.publish _ (by simp)
  · exact of_bus rfl

theorem join (p : Platform κ) (group : String) (a : Address) :
    Hushed p (p.putMember group a).2 := by
  unfold putMember
  dsimp only
  split
  · exact of_bus rfl
  · exact Bus.Grown.publish _ (by simp)

theorem part (p : Platform κ) (group : String) (a : Address) :
    Hushed p (p.removeMember group a).2 := by
  obtain ⟨_, h⟩ := removeMember_eq p group a
  rw [h]
  exact of_bus rfl

theorem register (p : Platform κ) (a : Address) (task : κ.Task) :
    Hushed p (p.registerTask a task).2 :=
  Bus.Grown.publish _ (by simp)

theorem settle (p : Platform κ) (id : Nat) (o : Outcome) : Hushed p (p.settle id o).2 := by
  cases he : p.entries.get? id with
  | none => exact of_bus (congrArg Platform.bus (settle_none o he))
  | some e =>
    obtain ⟨_, h⟩ := settle_some o he
    rw [h]
    obtain ⟨_, _, _, hu⟩ := unblock_eq p e.owner id
    rw [hu]
    exact Bus.Grown.publish _ (by simp)

theorem skip (h : p.turn = .skipped q) : Hushed p q := by
  obtain ⟨_, _, _, ⟨-, rfl⟩ | ⟨-, rfl⟩⟩ := turn_skipped h
  · exact of_bus rfl
  · exact of_bus rfl

theorem begin {slot : Slot κ} (h : p.turn = .slot a slot q) : Hushed p q := by
  obtain ⟨_, _, _, _, _, rfl⟩ := turn_slot h
  exact of_bus rfl

theorem reports (h : p.bus.Grown (fun e => e.isReport = true ∨ e.kind ≠ .actorStarted) q.bus) :
    Hushed p q := by
  refine Bus.Grown.mono h fun e he => he.elim (fun hr hk => ?_) id
  simp [Event.isReport, Event.isOverflow, Event.isPanic, hk] at hr

end Platform.Hushed

namespace Stage.Hushed

variable {code : Code κ.recorded} {s t u : Stage κ.recorded}

theorem refl (s : Stage κ.recorded) : Hushed s s :=
  ⟨.of_bus rfl, fun _ => rfl⟩

theorem trans (h : Hushed s t) (h' : Hushed t u) : Hushed s u :=
  ⟨h.platform.trans h'.platform, fun a => (h'.runs a).trans (h.runs a)⟩

/-- The diary is left alone (`SameDiary`). -/
theorem of_diary (hp : s.platform.Hushed t.platform) (hw : SameDiary s.world t.world) :
    Hushed s t :=
  ⟨hp, fun a => congrArg (Diary.runs a) hw⟩

/-- Only the platform changes (`Stage.edit`). -/
theorem edit {f : Platform κ.recorded → Platform κ.recorded}
    (h : s.platform.Hushed (f s.platform)) : Hushed s (s.edit f) :=
  of_diary h rfl

/-- An entry is made, but not of a run. -/
theorem note {n : Nat} {deed : Deed} (h : ∀ a, deed.runs a = []) : Hushed s (s.note n deed) :=
  ⟨.of_bus rfl, fun a => runs_of_cons (h a)⟩

/-- Removing actors, or none (`Tended`). -/
theorem tended (h : Tended code.recorded SameDiary s t) : Hushed s t := by
  refine ⟨h.tells.mono fun e he => ?_, fun a => h.reading (fun n deed d hd => ?_)⟩
  · rcases he with he | he | he <;> simp [he]
  · refine runs_of_cons ?_
    cases deed with
    | began hook b g => exact absurd rfl (hd hook b g)
    | built | init | ended | stopped => rfl

theorem terminate (a : Address) (s : Stage κ.recorded) : Hushed s (s.terminate code.recorded a) :=
  tended (terminate_tended a s)

theorem install (a : Address) (tmpl : Template κ.recorded) (s : Stage κ.recorded) :
    Hushed s (s.install code.recorded a tmpl) := by
  obtain ⟨_, _, heq, hgrown⟩ := install_eq code.recorded a tmpl s
  rw [heq]
  refine ⟨(Bus.Grown.publish _ ?_).trans (hgrown.mono fun e he => ?_), fun b => ?_⟩
  · simp [Event.about]
  · simp [he]
  · exact (runs_of_cons rfl).trans (runs_of_cons rfl)

theorem allocate (parent : Address) (tmpl : Template κ.recorded) (s : Stage κ.recorded) :
    Hushed s (s.allocate code.recorded parent tmpl).2 :=
  Allocates.allocate ⟨refl, trans,
    fun parent id s => tended (place_tended SameDiary.refl code.recorded_freshId parent id s),
    install, terminate⟩ parent tmpl s

/-- Judging an error (`Stage.judge`). -/
theorem judge (r : Raised κ.recorded) (levels : List Address) (s : Stage κ.recorded) :
    Hushed s (s.judge code.recorded r levels).2 := by
  obtain ⟨bus, hbus, hgrown⟩ := s.judge_told code.recorded r levels
  have hdiary := (judge_aloof (V := Event.Any) SameDiary.refl SameDiary.trans
    (fun trap e w => code.recorded_judge w trap e) r levels s).2
  refine of_diary ?_ hdiary
  rw [hbus]
  refine hgrown.mono fun e he => ?_
  rcases he with he | ⟨he, -⟩ <;> simp [he]

/-- A pause (`Stage.pause`). -/
theorem pause (s : Stage κ.recorded) : Hushed s s.pause := by
  unfold Stage.pause Stage.listen
  split
  · exact refl s
  · rename_i l hl
    exact of_diary (.reports ((l.pause_grown _).mono fun _ => Or.inl)) rfl

end Stage.Hushed

/-! ## What is owed -/

section Owes

variable {s t : Stage κ.recorded} {a : Address} {g : Nat} {o : Option (Address × Nat)}

theorem summons_of_hushed {s t : Stage κ} (h : s.platform.Hushed t.platform) :
    summons a s t = [] := by
  refine List.filterMap_eq_nil_iff.mpr fun e he => if_neg ?_
  have hkind := h.since e he
  simp [Event.starts, hkind]

/-- The start of an actor is told (`EventKind.actorStarted`). -/
theorem summons_publish (a b : Address) (s : Stage κ) :
    summons b s (s.edit (·.publish (.about .actorStarted a))) =
      owed b ((s.platform.atHand? a).map (a, ·)) := by
  have hsince : s.platform.bus.since (s.edit (·.publish (.about .actorStarted a))).platform.bus =
      [.about .actorStarted a] := since_publish _ _
  unfold summons
  rw [hsince]
  by_cases hab : a = b
  · subst hab
    cases s.platform.atHand? a <;> simp [Event.starts, Event.about, owed]
  · cases s.platform.atHand? a <;> simp [Event.starts, Event.about, hab, owed]

namespace Stage

/-- Nothing is told and nothing begins (`Stage.Hushed`). -/
theorem Hushed.owes (h : s.Hushed t) (o : Option (Address × Nat)) : s.Owes o o t := by
  intro a
  rw [summons_of_hushed h.platform, h.runs a, List.append_nil]

theorem Owes.publish (a : Address) (s : Stage κ.recorded) :
    s.Owes none ((s.platform.atHand? a).map (a, ·))
      (s.edit (·.publish (.about .actorStarted a))) := by
  intro b
  rw [summons_publish, show owed b none = [] from rfl, List.append_nil]
  rfl

/-- The run that is owed begins (`Hook.run`). -/
theorem Owes.begin (n : Nat) (a : Address) (g : Nat) (s : Stage κ.recorded) :
    s.Owes (some (a, g)) none (s.note n (.began .run a g)) := by
  intro b
  have hnone : summons b s (s.note n (.began .run a g)) = [] := summons_of_hushed (.of_bus rfl)
  rw [hnone, List.append_nil]
  exact (List.append_nil _).symm

end Stage

end Owes

end Troupe
