import Troupe.Event.Audience

/-!
# What the bus tells of tasks

A bus only takes in more events (`Bus.Grown`, with what is true of those that are new). Reading a
bus adds none to it (`receive_published`), and an audience adds nothing but reports of overflows and
panics (`Event.isReport`): neither `Channel.offer` nor `Channel.finish` has anything else to say,
and the rest is going through channels and rounds.

Events of two kinds tell of a task (`Event.isOfTask`): that it was registered (`register_task`), and
that it was settled (`settle`). `Bus.registered` and `Bus.settled` are the tasks that a bus has told
of, in order. A bus that takes in events of other kinds tells the same (`Bus.SameTold.of_grown`).

Headlines:
* **`Listener.pause_grown`**: a pause adds nothing to the bus but reports.
* **`Listener.pause_told`**: so it tells nothing new of tasks.
-/

namespace Troupe

/-- Whether an event tells of a task. -/
def Event.isOfTask (e : Event) : Bool :=
  e.kind == .taskRegistered || e.kind == .taskSettled

/-- True of every event. -/
def Event.Any (_ : Event) : Prop :=
  True

/-- The task of which an event tells (`Event.task`), if it is of a kind. -/
def Event.taskOf (k : EventKind) (e : Event) : Option Nat :=
  if e.kind = k then e.task else none

namespace Bus

/-- The tasks that events of a kind told of (`Event.taskOf`), in order. -/
def tasksOf (b : Bus) (k : EventKind) : List Nat :=
  b.published.toList.filterMap (Event.taskOf k)

/-- The tasks of which the bus told that they were registered (`EventKind.taskRegistered`). -/
def registered (b : Bus) : List Nat :=
  b.tasksOf .taskRegistered

/-- The tasks of which the bus told that they were settled (`EventKind.taskSettled`). -/
def settled (b : Bus) : List Nat :=
  b.tasksOf .taskSettled

/-- Nothing was told of tasks in between (`registered`, `settled`). -/
structure SameTold (b b' : Bus) : Prop where
  registered : b'.registered = b.registered
  settled : b'.settled = b.settled

variable {b b' b'' : Bus} {e : Event}

theorem SameTold.refl (b : Bus) : SameTold b b := ⟨rfl, rfl⟩

theorem SameTold.trans (h : SameTold b b') (h' : SameTold b' b'') : SameTold b b'' :=
  ⟨h'.registered.trans h.registered, h'.settled.trans h.settled⟩

theorem SameTold.of_published (h : b'.published = b.published) : SameTold b b' := by
  constructor
  · unfold Bus.registered tasksOf
    rw [h]
  · unfold Bus.settled tasksOf
    rw [h]

theorem tasksOf_publish (b : Bus) (e : Event) (k : EventKind) :
    (b.publish e).tasksOf k = b.tasksOf k ++ (e.taskOf k).toList := by
  unfold tasksOf publish
  rw [Array.toList_push, List.filterMap_append]
  cases h : e.taskOf k with
  | none => rw [List.filterMap_cons_none h, List.filterMap_nil, Option.toList_none]
  | some id => rw [List.filterMap_cons_some h, List.filterMap_nil, Option.toList_some]

theorem SameTold.publish (b : Bus) (he : e.isOfTask = false) : SameTold b (b.publish e) := by
  unfold Event.isOfTask at he
  rw [Bool.or_eq_false_iff, beq_eq_false_iff_ne, beq_eq_false_iff_ne] at he
  have same {k : EventKind} (hk : e.kind ≠ k) : (b.publish e).tasksOf k = b.tasksOf k := by
    rw [tasksOf_publish, Event.taskOf, if_neg hk, Option.toList_none, List.append_nil]
  exact ⟨same he.1, same he.2⟩

/-! ## Growth -/

/-- The bus has taken in more events, and `P` is true of each. -/
def Grown (P : Event → Prop) (b b' : Bus) : Prop :=
  ∃ es, b'.published.toList = b.published.toList ++ es ∧ ∀ e ∈ es, P e

variable {P Q : Event → Prop}

theorem Grown.refl (b : Bus) : Grown P b b :=
  ⟨[], (List.append_nil _).symm, fun _ he => absurd he List.not_mem_nil⟩

theorem Grown.trans (h : Grown P b b') (h' : Grown P b' b'') : Grown P b b'' := by
  obtain ⟨es, hes, hP⟩ := h
  obtain ⟨fs, hfs, hP'⟩ := h'
  refine ⟨es ++ fs, ?_, fun e he => (List.mem_append.mp he).elim (hP e) (hP' e)⟩
  rw [hfs, hes, List.append_assoc]

theorem Grown.mono (h : Grown P b b') (hPQ : ∀ e, P e → Q e) : Grown Q b b' :=
  h.imp fun _ hes => ⟨hes.1, fun e he => hPQ e (hes.2 e he)⟩

theorem Grown.of_published (h : b'.published = b.published) : Grown P b b' := by
  unfold Grown
  rw [h]
  exact Grown.refl b

theorem Grown.publish (b : Bus) (he : P e) : Grown P b (b.publish e) :=
  ⟨[e], Array.toList_push, fun _ hx => List.mem_singleton.mp hx ▸ he⟩

theorem Grown.publishAll (b : Bus) {es : List Event} (h : ∀ e ∈ es, P e) :
    Grown P b (b.publishAll es) := by
  induction es generalizing b with
  | nil => exact .refl b
  | cons e es ih =>
    have hrest := ih (b.publish e) fun e he => h e (List.mem_cons_of_mem _ he)
    exact (Grown.publish b (h e List.mem_cons_self)).trans hrest

theorem receive_published (b : Bus) (r : Nat) : (b.receive r).2.published = b.published := by
  unfold receive
  split
  · rfl
  · dsimp only
    split
    · rfl
    · split <;> rfl

/-- Events that do not tell of tasks (`Event.isOfTask`) tell nothing of tasks. -/
theorem SameTold.of_grown (h : Grown (fun e => e.isOfTask = false) b b') : SameTold b b' := by
  obtain ⟨es, hes, hnone⟩ := h
  have same {k : EventKind} (hk : ∀ e ∈ es, e.kind ≠ k) : b'.tasksOf k = b.tasksOf k := by
    have hes' : es.filterMap (Event.taskOf k) = [] :=
      List.filterMap_eq_nil_iff.mpr fun e he => if_neg (hk e he)
    rw [tasksOf, hes, List.filterMap_append, hes', List.append_nil, tasksOf]
  have hkinds (e : Event) (he : e ∈ es) : e.kind ≠ .taskRegistered ∧ e.kind ≠ .taskSettled := by
    have hnot : e.isOfTask = false := hnone e he
    unfold Event.isOfTask at hnot
    rwa [Bool.or_eq_false_iff, beq_eq_false_iff_ne, beq_eq_false_iff_ne] at hnot
  exact ⟨same fun e he => (hkinds e he).1, same fun e he => (hkinds e he).2⟩

end Bus

/-! ## Reports -/

/-- Whether an event reports what became of another one (`isOverflow`, `isPanic`). -/
def Event.isReport (e : Event) : Bool :=
  e.isOverflow || e.isPanic

/-- What a channel or an audience publishes are reports (`Event.isReport`). -/
def Reports {α : Type} (x : List Event × α) : Prop :=
  ∀ e ∈ x.1, e.isReport = true

namespace Channel

theorem offer_reports (c : Channel) (e : Event) : Reports (c.offer e) := by
  intro r hr
  unfold offer at hr
  split at hr
  · exact absurd hr List.not_mem_nil
  · dsimp only at hr
    split at hr
    · exact absurd hr List.not_mem_nil
    · obtain rfl := List.mem_singleton.mp hr
      rfl

theorem finish_reports (c : Channel) (e : Event) (how : Reaction) : Reports (c.finish e how) := by
  intro r hr
  cases how with
  | handled | died => exact absurd hr List.not_mem_nil
  | panicked info =>
    obtain rfl := List.mem_singleton.mp hr
    rfl

theorem handle_reports (c : Channel) (n : Nat) : Reports (c.handle n) := by
  induction n generalizing c with
  | zero => exact fun _ hr => absurd hr List.not_mem_nil
  | succ n ih =>
    intro r hr
    rw [handle] at hr
    split at hr
    · exact absurd hr List.not_mem_nil
    · rcases List.mem_append.mp hr with hr | hr
      · exact finish_reports _ _ _ r hr
      · exact ih _ r hr

end Channel

namespace Audience

theorem onEach_reports (a : Audience) {f : Channel → List Event × Channel}
    (h : ∀ c, Reports (f c)) : Reports (a.onEach f) := by
  intro r hr
  obtain ⟨x, hx, hr⟩ := List.mem_flatMap.mp hr
  obtain ⟨c, -, rfl⟩ := List.mem_map.mp hx
  exact h c r hr

theorem workFor_reports (a : Audience) (n : Nat) : Reports (a.workFor n) := by
  induction n generalizing a with
  | zero => exact fun _ hr => absurd hr List.not_mem_nil
  | succ n ih =>
    intro r hr
    rw [workFor] at hr
    split at hr
    · exact absurd hr List.not_mem_nil
    · rcases List.mem_append.mp hr with hr | hr
      · exact a.onEach_reports (fun c => c.handle_reports turnLength) r hr
      · exact ih _ r hr

end Audience

namespace Listener

theorem relay_grown (l : Listener) (b : Bus) (n : Nat) :
    Bus.Grown (fun e => e.isReport = true) b (l.relay b n).2.1 := by
  induction n generalizing l b with
  | zero => exact .refl b
  | succ n ih =>
    have hread : Bus.Grown (fun e => e.isReport = true) b (b.receive l.receiver).2 :=
      .of_published (b.receive_published l.receiver)
    rw [relay]
    split
    · rename_i h
      rw [h] at hread
      exact hread
    · rename_i h
      rw [h] at hread
      exact hread.trans (ih _ _)
    · rename_i e _ h
      rw [h] at hread
      have hoffer := l.audience.onEach_reports fun c => c.offer_reports e
      exact (hread.trans (.publishAll _ hoffer)).trans (ih _ _)

theorem round_grown (l : Listener) (b : Bus) :
    Bus.Grown (fun e => e.isReport = true) b (l.round b).2.1 :=
  (l.relay_grown b turnLength).trans (.publishAll _ (Audience.workFor_reports _ _))

theorem rounds_grown (l : Listener) (b : Bus) (more : Remainder → Bool) (n : Nat) :
    Bus.Grown (fun e => e.isReport = true) b (l.rounds b more n).1 := by
  induction n generalizing l b with
  | zero => exact .refl b
  | succ n ih =>
    have hround := l.round_grown b
    rw [rounds]
    dsimp only
    split
    · exact hround.trans (ih _ _)
    · exact hround

/-- **A pause** (`Listener.pause`) adds nothing to the bus but reports. -/
theorem pause_grown (l : Listener) (b : Bus) :
    Bus.Grown (fun e => e.isReport = true) b (l.pause b).1 :=
  l.rounds_grown b _ _

/-- **A pause** (`Listener.pause`) tells nothing of tasks. -/
theorem pause_told (l : Listener) (b : Bus) : Bus.SameTold b (l.pause b).1 := by
  refine .of_grown ((l.pause_grown b).mono fun e he => ?_)
  unfold Event.isReport Event.isOverflow Event.isPanic at he
  unfold Event.isOfTask
  cases hk : e.kind <;> simp [hk] at he ⊢

end Listener

end Troupe
