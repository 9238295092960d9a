import Troupe.Proofs.Flow.Lines
import Troupe.Proofs.Moments

/-!
# What a handle reaches

An actor's code acts through a machine that is bound to one incarnation (`Machine.generation`), and
a script that it runs ends at once when another incarnation lives at the address
(`Moment.perform_exec_gone`). Requests are not bound like that: they name the address only
(`Flow.answer`, the methods of the source's `Cx`). So code that outlives its incarnation, because
the actor was removed and allocated again while it ran, reaches the successor: it can remove it
(`exit`), arm receivers for it (`receive`), block it (`run_task`) and raise errors on it (`raise`).

`Replacement.code` is an application whose actors come to that, with any of these requests
(`Replacement.successor_reached`).

Headline:
* **`Moment.stale_handle`**: what a handle reaches whose incarnation has gone.
-/

namespace Troupe

open Platform Troupe.Flow

namespace Moment

variable {κ : App} {code : Code κ} {mom : Moment κ} {m : Machine κ} {c : Context κ} {s : Stage κ}

/-- A script (`Flow.exec`) whose incarnation has gone leaves everything as it is. -/
theorem perform_exec_gone (hgone : s.platform.isCurrent m.address m.generation = false)
    (hroom : m.depth < m.maxFrames) (script : Script κ) (n : Nat) :
    perform (body code) (n + 1) (Flow.exec m script) s = some ((none, m), s) := by
  have hback : Machine.unwind { m with frames := .main script :: m.frames } m.depth = m := by
    unfold Machine.unwind Machine.depth
    simp [Frame.main, Heap.releaseAll]
  have hdepth : m.depth < Machine.depth { m with frames := .main script :: m.frames } :=
    Nat.lt_succ_self _
  rw [perform_exec hroom, performCall_gone hdepth hgone, hback]

/-- **A stale handle reaches the successor** of its incarnation. Where another incarnation lives at
the address of a machine, scripts on the machine do nothing; but a request to exit removes that
other incarnation (`Request.exit`), a receiver is armed for it, a task is registered for it and
blocks it, and an error is raised on it, with its template. -/
theorem stale_handle (h : Reach code mom)
    (hc : mom.stage.platform.context? m.address = some c) (hg : c.generation ≠ m.generation) :
    (∀ script n, m.depth < m.maxFrames →
      perform (body code) (n + 1) (answer code m (.exec script)) mom.stage =
        some ((none, m), mom.stage)) ∧
    (∀ n, ∃ t, perform (body code) n (answer code m .exit) mom.stage = some (((), m), t) ∧
      t.platform.context? m.address = none) ∧
    (∀ matcher n, ∃ t,
      perform (body code) n (answer code m (.receive matcher)) mom.stage = some (((), m), t) ∧
      t.platform.context? m.address =
        some { c with receivers := ⟨matcher, false⟩ :: c.receivers }) ∧
    (∀ task n, ∃ (id : Nat) (t : Stage κ),
      perform (body code) n (answer code m (.runTask task)) mom.stage = some ((id, m), t) ∧
      t.platform.isBlocked m.address = true ∧
      t.platform.entries.get? id = some ⟨m.address, c.generation, none⟩) ∧
    (∀ e n, ∃ t, perform (body code) n (answer code m (.raise e)) mom.stage = some (((), m), t) ∧
      t.platform.raised = mom.stage.platform.raised ++ [⟨m.address, e, some c.template⟩]) := by
  refine ⟨fun script n hroom => ?_, fun n => ⟨_, rfl, ?_⟩, fun matcher n => ⟨_, rfl, ?_⟩,
    fun task n => ⟨_, _, rfl, ?_, ?_⟩, fun e n => ⟨_, rfl, ?_⟩⟩
  · refine perform_exec_gone ?_ hroom script n
    rw [← Bool.not_eq_true, isCurrent_iff]
    rintro ⟨d, hd, hcur⟩
    exact hg (Option.some.inj (hc.symm.trans hd) ▸ hcur)
  · exact (Stage.context?_terminate m.address h.ok.inv.table).trans (if_pos (Or.inl rfl))
  · show (mom.stage.platform.armReceiver m.address matcher).context? m.address = _
    unfold armReceiver
    rw [context?_scheduleMail, context?_modifyContext, if_pos rfl, hc]
    rfl
  · exact Table.contains_insert.mpr (Or.inl rfl)
  · refine (Table.get?_insert _ _ _ _).trans ((if_pos rfl).trans ?_)
    unfold generation?
    rw [hc]
    rfl
  · show _ ++ [(⟨m.address, e, mom.stage.platform.template? m.address⟩ : Raised κ)] = _
    unfold template?
    rw [hc]
    rfl

/-- An actor is removed and spawned anew. A machine of the first incarnation removes the second
(`Request.exit`). -/
theorem stale_handle_spawned : ∃ (s t : Stage App.sample) (b c : Context App.sample),
    Reach Code.sample (between s) ∧ s.platform.context? .sample = some b ∧ b.generation = 1 ∧
      Later Code.sample (between s) (between t) ∧
      t.platform.context? .sample = some c ∧ c.generation = 2 ∧
      ∃ u, perform (body Code.sample) 0 (answer Code.sample (.new .sample b.generation 8) .exit) t =
        some (((), .new .sample b.generation 8), u) ∧ u.platform.context? .sample = none := by
  have hspawned := reach_sample.perform 8 (.spawn .sample) rfl
  have hkilled := hspawned.perform 8 (.kill .sample) rfl
  have hagain := hkilled.perform 8 (.spawn .sample) rfl
  exact ⟨_, _, _, _, hspawned, rfl, rfl,
    Relation.ReflTransGen.trans (Later.perform 8 (.kill .sample) rfl)
      (Later.perform 8 (.spawn .sample) rfl),
    rfl, rfl, (stale_handle hagain rfl (by decide)).2.1 0⟩

end Moment

/-! ## A successor that is reached -/

namespace Replacement

/-- What there is to see of an actor: its generation, the number of its receivers, whether it is
blocked, and the number of errors that wait. -/
structure Sight where
  generation : Option Nat
  receivers : Nat
  blocked : Bool
  raised : Nat
  deriving DecidableEq

/-- An application of parents and children that notes what it sees. -/
def app : App where
  Factory := Bool
  Actor := Bool
  Trap := Unit
  Foreign := Unit
  Task := Unit
  World := List Sight

/-- Where the parent lives. -/
def parent : Address :=
  .path (.child .root ⟨['p'], rfl⟩)

/-- Where the child lives. -/
def child : Address :=
  .path (.child (.child .root ⟨['p'], rfl⟩) .sampleChild)

def childTemplate : Template app :=
  .mk (some "c") true [] none [] []

def parentTemplate : Template app :=
  .mk (some "p") false [] none [] []

/-- Notes what there is to see of the child (`Sight`). -/
def note : Act app Unit :=
  .look fun p seen => .put (List.append seen [⟨p.generation? child, p.receiverCount child,
    p.isBlocked child, p.raised.length⟩]) (.done ())

/-- The parent spawns the child, and does so anew for each message. The child tells the parent of
each message it gets, and then makes a request; it notes what it sees before and after (`note`). -/
def code (r : Request app) : Code app where
  freshId w := ("fresh", w)
  build f _ w := (f, w)
  init _ w := (.direct, w)
  stop _ w := w
  judge _ _ w := (.ignore, w)
  hook
    | false, .run, _ => .ask (.spawn childTemplate) fun _ => .done (.ok ())
    | false, .accept _, _ =>
      .ask (.kill child) fun _ => .ask (.spawn childTemplate) fun _ => .done (.ok ())
    | true, .accept _, _ =>
      .ask (.tell parent .null) fun _ => note.bind fun _ => .ask r fun _ => note.bind fun _ =>
        .done (.ok ())
    | _, _, _ => .done (.ok ())
  foreign _ _ _ := .done (.ok .nil)
  poll _ w := (.ready (.ok none), w)

/-- The platform on which operations are tried. -/
def sample : Stage app :=
  .new {} none [] []

theorem reach_sample (r : Request app) : Moment.Reach (code r) (.between sample) :=
  ⟨{}, none, [], [], .refl⟩

/-- The generation of the child when it is told of something, and what it notes then (`note`). -/
def told (r : Request app) : Option (Option Nat × List Sight) :=
  (perform (body (code r)) 20 (Operation.spawn (code r) parentTemplate) sample).bind fun x =>
    (perform (body (code r)) 20 (Operation.tell child .null) x.2).bind fun y =>
      some (x.2.platform.generation? child, y.2.world)

/-- On a platform that is reached, the child is of generation 2 when it is told of something, and
then notes `w`. -/
def Notes (r : Request app) (w : List Sight) : Prop :=
  ∃ s t sent, Moment.Reach (code r) (.between s) ∧ s.platform.generation? child = some 2 ∧
    perform (body (code r)) 20 (Operation.tell child .null) s = some (sent, t) ∧ t.world = w

theorem notes_of_told {r : Request app} {w : List Sight} (h : told r = some (some 2, w)) :
    Notes r w := by
  unfold told at h
  obtain ⟨⟨a, s⟩, hs, h⟩ := Option.bind_eq_some_iff.mp h
  obtain ⟨⟨sent, t⟩, ht, h⟩ := Option.bind_eq_some_iff.mp h
  obtain ⟨hg, hw⟩ := Prod.mk.inj (Option.some.inj h)
  exact ⟨s, t, sent, (reach_sample r).perform 20 (.spawn parentTemplate) hs, hg, ht, hw⟩

/-- **The successor is reached.** (`Notes`) When the child of generation 2 makes its request, its
successor, of generation 3, lives at its address; afterwards that one is gone, or has a receiver, or
is blocked, or an error waits for a verdict on it. -/
theorem successor_reached :
    Notes .exit [⟨some 3, 0, false, 0⟩, ⟨none, 0, false, 0⟩] ∧
    Notes (.receive (.any "t")) [⟨some 3, 0, false, 0⟩, ⟨some 3, 1, false, 0⟩] ∧
    Notes (.runTask ()) [⟨some 3, 0, false, 0⟩, ⟨some 3, 0, true, 0⟩] ∧
    Notes (.raise (.application "e")) [⟨some 3, 0, false, 0⟩, ⟨some 3, 0, false, 1⟩] :=
  ⟨notes_of_told (by decide +kernel), notes_of_told (by decide +kernel),
    notes_of_told (by decide +kernel), notes_of_told (by decide +kernel)⟩

end Replacement

end Troupe
