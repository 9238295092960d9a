import Mathlib.Order.Basic
import Troupe.Proofs.Flow.Stepwise
import Troupe.Proofs.Operations
import Troupe.Proofs.Platform.Settlement

/-!
# What a flow changes at a time

What a flow meets says how far the stage has moved since it began. For tasks it matters what is done
to the stage in one go, what the flow does next, and what it has heard before.
`Flow.Each V code H f P s` says that the flow `f`, begun on `s` with the answers `H` heard from
tasks (`Platform.Heard`), replaces stages only as `Allowed`: each time, tasks are registered, or the
first in line is asked, or one that has answered is settled, and then what is left of the flow
begins by applying its outcome (`Settling`, `applyOutcome`).

Like a contract, this is shown of one body at a time (`body_each`), and then it is so at every step.
Whatever is tidy changes only what is allowed (`Tidy.each`), so it is the main loop that has to be
looked at.

Headlines:
* **`Flow.awaitTask_each`**: awaiting answers what it has heard (`Polled`).
* **`Flow.runLoop_each`**: the main loop settles one task at a time, as it has heard, and applies
  its outcome.
* **`Flow.Advance.each`**: every step of every operation changes only what is allowed.
-/

namespace Troupe.Platform.Heard

variable {H H' K K' : Heard}

/-- What has been heard, and what is heard now (`Heard`). -/
def also (H K : Heard) : Heard := fun id o =>
  H id o ∨ K id o

theorem le_also : H ≤ H.also K :=
  fun _ _ => Or.inl

theorem also_mono (h : H ≤ H') (hK : K ≤ K') : H.also K ≤ H'.also K' :=
  fun id o => Or.imp (h id o) (hK id o)

end Troupe.Platform.Heard

namespace Troupe.Flow

open Platform

variable {κ : App} {α β : Type}

/-! ## Answers of tasks -/

/-- The flow asks the task that is first in line (`Code.poll`), and this is its answer. -/
def Polled (code : Code κ) (f : Flow κ α) (s : Stage κ) : Heard := fun id o =>
  ∃ n next task rest w, f = (awaitTask code n).bind next ∧
    s.platform.tasks = (id, task) :: rest ∧ s.interrupt? code = none ∧
      code.poll task s.world = (.ready o, w)

theorem Polled.bind (code : Code κ) (f : Flow κ α) (k : α → Flow κ β) (s : Stage κ) :
    Polled code f s ≤ Polled code (f.bind k) s := by
  rintro id o ⟨n, next, task, rest, w, rfl, h⟩
  exact ⟨n, fun x => (next x).bind k, task, rest, w, bind_bind _ _ _, h⟩

/-- If a call answers that a task is finished (`Waited.finished`), this was heard. -/
def Known (H : Heard) : (c : Call κ) → c.Answer → Prop
  | .await _, (x : Waited) => ∀ id o, x = .finished id o → H id o
  | .resume _ _, _ | .start _, _ | .flush _, _ | .drain, _ | .run, _ => True

theorem Known.mono {H K : Heard} {c : Call κ} {x : c.Answer} (h : Known H c x) (hK : H ≤ K) :
    Known K c x := by
  cases c with
  | await n => exact fun id o hx => hK id o (h id o hx)
  | resume | start | flush | drain | run => trivial

/-! ## Settling -/

/-- What is done with the outcome of a task (`Outcome`), if its owner is answered: a message is sent
to the owner in its own name, and an error is raised on it. -/
def applyOutcome : Option Address → Outcome → Flow κ Unit
  | some owner, .ok (some message) => do
    let _ ← route ⟨owner, owner, message⟩
  | some owner, .error e => edit (·.raiseAt owner e)
  | some _, .ok none | none, _ => pure ()

theorem settleTask_eq (id : Nat) (o : Outcome) :
    settleTask (κ := κ) id o = onPlatform (·.settle id o) >>= fun owner => applyOutcome owner o := by
  unfold settleTask
  refine congrArg _ (funext fun owner => ?_)
  cases owner with
  | none => rfl
  | some owner =>
    cases o with
    | error e => rfl
    | ok message => cases message <;> rfl

/-- A task is settled between two stages. What is left of the flow begins by applying the outcome
(`applyOutcome`), if the incarnation that registered the task is alive, and goes on with the main
loop. -/
structure Settling (s : Stage κ) (id : Nat) (o : Outcome) (e : TaskEntry) (t : Stage κ)
    (f : Flow κ α) : Prop where
  settled : Settlement s.platform id o e t.platform
  world : t.world = s.world
  listener : t.listener = s.listener
  applied : ∃ k, f = (applyOutcome
    (if s.platform.isCurrent e.owner e.generation then some e.owner else none) o).bind
      fun _ => .call .run k

/-- Tasks are registered (`Registering`), the first in line is asked, or one that has answered is
settled. -/
inductive Allowed (V : Event → Prop) (H : Heard) (s t : Stage κ) (f : Flow κ α) : Prop
  | rounds : Rounds V s.platform t.platform → Allowed V H s t f
  | asking : Asking H s.platform t.platform → Allowed V H s t f
  | settling {id : Nat} {o : Outcome} {e : TaskEntry} :
      H id o → Settling s id o e t f → Allowed V H s t f

/-- What comes after what is left of a flow does not matter (`Allowed`). -/
theorem Allowed.bind {V : Event → Prop} {H : Heard} {s t : Stage κ} {f : Flow κ α}
    (h : Allowed V H s t f) (k : α → Flow κ β) : Allowed V H s t (f.bind k) := by
  cases h with
  | rounds h => exact .rounds h
  | asking h => exact .asking h
  | settling hid hs =>
    obtain ⟨next, hf⟩ := hs.applied
    exact .settling hid ⟨hs.settled, hs.world, hs.listener, _, hf ▸ bind_bind _ _ k⟩

theorem Allowed.mono {V : Event → Prop} {H K : Heard} {s t : Stage κ} {f : Flow κ α}
    (h : Allowed V H s t f) (hK : H ≤ K) : Allowed V K s t f := by
  cases h with
  | rounds h => exact .rounds h
  | asking h => exact .asking (h.mono hK)
  | settling hid hs => exact .settling (hK _ _ hid) hs

/-! ## Changes one by one -/

/-- Begun on a stage with these answers heard, the flow only changes what is allowed and ends with
`P`, if its calls keep to the discipline. -/
def Each (V : Event → Prop) (code : Code κ) :
    Heard → Flow κ α → (Heard → α → Prop) → Stage κ → Prop
  | H, done x, P, _ => P H x
  | H, get next, P, s => Each V code (H.also (Polled code (get next) s)) (next s) P s
  | H, set t next, P, s =>
    Allowed V H s t next ∧ (t.platform.Inv → Each V code H next P t)
  | H, call c next, P, s => ∀ K x t, H ≤ K → Known K c x → (discipline V).inv t →
    (discipline V).moves c s t → (discipline V).gives c s x t → Each V code K (next x) P t

variable {V : Event → Prop} {code : Code κ} {H K : Heard} {f : Flow κ α} {s : Stage κ}
  {P : Heard → α → Prop}

theorem each_see {g : Stage κ → Flow κ α} : Each V code H (get done >>= g) P s ↔
    Each V code (H.also (Polled code (get done >>= g) s)) (g s) P s := Iff.rfl

theorem each_modify {m : Stage κ → Stage κ} {g : Unit → Flow κ α} :
    Each V code H (modify m >>= g) P s ↔
      Allowed V (H.also (Polled code (modify m >>= g) s)) s (m s) (g ()) ∧
        ((m s).platform.Inv →
          Each V code (H.also (Polled code (modify m >>= g) s)) (g ()) P (m s)) := Iff.rfl

theorem each_ite {b : Prop} [Decidable b] {g : Flow κ α} (hf : Each V code H f P s)
    (hg : Each V code H g P s) : Each V code H (if b then f else g) P s := by
  split
  · exact hf
  · exact hg

theorem Each.mono (h : Each V code H f P s) (hK : H ≤ K)
    (hP : ∀ K L x, K ≤ L → P K x → P L x) : Each V code K f P s := by
  induction f generalizing H K s with
  | done x => exact hP H K x hK h
  | get next ih => exact ih s h (Heard.also_mono hK le_rfl)
  | set t next ih => exact ⟨h.1.mono hK, fun hi => ih (h.2 hi) hK⟩
  | call c next ih => exact fun L x t hL => h L x t (hK.trans hL)

theorem each_bind {R : Stage κ → Stage κ → Prop} {Q : α → Stage κ → Prop} {k : α → Flow κ β}
    {P' : Heard → β → Prop} (he : Each V code H f P s) (hf : Meets (discipline V) R f Q s)
    (hP : ∀ K L x, K ≤ L → P K x → P L x)
    (hk : ∀ K x t, H ≤ K → P K x → Q x t → Each V code K (k x) P' t) :
    Each V code H (f.bind k) P' s := by
  induction f generalizing H s with
  | done x => exact hk H x s le_rfl he hf
  | get next ih =>
    have hnext : Each V code (H.also (Polled code (get next) s)) (next s) P s := he
    have hmore := hnext.mono (Heard.also_mono le_rfl (Polled.bind code (get next) k s)) hP
    refine ih s hmore hf fun K x t hK => ?_
    exact hk K x t (Heard.le_also.trans hK)
  | set t next ih => exact ⟨he.1.bind k, fun hi => ih (he.2 hi) (hf.2 hi) hk⟩
  | call c next ih =>
    exact fun K x t hK hx hi ht hg => ih x (he K x t hK hx hi ht hg) (hf.2.2 x t hi ht hg)
      fun L y u hL => hk L y u (hK.trans hL)

/-- A flow that does not work on tasks (`WithinRounds`) only changes what is allowed. -/
theorem Meets.each {Q : α → Stage κ → Prop} (h : Meets (discipline V) (WithinRounds V) f Q s)
    (hP : ∀ H x, P H x) : Each V code H f P s := by
  induction f generalizing H s with
  | done x => exact hP H x
  | get next ih => exact ih s h
  | set t next ih => exact ⟨.rounds h.1, fun hi => ih (h.2 hi)⟩
  | call c next ih => exact fun K x t _ _ hi ht hg => ih x (h.2.2 x t hi ht hg)

theorem Tidy.each {Q : α → Stage κ → Prop} (h : Tidy OnSound V f Q s) (hi : s.platform.Inv)
    (hP : ∀ H x, P H x) : Each V code H f P s :=
  (h.rounds hi).each hP

/-! ## The bodies -/

/-- **Awaiting** (`awaitTask`) answers what it has heard. -/
theorem awaitTask_each (polled : Nat) :
    Each V code H (awaitTask code polled) (fun K x => Known K (.await polled : Call κ) x) s := by
  have again (n : Nat) (H : Heard) (s : Stage κ) :
      Each V code H (invoke (.await n)) (fun K x => Known K (.await polled : Call κ) x) s :=
    fun _ _ _ _ hx _ _ _ => hx
  have hself : awaitTask code polled = (awaitTask code polled).bind done := (bind_done _).symm
  unfold awaitTask
  rw [each_see]
  split
  · exact fun _ _ hx => nomatch hx
  · rename_i id task rest htasks
    split
    · exact fun _ _ hx => nomatch hx
    rename_i hcalm
    refine each_modify.mpr ⟨.rounds (Rounds.refl _), fun _ => ?_⟩
    split
    · rename_i o hpoll
      have hheard : Polled code (awaitTask code polled) s id o :=
        ⟨polled, done, task, rest, _, hself, htasks, hcalm, Prod.ext hpoll rfl⟩
      refine each_modify.mpr ⟨.asking (.ready htasks (Or.inl (Or.inl (Or.inr hheard)))), ?_⟩
      intro _ i o' hx
      obtain ⟨rfl, rfl⟩ := Waited.finished.inj hx
      exact Or.inl (Or.inl (Or.inr hheard))
    · refine each_modify.mpr ⟨.asking (.again htasks), fun _ => ?_⟩
      exact each_ite (each_modify.mpr ⟨.rounds (pause_turning _).rounds, fun _ => again 0 _ _⟩)
        (again _ _ _)

theorem finishRun_tidy (reason : String) (s : Stage κ) :
    Tidy OnSound V (finishRun reason) (fun _ _ => True) s := by
  refine .bind (.step (.publish rfl)) fun _ t _ _ => .ask ?_
  split <;> exact .pure trivial

theorem interrupted_tidy (reason : String) (s : Stage κ) :
    Tidy OnSound V (edit Platform.stop >>= fun _ => finishRun reason) (fun _ _ => True) s :=
  .bind (.step .stop) fun _ t _ _ => finishRun_tidy reason t

theorem applyOutcome_tidy (owner : Option Address) (o : Outcome) (s : Stage κ) :
    Tidy OnSound V (applyOutcome owner o) (fun _ _ => True) s := by
  cases owner with
  | none => exact .pure trivial
  | some owner =>
    cases o with
    | error e => exact .step (.raise owner e)
    | ok message =>
      cases message with
      | none => exact .pure trivial
      | some m => exact .bind (route_tidy _ s) fun _ _ _ _ => .pure trivial

/-- **The main loop** (`runLoop`) settles one task at a time, as it has heard, and applies its
outcome. -/
theorem runLoop_each : Each V code H runLoop (fun _ _ => True) s := by
  -- draining
  intro H _ t _ _ hi _ _
  refine each_ite ((finishRun_tidy "fatal" t).each hi fun _ _ => trivial) (each_ite
    ((finishRun_tidy "stopped" t).each hi fun _ _ => trivial) ?_)
  -- awaiting
  intro K x u _ hknown hi _ ⟨_, _, hx⟩
  cases x with
  | idle => exact (finishRun_tidy "idle" u).each hi fun _ _ => trivial
  | interrupted i => exact (interrupted_tidy i.reason u).each hi fun _ _ => trivial
  | finished id o =>
    obtain ⟨-, hid, owner, hu⟩ := hx
    obtain ⟨e, he, -⟩ := hu.pending
    obtain ⟨hsettled, hanswer⟩ := settlement o he hid
    show Each V code K ((settleTask id o).bind fun _ => invoke .run) _ u
    rw [settleTask_eq]
    refine ⟨.settling (Or.inl (hknown id o rfl)) ⟨hsettled, rfl, rfl, ?_⟩, fun hi' => ?_⟩
    · rw [← hanswer]
      exact ⟨_, rfl⟩
    · -- the outcome is applied, and the loop goes on
      have happly (v : Stage κ) := applyOutcome_tidy (V := V) (u.platform.settle id o).1 o v
      refine each_bind (P := fun _ _ => True) ((happly _).each hi' fun _ _ => trivial)
        (happly _ hi') (fun _ _ _ _ h => h) fun _ _ _ _ _ _ => ?_
      exact fun _ _ _ _ _ _ _ _ => trivial

/-- **Every body** (`body`) changes what is allowed. -/
theorem body_each (hpub : code.Publishes V) (H : Heard) (c : Call κ) (s : Stage κ)
    (hi : s.platform.Inv) (hn : (discipline V).needs c s) :
    Each V code H (body code c) (fun K x => Known K c x) s := by
  have hbody := honours_discipline hpub c s hi hn
  cases c with
  | resume | start | flush =>
    exact (hbody.mono (fun _ _ => Nested.rounds) fun _ _ h => h).each fun _ _ => trivial
  | drain => exact Meets.each hbody fun _ _ => trivial
  | await polled => exact awaitTask_each polled
  | run => exact runLoop_each

/-- **Every operation** (`Operation.Public`) changes what is allowed. -/
theorem public_each (hf : Operation.Public code f) (hpub : Operation.Publishes V f)
    (hi : s.platform.Inv) (hc : s.platform.Calm) (hP : ∀ H x, P H x) : Each V code H f P s := by
  rcases hf.rounds hpub hi hc with hrounds | ⟨-, g, rfl⟩
  · exact hrounds.each hP
  · exact fun _ _ _ _ _ _ _ _ => hP _ _

/-- **A step** (`Advance`) changes what is allowed, and so do the next ones. -/
theorem Advance.each {R : Stage κ → Stage κ → Prop} {Q : α → Stage κ → Prop}
    {x y : Flow κ α × Stage κ} (h : Advance (body code) x y) (hpub : code.Publishes V)
    (hR : ∀ s t, R s t → s.platform.Inv → t.platform.Inv) (hi : x.2.platform.Inv)
    (hm : Meets (discipline V) R x.1 Q x.2) (hx : Each V code H x.1 (fun _ _ => True) x.2) :
    Each V code (H.also (Polled code x.1 x.2)) y.1 (fun _ _ => True) y.2 ∧
      (y.2 = x.2 ∨ Allowed V H x.2 y.2 y.1) := by
  cases h with
  | get => exact ⟨hx, Or.inl rfl⟩
  | set => exact ⟨(hx.2 (hR _ _ hm.1 hi)).mono Heard.le_also fun _ _ _ _ h => h, Or.inr hx.1⟩
  | @call c next s =>
    obtain ⟨hneeds, -, -⟩ := hm
    refine ⟨each_bind (body_each hpub _ c s hi hneeds)
      ((honours_discipline hpub).ends hi hneeds) (fun _ _ _ hK h => h.mono hK)
      fun K x t hK hknown hend => ?_, Or.inl rfl⟩
    obtain ⟨hmoves, ht, hgives⟩ := hend
    exact hx K x t (Heard.le_also.trans hK) hknown ht hmoves hgives

end Troupe.Flow
