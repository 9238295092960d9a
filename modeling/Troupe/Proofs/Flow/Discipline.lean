import Troupe.Proofs.Flow.Contract
import Troupe.Proofs.Machine.Frames
import Troupe.Proofs.Platform.Invariant
import Troupe.Proofs.Platform.Lending

/-!
# What activities promise

`Flow.discipline` is the contract of the calls. Scripts, starts and deliveries do nested work
(`Platform.Nested`) and give back what they borrow; a script runs on a sound machine, and moreover
returns it with the frames that were below it and with all that they own (`Resumed`). The main loop
and its parts begin and end *settled* (`Platform.Settled`): nothing runs, nothing is lent, and
unsettled tasks are asked. What operations leave behind is *calm* (`Platform.Calm`).

What a flow does is sometimes worth knowing together with the scripts that it runs. So the contract
is one of many: `Flow.rules N V` asks of each script that is run that `N` is true of its machine and
of the number of frames below it, and promises that `V` is true of the events that the application
publishes. `movesOf`, `needsOf` and `givesOf` are its parts.

One promise is about a single script. The script that looks after a mailbox (`Script.notify`) ends
only when there is no mail left or no receiver, or when another slot has been scheduled; and what it
has on its stack says why (`Notifying`, `Noted`).

`Tidy N V f Q s` is what most flows meet: begun on a stage in order they do nested work, run scripts
of which `N` is true, leave nothing lent and end with `Q`. There is a lemma for each way to build a
flow: `Tidy.bind`, `Tidy.see`, `Tidy.step`, `Tidy.announce`, `Tidy.resume`, `Tidy.start`,
`Tidy.flush`.
-/

namespace Troupe

variable {κ : App} {α β : Type}

namespace Platform

variable {p q : Platform κ} {V : Event → Prop}

/-! ## Between activities -/

/-- Between activities: nothing runs, nothing is lent (`Quiet`), and all unsettled tasks are asked.
-/
structure Settled (p : Platform κ) : Prop where
  quiet : p.Quiet
  unpolled : p.Unpolled none

theorem Settled.clean (h : p.Settled) (hc : Clean V p q) : q.Settled :=
  ⟨h.quiet.repaid hc.repaid hc.nested.running, h.unpolled.nested hc.nested⟩

/-- Nobody waits for a turn (`Platform.runQueue`), and no error for a verdict (`Platform.raised`).
-/
structure Drained (p : Platform κ) : Prop where
  runQueue : p.runQueue = []
  raised : p.raised = []

theorem Drained.still (h : p.Drained) (hs : Still p q) : q.Drained :=
  ⟨hs.runQueue.trans h.runQueue, hs.raised.trans h.raised⟩

/-- What operations leave behind: the platform is settled (`Settled`), and drained unless it is
stopped. -/
structure Calm (p : Platform κ) : Prop where
  settled : p.Settled
  drained : p.stopped = true ∨ p.Drained

theorem Calm.still (h : p.Calm) (hc : Clean V p q) (hs : Still p q) : q.Calm :=
  ⟨h.settled.clean hc, h.drained.imp (fun hp => hs.stopped.trans hp) fun hd => hd.still hs⟩

theorem Calm.upkeep (h : p.Calm) (hu : Upkeep p q) : q.Calm :=
  h.still (hu.clean (V := Event.Any)) hu.still

/-! ## Looking after a mailbox -/

/-- What is known at each line of `Script.notify`: a zero that was counted means that nothing is
waited for, and so does having come to the end. -/
def Noted (p : Platform κ) (a : Address) (f : Frame κ) : Prop :=
  match f.ip with
  | 0 | 2 | 4 | 6 | 7 => True
  | 1 | 3 => ∃ n rest, f.stack = .int n :: rest ∧ (n = 0 → p.Awake a)
  | 5 => ∃ n rest, f.stack = .int n :: rest
  | _ => p.Awake a

/-- The machine is running `Script.notify` and nothing else. -/
def Notifying (p : Platform κ) (m : Machine κ) : Prop :=
  ∃ f, m.frames = [f] ∧ f.script = .notify ∧ f.code = .main ∧ p.Noted m.address f

end Platform

namespace Flow

open Platform

/-! ## The contract -/

/-- How a call may move a platform (`Nested`, `Rounds`, `Outer`). -/
def movesOf (V : Event → Prop) : Call κ → Platform κ → Platform κ → Prop
  | .resume _ _ | .start _ | .flush _ => Nested V
  | .drain => Rounds V
  | .await _ | .run => Outer V

/-- What a call needs, if scripts need `N`. -/
def needsOf (N : Machine κ → Nat → Prop) : Call κ → Platform κ → Prop
  | .resume m base => fun _ => N m base
  | .start _ | .flush _ => fun _ => True
  | .drain | .await _ | .run => Settled

/-- The machine that comes back from a script (`Call.resume`). -/
structure Resumed (m : Machine κ) (base : Nat) (m' : Machine κ) : Prop
    extends m.Spares base m' where
  frames : m'.frames = m.floor base

/-- What a call comes to (`Call.Answer`). -/
def givesOf (V : Event → Prop) : (c : Call κ) → Platform κ → c.Answer → Platform κ → Prop
  | .resume m base => fun p (x : Option (Value κ) × Machine κ) q => Clean V p q ∧
      Resumed m base x.2 ∧ (base = 0 → p.Notifying m →
        p.AwakeBut m.address (some m.generation) → q.Awake m.address)
  | .start _ | .flush _ => fun p _ q => Clean V p q
  | .drain => fun _ _ q => q.Calm
  | .await _ => fun p (x : Waited) q => q.Quiet ∧
      Still p q ∧ match x with
      | .idle => q.Unpolled none ∧ q.tasks = []
      | .interrupted _ => q.Unpolled none
      | .finished id _ =>
        q.Unpolled (some id) ∧ id ∉ q.taskIds ∧ ∃ owner, q.Unsettled id owner
  | .run => fun _ (x : Except PlatformError Unit) q =>
      q.Calm ∧ (x = .ok () → q.stopped = true ∨ q.tasks = [])

/-- What activities need, do and promise, if scripts need `N`. -/
def rules (N : Machine κ → Nat → Prop) (V : Event → Prop) : Contract κ where
  inv s := s.platform.Inv
  moves c s t := movesOf V c s.platform t.platform
  needs c s := needsOf N c s.platform
  gives c s x t := givesOf V c s.platform x t.platform
  moves_refl c s := by
    cases c with
    | resume | start | flush => exact Nested.refl _
    | drain => exact Rounds.refl _
    | await | run => exact Outer.refl _
  moves_trans c s t u h h' := by
    cases c with
    | resume | start | flush => exact Nested.trans h h'
    | drain => exact Rounds.trans h h'
    | await | run => exact Outer.trans h h'
  moves_inv c s t h hi := by
    cases c with
    | resume | start | flush => exact Inv.nested h hi
    | drain => exact Inv.rounds h hi
    | await | run => exact Inv.outer h hi

/-- Scripts need sound machines (`Machine.Sound`). -/
def OnSound (m : Machine κ) (_ : Nat) : Prop :=
  m.Sound

/-- Nothing is asked of scripts (`Call.resume`). -/
def Anyhow (_ : Machine κ) (_ : Nat) : Prop :=
  True

/-- What activities need, do and promise (`needsOf`, `movesOf`, `givesOf`). -/
def discipline (V : Event → Prop) : Contract κ :=
  rules OnSound V

/-- The stage has moved by nested work (`Nested`). -/
def WithinNested (V : Event → Prop) (s t : Stage κ) : Prop :=
  Nested V s.platform t.platform

/-! ## Tidy flows -/

/-- Begun on a stage in order, the flow does clean work, runs scripts of which `N` is true, and ends
with `Q`. -/
def Tidy (N : Machine κ → Nat → Prop) (V : Event → Prop) (f : Flow κ α)
    (Q : α → Stage κ → Prop) (s : Stage κ) : Prop :=
  s.platform.Inv → Meets (rules N V) (WithinNested V) f
    (fun x t => Clean V s.platform t.platform ∧ Q x t) s

variable {N K : Machine κ → Nat → Prop} {V : Event → Prop} {f : Flow κ α} {g : α → Flow κ β}
  {s : Stage κ} {Q Q' : α → Stage κ → Prop} {P : β → Stage κ → Prop}

theorem Tidy.mono (h : Tidy N V f Q s)
    (hQ : ∀ x t, Clean V s.platform t.platform → Q x t → Q' x t) : Tidy N V f Q' s :=
  fun hi => (h hi).mono (fun _ _ h => h) fun x t hx => ⟨hx.1, hQ x t hx.1 hx.2⟩

theorem Tidy.relax (h : Tidy N V f Q s) (hN : ∀ m b, N m b → K m b) : Tidy K V f Q s := by
  refine fun hi => (h hi).relax fun c t hc => ?_
  cases c with
  | resume m base => exact hN m base hc
  | start | flush | drain | await | run => exact hc

theorem Tidy.and (h : Tidy N V f Q s) (h' : Tidy K V f Q' s) :
    Tidy N V f (fun x t => Q x t ∧ Q' x t) s :=
  fun hi => ((h hi).and (h' hi)).mono (fun _ _ h => h) fun _ _ hx => ⟨hx.1.1, hx.1.2, hx.2.2⟩

theorem Tidy.done {x : α} (h : Q x s) : Tidy N V (Flow.done x) Q s :=
  fun _ => ⟨.refl _, h⟩

theorem Tidy.pure {x : α} (h : Q x s) : Tidy N V (Pure.pure x) Q s :=
  .done h

theorem Tidy.bind (hf : Tidy N V f Q s)
    (hg : ∀ x t, Clean V s.platform t.platform → Q x t → Tidy N V (g x) P t) :
    Tidy N V (f >>= g) P s := by
  intro hi
  rw [meets_bind]
  refine (hf hi).mono (fun _ _ h => h) fun x t ⟨hst, hx⟩ => ?_
  have ht : t.platform.Inv := hi.nested hst.nested
  exact (hg x t hst hx ht).mono (fun _ _ h => h) fun y u ⟨htu, hy⟩ => ⟨hst.trans htu, hy⟩

theorem Tidy.get {next : Stage κ → Flow κ α} (h : Tidy N V (next s) Q s) :
    Tidy N V (.get next) Q s := h

theorem Tidy.see {g : Stage κ → Flow κ β} (h : Tidy N V (g s) P s) :
    Tidy N V (Flow.get Flow.done >>= g) P s := h

theorem Tidy.ask {γ : Type} {f : Platform κ → γ} {g : γ → Flow κ α}
    (h : Tidy N V (g (f s.platform)) Q s) : Tidy N V (Flow.ask f >>= g) Q s := h

theorem Tidy.onStage {f : Stage κ → α × Stage κ}
    (hf : s.platform.Inv → Clean V s.platform (f s).2.platform) (hQ : Q (f s).1 (f s).2) :
    Tidy N V (Flow.onStage f) Q s :=
  fun hi => ⟨(hf hi).nested, fun _ => ⟨hf hi, hQ⟩⟩

theorem Tidy.onPlatform {f : Platform κ → α × Platform κ}
    (hf : s.platform.Inv → Clean V s.platform (f s.platform).2)
    (hQ : Q (f s.platform).1 { s with platform := (f s.platform).2 }) :
    Tidy N V (Flow.onPlatform f) Q s :=
  .onStage hf hQ

theorem Tidy.modify {f : Stage κ → Stage κ} {Q : Unit → Stage κ → Prop}
    (hf : s.platform.Inv → Clean V s.platform (f s).platform) (hQ : Q () (f s)) :
    Tidy N V (Flow.modify f) Q s :=
  fun hi => ⟨(hf hi).nested, fun _ => ⟨hf hi, hQ⟩⟩

theorem Tidy.edit {f : Platform κ → Platform κ} {Q : Unit → Stage κ → Prop}
    (hf : Clean V s.platform (f s.platform)) (hQ : Q () (s.edit f)) : Tidy N V (Flow.edit f) Q s :=
  .modify (fun _ => hf) hQ

/-- One step of the platform (`Platform.Step`). -/
theorem Tidy.step {f : Platform κ → Platform κ} (h : Step s.platform (f s.platform)) :
    Tidy N V (Flow.edit f) (fun _ _ => True) s :=
  .edit h.clean trivial

/-- The application publishes an event (`Platform.Announce`). -/
theorem Tidy.announce {e : Event} (h : V e) :
    Tidy N V (Flow.edit (·.publish e)) (fun _ _ => True) s :=
  .edit (Announce.publish h).clean trivial

theorem Tidy.when {b : Bool} {f : Flow κ Unit} (h : Tidy N V f (fun _ _ => True) s) :
    Tidy N V (Flow.when b f) (fun _ _ => True) s := by
  unfold Flow.when
  split
  · exact h
  · exact .done trivial

theorem Tidy.resume {m : Machine κ} {base : Nat} (hm : N m base) :
    Tidy N V (invoke (.resume m base)) (fun x t => Resumed m base x.2 ∧
      (base = 0 → s.platform.Notifying m → s.platform.AwakeBut m.address (some m.generation) →
        t.platform.Awake m.address)) s :=
  fun _ => ⟨hm, fun _ h => h, fun _ _ _ _ hg => hg⟩

theorem Tidy.start (a : Address) : Tidy N V (invoke (.start a)) (fun _ _ => True) s :=
  fun _ => ⟨trivial, fun _ h => h, fun _ _ _ _ hg => ⟨hg, trivial⟩⟩

theorem Tidy.flush (a : Address) : Tidy N V (invoke (.flush a)) (fun _ _ => True) s :=
  fun _ => ⟨trivial, fun _ h => h, fun _ _ _ _ hg => ⟨hg, trivial⟩⟩

end Flow

end Troupe
