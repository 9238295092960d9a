import Troupe.Proofs.Flow.Stepwise
import Troupe.Proofs.Operations

/-!
# The life of a platform

The life of a platform is a sequence of moments: between operations, and in the middle of one
(`Moment`). An operation is a flow that advances step by step, through hooks, scripts and slots
(`Flow.Advance`). Between operations the application and the audience may do what they like with
their own state and with the bus (`Moment.Next`). `Moment.Reach` holds of the moments that some life
can come to, whatever operations are asked for and whatever application code does.

What is known at a moment is `Moment.Ok`: the invariant (`Platform.Inv`), and that what is left of
the operation will leave the platform calm.

Headlines:
* **`Moment.Reach.ok`**: at every moment that is reached the invariant holds, and between operations
  the platform is calm.
* **`Moment.Later.ok`**: from one moment to a later one, only work happens that platforms do.
* `Moment.Reach.perform`: an operation that is carried out leads to the moment after it.

The last section is a small platform on which things are tried (`Code.sample`, `Moment.sample`).
-/

namespace Troupe

variable {κ : App} {α : Type}

open Platform Troupe.Flow

/-! ## Moments -/

/-- A moment in the life of a platform: between two operations, or in the middle of one
(`Flow.Advance`). -/
inductive Moment (κ : App)
  /-- No operation is under way. -/
  | between (s : Stage κ)
  /-- An operation is under way, and this is left of it. -/
  | amid {α : Type} (f : Flow κ α) (s : Stage κ)

namespace Moment

/-- The stage at a moment (`Moment.between`, `Moment.amid`). -/
def stage : Moment κ → Stage κ
  | between s => s
  | amid _ s => s

/-- From one moment to the next: an operation begins, it advances by a step (`Flow.Advance`), it
returns, or the outside does something. -/
inductive Next (code : Code κ) : Moment κ → Moment κ → Prop
  | begin {α : Type} {f : Flow κ α} {s : Stage κ} :
      Operation.Public code f → Next code (between s) (amid f s)
  | advance {α : Type} {f g : Flow κ α} {s t : Stage κ} :
      Advance (body code) (f, s) (g, t) → Next code (amid f s) (amid g t)
  /-- An operation has returned. -/
  | back {α : Type} {x : α} {s : Stage κ} : Next code (amid (.done x) s) (between s)
  /-- Between operations the application and the audience do what they like. -/
  | meanwhile {s : Stage κ} (bus : Bus) (w : κ.World) (listener : Option Listener) :
      Next code (between s) (between ⟨{ s.platform with bus }, w, listener⟩)

/-- A moment and one that comes after it (`Next`, any number of times). -/
def Later (code : Code κ) : Moment κ → Moment κ → Prop :=
  Relation.ReflTransGen (Next code)

/-- The moments that the life of a platform can come to, from a new one on (`Stage.new`). -/
def Reach (code : Code κ) (m : Moment κ) : Prop :=
  ∃ config trap subs w, Later code (between (.new config trap subs w)) m

/-! ## What is known -/

variable {code : Code κ} {m m' : Moment κ} {f : Flow κ α} {s t : Stage κ} {V : Event → Prop}

/-- What is known at a moment: the invariant holds, and the platform is calm, or will be once the
operation returns. Of the events that the application publishes meanwhile, `V` is true. -/
def Ok (V : Event → Prop) : Moment κ → Prop
  | between s => s.platform.Inv ∧ s.platform.Calm
  | amid f s => s.platform.Inv ∧
      Meets (discipline V) (WithinOuter V) f (fun _ t => t.platform.Calm) s

/-- What comes from outside. If an operation begins that is to publish an event, `V` is true of
that. If `V` is true of no event that tells of a task, then nothing is told of tasks between
operations. -/
def Outside (V : Event → Prop) : Moment κ → Moment κ → Prop
  | between _, amid f _ => Operation.Publishes V f
  | between s, between t =>
    (∀ e, V e → e.isOfTask = false) → s.platform.bus.SameTold t.platform.bus
  | amid _ _, _ => True

theorem outside_any (m m' : Moment κ) : Outside Event.Any m m' := by
  cases m with
  | amid => trivial
  | between =>
    cases m' with
    | between =>
      intro hnone
      exact absurd (hnone { kind := .taskSettled } trivial) (by decide)
    | amid f => exact Operation.publishes_any f

theorem Ok.inv (h : m.Ok V) : m.stage.platform.Inv := by
  cases m with
  | between s => exact h.1
  | amid f s => exact h.1

/-- What the bus carries does not matter (`Calm`). -/
theorem calm_bus {p : Platform κ} (h : p.Calm) (bus : Bus) : Calm { p with bus } :=
  ⟨⟨h.settled.quiet.repaid (.of_eq fun _ => rfl) rfl, h.settled.unpolled.congr rfl rfl⟩,
    h.drained.imp (fun hp => hp) fun hd => hd.still ⟨rfl, rfl, rfl⟩⟩

theorem new_platform (config : Config) (trap : Option κ.Trap) (subs : List Subscriber)
    (w : κ.World) : ∃ bus, bus.published = #[] ∧
      (Stage.new config trap subs w).platform = { Platform.new config trap with bus } := by
  unfold Stage.new
  dsimp only
  split
  · exact ⟨_, rfl, rfl⟩
  · exact ⟨_, rfl, rfl⟩

theorem new_world (config : Config) (trap : Option κ.Trap) (subs : List Subscriber)
    (w : κ.World) : (Stage.new config trap subs w).world = w := by
  unfold Stage.new
  dsimp only
  split <;> rfl

theorem ok_new (config : Config) (trap : Option κ.Trap) (subs : List Subscriber) (w : κ.World) :
    (between (.new config trap subs w)).Ok V := by
  have hinv : (Platform.new config trap).Inv := .new config trap
  have hcalm : (Platform.new config trap).Calm :=
    ⟨⟨.new config trap, .new config trap⟩, Or.inr ⟨rfl, rfl⟩⟩
  obtain ⟨bus, -, hbus⟩ := new_platform config trap subs w
  show (Stage.new config trap subs w).platform.Inv ∧ (Stage.new config trap subs w).platform.Calm
  rw [hbus]
  exact ⟨hinv.dealing (.bus bus), calm_bus hcalm bus⟩

/-- **From one moment to the next** (`Next`) the platform stays in order. -/
theorem Next.ok (h : Next code m m') (hpub : code.Publishes V) (hout : m.Outside V m')
    (hm : m.Ok V) : m'.Ok V ∧ Outer V m.stage.platform m'.stage.platform := by
  have hi := hm.inv
  cases h with
  | begin hf => exact ⟨⟨hi, hf.meets hout hi hm.2⟩, .refl _⟩
  | advance hstep =>
    obtain ⟨hi', hmove, hmeets⟩ := hstep.meets (honours_discipline hpub) (fun _ => Outer.refl _)
      (fun _ _ => Inv.outer) (fun _ _ _ => withinOuter_of_moves) hi hm.2
    exact ⟨⟨hi', hmeets⟩, hmove⟩
  | back => exact ⟨hm, .refl _⟩
  | @meanwhile s bus w listener =>
    have hdeal : Dealing s.platform { s.platform with bus } := .bus bus
    exact ⟨⟨hi.dealing hdeal, calm_bus hm.2 bus⟩, hdeal.outer⟩

/-- **From a moment to a later one** (`Later`) only work happens that platforms do (`Outer`). -/
theorem Later.ok (h : Later code m m') (hm : m.Ok Event.Any) :
    m'.Ok Event.Any ∧ Outer Event.Any m.stage.platform m'.stage.platform := by
  induction h with
  | refl => exact ⟨hm, .refl _⟩
  | tail _ hstep ih =>
    obtain ⟨hm', hmoved⟩ := ih
    obtain ⟨hm'', hmove⟩ := hstep.ok code.publishes_any (outside_any _ _) hm'
    exact ⟨hm'', hmoved.trans hmove⟩

/-- **At every moment that is reached** (`Reach`) the platform is in order. -/
theorem Reach.ok (h : Reach code m) : m.Ok Event.Any := by
  obtain ⟨config, trap, subs, w, hlater⟩ := h
  exact (hlater.ok (ok_new config trap subs w)).1

theorem Reach.later (h : Reach code m) (h' : Later code m m') : Reach code m' := by
  obtain ⟨config, trap, subs, w, hlater⟩ := h
  exact ⟨config, trap, subs, w, Relation.ReflTransGen.trans hlater h'⟩

/-- An operation that advances (`Advances`) has not returned. -/
theorem Later.advances {x y : Flow κ α × Stage κ} (h : Advances (body code) x y) :
    Later code (amid x.1 x.2) (amid y.1 y.2) := by
  induction h with
  | refl => exact .refl
  | tail _ hstep ih => exact .tail ih (.advance hstep)

/-- An operation that is carried out (`perform`) leads to the moment after it. -/
theorem Later.perform (depth : Nat) (hf : Operation.Public code f) {x : α}
    (hp : Flow.perform (body code) depth f s = some (x, t)) :
    Later code (between s) (between t) :=
  .head (.begin hf) (.tail (Later.advances (perform_advances hp)) .back)

theorem Reach.perform (h : Reach code (between s)) (depth : Nat) (hf : Operation.Public code f)
    {x : α} (hp : Flow.perform (body code) depth f s = some (x, t)) : Reach code (between t) :=
  h.later (.perform depth hf hp)

/-- A run that ends well (`Operation.run`) ends where the platform is stopped or no task is left. -/
theorem Reach.ran (h : Reach code (between s)) {depth : Nat}
    (hrun : Flow.perform (body code) depth Operation.run s = some (.ok (), t)) :
    t.platform.stopped = true ∨ t.platform.tasks = [] := by
  obtain ⟨hi, hcalm⟩ := h.ok
  have hmeets : Meets (discipline Event.Any) (WithinOuter Event.Any) (Operation.run (κ := κ))
      (fun x t => x = .ok () → t.platform.stopped = true ∨ t.platform.tasks = []) s :=
    ⟨hcalm.settled, fun _ h => h, fun _ _ _ _ hg => hg.2⟩
  obtain ⟨-, -, hend⟩ := (perform_advances hrun).meets (R := WithinOuter Event.Any)
    (honours_discipline code.publishes_any) (fun _ => Outer.refl _) (fun _ _ _ => Outer.trans)
    (fun _ _ => Inv.outer) (fun _ _ _ => withinOuter_of_moves) hi hmeets
  exact hend rfl

end Moment

/-! ## A platform at work -/

/-- An application of one kind of everything (`Unit`). -/
def App.sample : App := ⟨Unit, Unit, Unit, Unit, Unit, Unit⟩

/-- Its actors are buffered, and run a task (`Request.runTask`) when they are started. Tasks are
finished at once. -/
def Code.sample : Code App.sample where
  freshId w := ("fresh", w)
  build _ _ w := ((), w)
  init _ w := (.buffered, w)
  stop _ w := w
  judge _ _ w := (.stop, w)
  hook
    | _, .run, _ => .ask (.runTask ()) fun _ => .done (.ok ())
    | _, _, _ => .done (.ok ())
  foreign _ _ _ := .done (.ok .nil)
  poll _ w := (.ready (.ok none), w)

/-- A member of a group, called `a`. -/
def Template.sample : Template App.sample :=
  .mk (some "a") () [] none ["group"] []

/-- Where the `Template.sample` lives. -/
def Address.sample : Address :=
  .path (.child .root ⟨['a'], rfl⟩)

/-- What a child of the sample actor is called. -/
def Segment.sampleChild : Segment :=
  ⟨['c'], rfl⟩

/-- Where a child of the `Template.sample` lives. -/
def Address.sampleChild : Address :=
  .path (.child (.child .root ⟨['a'], rfl⟩) .sampleChild)

/-- Where an actor beside the `Template.sample` lives. -/
def Address.sampleMate : Address :=
  .path (.child .root ⟨['b'], rfl⟩)

/-- A script that puts a message on the heap and has a function answer it (`Instr.call`). -/
def Script.sample : Script App.sample where
  messages := [.null]
  functions := [⟨"same", 1, .code [.load 0]⟩]
  code := [.pushMsg 0, .pushFun 0, .call 1]

/-- The stage after an operation, if it returns within a few calls (`perform`). -/
def Stage.afterwards {α : Type} (code : Code κ) (f : Flow κ α) (s : Stage κ) : Stage κ :=
  ((perform (body code) 20 f s).map Prod.snd).getD s

namespace Moment

/-- The platform on which operations are tried. -/
def sample : Stage App.sample :=
  .new {} none [] ()

theorem reach_sample : Reach Code.sample (between sample) :=
  ⟨{}, none, [], (), .refl⟩

end Moment

end Troupe
