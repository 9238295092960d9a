import Troupe.Proofs.Flow.Activities
import Troupe.Proofs.Flow.Stepwise
import Troupe.Proofs.Watch.Moves

/-!
# Keeping track

A `Track` is something that is known of a stage and of the stages before it, and that every change
of the stage keeps up to date: each `Move`, and tending to actors (`Tended`). What is due (`Due`)
takes part in it, so what is known may lag behind for a moment. `Track.kept` is what activities
leave behind as they found it.

`Flow.Tracks T f Q h s` says that the flow `f`, begun on `s` after the stages `h`, replaces stages
only so that the track is kept, and ends with `Q`, provided that its calls do the same. Like a
contract (`Flow.Meets`) it is computed from the flow. `Flow.Leads` is what most flows meet: they
lead from one `Pose` to another, a pose being what is due and who has a backlog that is not looked
after yet. There is a lemma for each way to build a flow: `Leads.bind`, `Leads.see`,
`Leads.setMove`, `Leads.aloof`, `Leads.tend`, `Leads.enclose`, `Leads.invoke`.

All that a track has to bring along for itself is that hooks and foreign functions keep it
(`Flow.Performs`, `Flow.Computes`, together `Upheld`).

Headline:
* **`Advance.tracks`**: if bodies keep a track (`Heeds`), a flow that keeps it does so from step to
  step.
-/

namespace Troupe

variable {κ : App} {α β : Type} {code : Code κ} {V : Event → Prop}

open Platform Troupe.Flow

/-- Something to keep track of: what is known of a stage and of those before it, and how each `Move`
and tending to actors (`Tended`) keep it. -/
structure Track (code : Code κ) (V : Event → Prop) where
  /-- How the state of the application may change beside what is tracked. -/
  same : κ.World → κ.World → Prop
  /-- What is known of a stage, after these stages, the latest first. -/
  holds : Option (Due κ) → List (Stage κ) → Stage κ → Prop
  /-- What activities leave behind as they found it. -/
  kept : Stage κ → Stage κ → Prop
  same_refl : ∀ w, same w w
  same_trans : ∀ v w x, same v w → same w x → same v x
  kept_refl : ∀ s, kept s s
  kept_trans : ∀ {s t u}, kept s t → kept t u → kept s u
  freshId : ∀ w, same w (code.freshId w).2
  judge : ∀ trap e w, same w (code.judge trap e w).2
  poll : ∀ task w, same w (code.poll task w).2
  move : ∀ {x y h s t}, Move code V same x s y t → s.platform.Inv → holds x h s →
    holds y (s :: h) t ∧ kept s t
  tend : ∀ {x h s t}, Tended code same s t → Due.Done t.platform x → s.platform.Inv →
    holds x h s → holds none (s :: h) t ∧ kept s t

/-- What is due (`Due`), and who has a backlog that is not looked after yet (`Platform.FlushedBut`).
-/
structure Pose (κ : App) where
  due : Option (Due κ) := none
  behind : Option Address := none

namespace Track

/-- The platform is in order (`Platform.Inv`), the track is kept, and backlogs are looked after
(`Platform.FlushedBut`). -/
structure Fit (T : Track code V) (P : Pose κ) (h : List (Stage κ)) (s : Stage κ) : Prop where
  inv : s.platform.Inv
  holds : T.holds P.due h s
  flushed : s.platform.FlushedBut P.behind

/-- What was found is left behind (`Track.kept`), and what was lent is lent (`Platform.Kept`). -/
structure Later (T : Track code V) (s t : Stage κ) : Prop where
  kept : T.kept s t
  lent : Kept s.platform t.platform

variable {T : Track code V} {s t u : Stage κ} {h : List (Stage κ)} {P : Pose κ}

theorem Later.refl (T : Track code V) (s : Stage κ) : T.Later s s :=
  ⟨T.kept_refl s, .refl _⟩

theorem Later.trans (h : T.Later s t) (h' : T.Later t u) : T.Later s u :=
  ⟨T.kept_trans h.kept h'.kept, h.lent.trans h'.lent⟩

/-- Nothing happens. -/
theorem stay {x : Option (Due κ)} (hi : s.platform.Inv) (hx : T.holds x h s) :
    T.holds x (s :: h) s :=
  (T.move (.beside (.refl _) (T.same_refl _)) hi hx).1

theorem Fit.stay (hf : T.Fit P h s) : T.Fit P (s :: h) s :=
  ⟨hf.inv, Track.stay hf.inv hf.holds, hf.flushed⟩

end Track

namespace Flow

/-- How a call is begun (`Pose`). -/
def poseOf : Call κ → Pose κ
  | .flush a => { behind := some a }
  | .resume _ _ | .start _ | .drain | .await _ | .run => {}

/-- A script runs on a machine that is lent to it (`Platform.Held`). -/
def Rightful : Call κ → Platform κ → Prop
  | .resume m _, p => p.Held m
  | .start _, _ | .flush _, _ | .drain, _ | .await _, _ | .run, _ => True

/-- Begun on a stage after those before it, the flow keeps the track and ends with `Q`, if its calls
do so. -/
def Tracks (T : Track code V) :
    Flow κ α → (α → List (Stage κ) → Stage κ → Prop) → List (Stage κ) → Stage κ → Prop
  | done a, Q, h, s => Q a h s
  | get next, Q, h, s => Tracks T (next s) Q (s :: h) s
  | set t next, Q, h, s =>
    t.platform.Inv → (∃ x, T.holds x (s :: h) t) ∧ Tracks T next Q (s :: h) t
  | call c next, Q, h, s => (T.Fit (poseOf c) h s ∧ Rightful c s.platform) ∧
      ∀ x h' t, (discipline Event.Any).moves c s t → (discipline Event.Any).gives c s x t →
        T.Fit {} h' t → T.Later s t → Tracks T (next x) Q h' t

/-- Begun in one pose, the flow ends in another, and with `Q`. -/
def Leads (T : Track code V) (P P' : Pose κ) (f : Flow κ α) (Q : α → Stage κ → Prop)
    (s : Stage κ) : Prop :=
  ∀ h, T.Fit P h s → Tracks T f (fun x h' t => T.Fit P' h' t ∧ T.Later s t ∧ Q x t) h s

variable {T : Track code V} {P P' P'' : Pose κ} {f : Flow κ α} {g : α → Flow κ β}
  {s t : Stage κ} {h : List (Stage κ)} {Q Q' : α → Stage κ → Prop} {R : β → Stage κ → Prop}

/-! ## Rules -/

theorem Tracks.mono {Q Q' : α → List (Stage κ) → Stage κ → Prop} (hf : Tracks T f Q h s)
    (hQ : ∀ x h t, Q x h t → Q' x h t) : Tracks T f Q' h s := by
  induction f generalizing h s with
  | done a => exact hQ a h s hf
  | get next ih => exact ih s hf
  | set t next ih => exact fun hi => ⟨(hf hi).1, ih (hf hi).2⟩
  | call c next ih =>
    exact ⟨hf.1, fun x h' t hm hg hfit hlater => ih x (hf.2 x h' t hm hg hfit hlater)⟩

theorem tracks_bind {Q : β → List (Stage κ) → Stage κ → Prop} :
    Tracks T (f.bind g) Q h s ↔ Tracks T f (fun x h t => Tracks T (g x) Q h t) h s := by
  induction f generalizing h s with
  | done a => exact Iff.rfl
  | get next ih => exact ih s
  | set t next ih => exact forall_congr' fun _ => and_congr_right fun _ => ih
  | call c next ih =>
    exact and_congr_right fun _ => forall_congr' fun x => forall_congr' fun _ =>
      forall_congr' fun _ => forall_congr' fun _ => forall_congr' fun _ => forall_congr' fun _ =>
        forall_congr' fun _ => ih x

theorem Leads.mono (hf : Leads T P P' f Q s) (hQ : ∀ x t, Q x t → Q' x t) :
    Leads T P P' f Q' s :=
  fun h hfit => (hf h hfit).mono fun x _ t hx => ⟨hx.1, hx.2.1, hQ x t hx.2.2⟩

theorem Leads.done {x : α} (hx : Q x s) : Leads T P P (Flow.done x) Q s :=
  fun _ hfit => ⟨hfit, .refl T s, hx⟩

theorem Leads.pure {x : α} (hx : Q x s) : Leads T P P (Pure.pure x) Q s :=
  .done hx

theorem Leads.ite {b : Prop} [Decidable b] {f g : Flow κ α} (hf : b → Leads T P P' f Q s)
    (hg : ¬ b → Leads T P P' g Q s) : Leads T P P' (if b then f else g) Q s := by
  split
  · exact hf ‹b›
  · exact hg ‹¬ b›

/-- It does not hurt to look after a backlog (`Pose.behind`). -/
theorem Leads.letOff (a : Address) {x : Option (Due κ)}
    (hf : Leads T { due := x, behind := some a } P' f Q s) : Leads T { due := x } P' f Q s :=
  fun h hfit => hf h ⟨hfit.inv, hfit.holds, hfit.flushed.mono _⟩

/-- Looking after a backlog is left to others (`Pose.behind`). -/
theorem Leads.behind (a : Address) {x : α} (hx : Q x s) :
    Leads T {} { behind := some a } (Pure.pure x) Q s :=
  fun _ hfit => ⟨⟨hfit.inv, hfit.holds, hfit.flushed.mono _⟩, .refl T s, hx⟩

theorem Leads.bind (hf : Leads T P P' f Q s)
    (hg : ∀ x t, T.Later s t → Q x t → Leads T P' P'' (g x) R t) :
    Leads T P P'' (f >>= g) R s := by
  intro h hfit
  refine tracks_bind.mpr ((hf h hfit).mono fun x h' t hx => ?_)
  obtain ⟨hfit', hlater, hx⟩ := hx
  refine (hg x t hlater hx h' hfit').mono fun y h'' u hy => ?_
  exact ⟨hy.1, hlater.trans hy.2.1, hy.2.2⟩

theorem Leads.get {next : Stage κ → Flow κ α} (hnext : Leads T P P' (next s) Q s) :
    Leads T P P' (.get next) Q s :=
  fun _ hfit => hnext _ hfit.stay

theorem Leads.see {g : Stage κ → Flow κ β} (hg : Leads T P P' (g s) R s) :
    Leads T P P' (Flow.get Flow.done >>= g) R s :=
  .get hg

theorem Leads.ask {γ : Type} {f : Platform κ → γ} {g : γ → Flow κ α}
    (hg : Leads T P P' (g (f s.platform)) Q s) : Leads T P P' (Flow.ask f >>= g) Q s :=
  .get hg

/-- The stage is replaced (`Flow.set`). -/
theorem Leads.set {next : Flow κ α} (ht : ∀ h, T.Fit P h s → t.platform.Inv → T.Fit P' (s :: h) t)
    (hlater : ∀ h, T.Fit P h s → T.Later s t) (hnext : Leads T P' P'' next Q t) :
    Leads T P P'' (.set t next) Q s := by
  intro h hfit hi
  have hfit' := ht h hfit hi
  refine ⟨⟨_, hfit'.holds⟩, (hnext _ hfit').mono fun x h' u hx => ?_⟩
  exact ⟨hx.1, (hlater h hfit).trans hx.2.1, hx.2.2⟩

/-- The stage is replaced before a flow goes on, and again afterwards. What was found is left behind
in the end, but not in between. -/
theorem Leads.enclose {P₁ P₂ : Pose κ} {s₁ : Stage κ} {k : α → Flow κ β}
    (hbegin : ∀ h, T.Fit P h s → s₁.platform.Inv → T.Fit P₁ (s :: h) s₁)
    (hf : Leads T P₁ P₂ f Q s₁)
    (hend : ∀ h₀ h x t, T.Fit P h₀ s → T.Fit P₂ h t → T.Later s₁ t → Q x t →
      Tracks T (k x) (fun y h u => T.Fit P' h u ∧ T.Later s u ∧ R y u) h t) :
    Leads T P P' (.set s₁ (f.bind k)) R s := by
  intro h₀ hfit hi₁
  have hfit₁ := hbegin h₀ hfit hi₁
  refine ⟨⟨_, hfit₁.holds⟩, tracks_bind.mpr ((hf _ hfit₁).mono fun x h t hx => ?_)⟩
  exact hend h₀ h x t hfit hx.1 hx.2.1 hx.2.2

/-- The stage is replaced by a `Move`. -/
theorem Leads.setMove {next : Flow κ α} (hm : Move code V T.same P.due s P'.due t)
    (hlent : Kept s.platform t.platform)
    (hflushed : s.platform.FlushedBut P.behind → t.platform.FlushedBut P'.behind)
    (hnext : Leads T P' P'' next Q t) : Leads T P P'' (.set t next) Q s :=
  .set (fun _ hfit hi => ⟨hi, (T.move hm hfit.inv hfit.holds).1, hflushed hfit.flushed⟩)
    (fun _ hfit => ⟨(T.move hm hfit.inv hfit.holds).2, hlent⟩) hnext

theorem Leads.onStage {f : Stage κ → α × Stage κ} (hm : Move code V T.same P.due s P'.due (f s).2)
    (hlent : Kept s.platform (f s).2.platform)
    (hflushed : s.platform.FlushedBut P.behind → (f s).2.platform.FlushedBut P'.behind)
    (hQ : Q (f s).1 (f s).2) : Leads T P P' (Flow.onStage f) Q s :=
  .get (.setMove hm hlent hflushed (.done hQ))

theorem Leads.edit {f : Platform κ → Platform κ} {Q : Unit → Stage κ → Prop}
    (hm : Move code V T.same P.due s P'.due (s.edit f))
    (hlent : Kept s.platform (f s.platform))
    (hflushed : s.platform.FlushedBut P.behind → (f s.platform).FlushedBut P'.behind)
    (hQ : Q () (s.edit f)) : Leads T P P' (Flow.edit f) Q s :=
  .get (.setMove hm hlent hflushed (.done hQ))

/-- Something goes on beside the actors (`Platform.Aloof`). -/
theorem Leads.modify {f : Stage κ → Stage κ} (hp : Aloof V s.platform (f s).platform)
    (hw : T.same s.world (f s).world) :
    Leads T P P (Flow.modify f) (fun _ t => t = f s) s :=
  .get (.setMove (.beside hp.toBeside hw) hp.kept (fun hs => hs.aloof hp) (.done rfl))

theorem Leads.aloof {f : Platform κ → Platform κ} (hp : Aloof V s.platform (f s.platform)) :
    Leads T P P (Flow.edit f) (fun _ _ => True) s :=
  (Leads.modify (f := fun s => s.edit f) hp (T.same_refl _)).mono fun _ _ _ => trivial

theorem Leads.onPlatform {f : Platform κ → α × Platform κ}
    (hp : Aloof V s.platform (f s.platform).2) :
    Leads T P P (Flow.onPlatform f) (fun _ _ => True) s :=
  .onStage (.beside hp.toBeside (T.same_refl _)) hp.kept (fun hs => hs.aloof hp) trivial

/-- Actors are tended to (`Tended`). -/
theorem Leads.tend {x : Option (Due κ)} {f : Stage κ → α × Stage κ}
    (ht : s.platform.Inv → Tended code T.same s (f s).2)
    (hx : s.platform.Inv → Due.Done (f s).2.platform x) :
    Leads T { due := x } {} (Flow.onStage f) (fun _ _ => True) s := by
  refine .get (.set (fun _ hfit hi => ?_) (fun _ hfit => ?_) (.done trivial))
  all_goals obtain ⟨hholds, hkept⟩ := T.tend (ht hfit.inv) (hx hfit.inv) hfit.inv hfit.holds
  · exact ⟨hi, hholds, (ht hfit.inv).flushed hfit.flushed⟩
  · exact ⟨hkept, (ht hfit.inv).kept⟩

theorem Leads.when {b : Bool} {f : Flow κ Unit} (hf : Leads T P P f (fun _ _ => True) s) :
    Leads T P P (Flow.when b f) (fun _ _ => True) s := by
  unfold Flow.when
  split
  · exact hf
  · exact .done trivial

theorem Leads.call {c : Call κ} (hr : Rightful c s.platform) :
    Leads T (poseOf c) {} (invoke c) (fun x t => (discipline Event.Any).gives c s x t) s :=
  fun _ hfit => ⟨⟨hfit, hr⟩, fun _ _ _ _ hg hfit' hlater => ⟨hfit', hlater, hg⟩⟩

theorem Leads.invoke {c : Call κ} (hr : Rightful c s.platform) :
    Leads T (poseOf c) {} (Flow.invoke c) (fun _ _ => True) s :=
  (Leads.call hr).mono fun _ _ _ => trivial

/-- A script comes back with the machine that it was given (`Machine.Kin`). -/
theorem Leads.resume {m : Machine κ} {base : Nat} (hm : s.platform.Held m) :
    Leads T {} {} (Flow.invoke (.resume m base)) (fun x _ => m.Kin x.2) s :=
  (Leads.call (c := .resume m base) hm).mono fun _ _ hx => hx.2.1.toKin

/-- What is due (`Due`) is seen in another way. -/
theorem Leads.recast {x y x' y' : Option (Due κ)} (hin : ∀ h, T.holds x h s → T.holds y h s)
    (hout : ∀ h t, T.holds x' h t → T.holds y' h t)
    (hf : Leads T { due := y } { due := x' } f Q s) :
    Leads T { due := x } { due := y' } f Q s :=
  fun h hfit => (hf h ⟨hfit.inv, hin h hfit.holds, hfit.flushed⟩).mono fun _ _ _ hx =>
    ⟨⟨hx.1.inv, hout _ _ hx.1.holds, hx.1.flushed⟩, hx.2⟩

/-! ## What a track brings along -/

/-- Hooks keep the track: whatever actor has been taken out, its code runs so that it can be put
back (`Code.hook`). -/
def Performs (T : Track code V) : Prop :=
  ∀ (m : Machine κ) (hook : Hook) (actor : κ.Actor) (s : Stage κ), s.platform.Held m →
    Leads T { due := some (.opening m.address m.generation hook actor) }
      { due := some (.closing m.address m.generation hook actor) }
      (serve code (code.hook actor hook m.address) m) (fun x _ => m.Kin x.2) s

/-- Foreign functions (`Code.foreign`) keep the track. -/
def Computes (T : Track code V) : Prop :=
  ∀ (m : Machine κ) (f : κ.Foreign) (args : List (Value κ)) (s : Stage κ), s.platform.Held m →
    Leads T {} {} (serve code (code.foreign f args m.address) m) (fun x _ => m.Kin x.2) s

/-- All application code keeps the track (`Flow.Performs`, `Flow.Computes`). -/
structure Upheld (T : Track code V) : Prop where
  performs : Performs T
  computes : Computes T

/-! ## Step by step -/

/-- Every body (`Flow.body`) keeps the track, as a call that it is called by. -/
def Heeds (T : Track code V) (body : (c : Call κ) → Flow κ c.Answer) : Prop :=
  ∀ c s, Rightful c s.platform → Leads T (poseOf c) {} (body c) (fun _ _ => True) s

/-- What a flow ends with, seen both ways (`Flow.Meets`). -/
theorem Tracks.and {R : Stage κ → Stage κ → Prop} {Q : α → List (Stage κ) → Stage κ → Prop}
    {Q' : α → Stage κ → Prop} (hf : Tracks T f Q h s) (hm : Meets (discipline Event.Any) R f Q' s) :
    Tracks T f (fun x h t => Q x h t ∧ Q' x t) h s := by
  induction f generalizing h s with
  | done a => exact ⟨hf, hm⟩
  | get next ih => exact ih s hf hm
  | set t next ih => exact fun hi => ⟨(hf hi).1, ih (hf hi).2 (hm.2 hi)⟩
  | call c next ih =>
    refine ⟨hf.1, fun x h' t hmove hg hfit hlater => ?_⟩
    exact ih x (hf.2 x h' t hmove hg hfit hlater) (hm.2.2 x t hfit.inv hmove hg)

/-- **A step** of a flow (`Flow.Advance`) that keeps the track keeps it. Going into a call, it is
the body that keeps it. -/
theorem Advance.tracks {x y : Flow κ α × Stage κ} {R : Stage κ → Stage κ → Prop}
    {Q : α → List (Stage κ) → Stage κ → Prop} {Q' : α → Stage κ → Prop}
    (hstep : Advance (body code) x y) (hb : Heeds T (body code)) (hi : x.2.platform.Inv)
    (hi' : y.2.platform.Inv) (hm : Meets (discipline Event.Any) R x.1 Q' x.2)
    (hf : Tracks T x.1 Q h x.2) (hx : ∃ z, T.holds z h x.2) :
    Tracks T y.1 Q (x.2 :: h) y.2 ∧ ∃ z, T.holds z (x.2 :: h) y.2 := by
  have hstay : ∃ z, T.holds z (x.2 :: h) x.2 := hx.imp fun _ hz => Track.stay hi hz
  cases hstep with
  | get => exact ⟨hf, hstay⟩
  | set => exact (hf hi').symm
  | @call c next s =>
    refine ⟨tracks_bind.mpr ?_, hstay⟩
    obtain ⟨⟨hfit, hright⟩, hnext⟩ := hf
    have hbody := hb c s hright (s :: h) hfit.stay
    have hends := (honours_discipline code.publishes_any).ends (c := c) hi hm.1
    refine (hbody.and hends).mono fun x h' t ⟨⟨hfit', hlater, _⟩, hmove, _, hgives⟩ => ?_
    exact hnext x h' t hmove hgives hfit' hlater

end Flow

end Troupe
