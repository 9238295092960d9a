import Troupe.Proofs.Flow.Changes
import Troupe.Proofs.Moments
import Troupe.Proofs.Platform.Slots

/-!
# One stride at a time

What a flow meets says how far the stage has moved since it began, but not how often a slot has been
started on the way. `Flow.Strides V f s` says that each time the flow `f`, begun on `s`, replaces
the stage, it does one thing (`Stride`): nested work, one turning that lets no slot start, or one
dealing with tasks; or it starts one slot, while none is running, and then what is left of the flow
runs that slot and ends its turn (`Starts`).

As with contracts, this is shown of one body at a time (`body_strides`) and of one operation
(`public_strides`), and then it is so at every step of every life (`Moment.Paced`, `Moment.Launch`).

Headlines:
* **`Flow.drainQueues_strides`**: draining starts one slot after the other, each when the last has
  ended.
* **`Advances.nested`**: while a slot runs there is only nested work.
* **`Moment.Reach.stride`**: from one moment to the next slots only queue, or one of them starts.
-/

namespace Troupe

variable {κ : App} {α β : Type}

open Platform

namespace Flow

/-! ## Strides -/

/-- A slot starts between two stages: none is running and no error waits for a verdict, it is the
oldest of the address whose turn it is, and no machine there is in use. What is left of the flow
runs it and ends its turn (`runSlot`). -/
structure Starts (s t : Stage κ) (a : Address) (slot : Slot κ) (f : Flow κ α) : Prop where
  alone : ∀ b, s.platform.running.contains b = false
  judged : s.platform.raised = []
  turn : s.platform.turn = .slot a slot t.platform
  ready : ∀ g, ¬ t.platform.MachineLent a g
  runs : ∃ next : Unit → Flow κ α,
    f = (runSlot a slot).bind fun deferred => (edit (·.endTurn a deferred)).bind next

/-- One thing is done to the stage (`Nested`, `Turning`, `Dealing`, `Starts`), and this is left of
the flow. -/
inductive Stride (V : Event → Prop) (s t : Stage κ) (f : Flow κ α) : Prop
  | work : Nested V s.platform t.platform → Stride V s t f
  /-- Nobody runs afterwards who did not run before. -/
  | turn : Turning s.platform t.platform →
      (∀ a slot, t.platform.running.get? a = some slot →
        s.platform.running.get? a = some slot) → Stride V s t f
  | start {a : Address} {slot : Slot κ} : Starts s t a slot f → Stride V s t f
  | deal : Dealing s.platform t.platform → Stride V s t f

variable {V : Event → Prop} {s t : Stage κ} {f : Flow κ α}

/-- What comes after what is left of a flow does not matter (`Stride`). -/
theorem Stride.bind (h : Stride V s t f) (k : α → Flow κ β) : Stride V s t (f.bind k) := by
  cases h with
  | work h => exact .work h
  | turn h hrun => exact .turn h hrun
  | deal h => exact .deal h
  | @start a slot h =>
    obtain ⟨next, hf⟩ := h.runs
    have hstart : Starts s t a slot (f.bind k) :=
      { h with runs := ⟨fun x => (next x).bind k, by rw [hf, bind_bind]; rfl⟩ }
    exact .start hstart

/-- In a stride slots only queue (`Platform.Joined`), or one of them starts (`Starts`). -/
theorem Stride.joined (h : Stride V s t f) (hi : s.platform.Inv) :
    Joined s.platform t.platform ∨ ∃ a slot, Starts s t a slot f := by
  cases h with
  | work h => exact Or.inl (h.joined hi)
  | turn h hrun => exact Or.inl (h.joined hrun)
  | start h => exact Or.inr ⟨_, _, h⟩
  | deal h => exact Or.inl h.joined

/-- Begun on a stage, the flow moves it one stride at a time (`Stride`), if its calls keep to the
discipline. -/
def Strides (V : Event → Prop) : Flow κ α → Stage κ → Prop
  | done _, _ => True
  | get next, s => Strides V (next s) s
  | set t next, s => Stride V s t next ∧ (t.platform.Inv → Strides V next t)
  | call c next, s => ∀ x t, (discipline V).inv t → (discipline V).moves c s t →
      (discipline V).gives c s x t → Strides V (next x) t

theorem strides_see {g : Stage κ → Flow κ α} :
    Strides V (get Flow.done >>= g) s ↔ Strides V (g s) s := Iff.rfl

theorem strides_ask {γ : Type} {q : Platform κ → γ} {g : γ → Flow κ α} :
    Strides V (ask q >>= g) s ↔ Strides V (g (q s.platform)) s := Iff.rfl

theorem strides_onStage {m : Stage κ → β × Stage κ} {g : β → Flow κ α} :
    Strides V (onStage m >>= g) s ↔ Stride V s (m s).2 (g (m s).1) ∧
      ((m s).2.platform.Inv → Strides V (g (m s).1) (m s).2) := Iff.rfl

theorem strides_modify {m : Stage κ → Stage κ} {g : Unit → Flow κ α} :
    Strides V (modify m >>= g) s ↔
      Stride V s (m s) (g ()) ∧ ((m s).platform.Inv → Strides V (g ()) (m s)) := Iff.rfl

theorem strides_invoke (c : Call κ) : Strides V (invoke c) s :=
  fun _ _ _ _ _ => trivial

theorem strides_ite {b : Prop} [Decidable b] {g : Flow κ α} (hf : Strides V f s)
    (hg : Strides V g s) : Strides V (if b then f else g) s := by
  split
  · exact hf
  · exact hg

theorem strides_bind {R : Stage κ → Stage κ → Prop} {Q : α → Stage κ → Prop} {k : α → Flow κ β}
    (hx : Strides V f s) (hf : Meets (discipline V) R f Q s)
    (hk : ∀ x t, Q x t → Strides V (k x) t) : Strides V (f.bind k) s := by
  induction f generalizing s with
  | done x => exact hk x s hf
  | get next ih => exact ih s hx hf
  | set t next ih => exact ⟨hx.1.bind k, fun hi => ih (hx.2 hi) (hf.2 hi)⟩
  | call c next ih =>
    exact fun x t hi ht hg => ih x (hx x t hi ht hg) (hf.2.2 x t hi ht hg)

/-- Nested work (`WithinNested`) starts no slot. -/
theorem Meets.strides {Q : α → Stage κ → Prop}
    (h : Meets (discipline V) (WithinNested V) f Q s) : Strides V f s := by
  induction f generalizing s with
  | done x => trivial
  | get next ih => exact ih s h
  | set t next ih => exact ⟨.work h.1, fun hi => ih (h.2 hi)⟩
  | call c next ih => exact fun x t hi ht hg => ih x (h.2.2 x t hi ht hg)

theorem Tidy.strides {Q : α → Stage κ → Prop} (h : Tidy OnSound V f Q s) (hi : s.platform.Inv) :
    Strides V f s :=
  (h hi).strides

/-- Nested work (`Tidy`), and then something else. -/
theorem Tidy.strides_bind {Q : α → Stage κ → Prop} {k : α → Flow κ β} (h : Tidy OnSound V f Q s)
    (hi : s.platform.Inv) (hk : ∀ x t, Strides V (k x) t) : Strides V (f.bind k) s :=
  Flow.strides_bind (h.strides hi) (h hi) fun x t _ => hk x t

/-! ## The bodies -/

variable {code : Code κ}

/-- **Draining** (`drainQueues`) starts one slot after the other, each when the last has ended. -/
theorem drainQueues_strides (code : Code κ) (hi : s.platform.Inv) (hs : s.platform.Settled) :
    Strides V (drainQueues code) s := by
  unfold drainQueues
  refine strides_ask.mpr (strides_ite trivial ?_)
  dsimp only [id]
  split
  · rename_i r rest hraised
    refine strides_modify.mpr ⟨.turn (.judge hraised) fun _ _ h => h, fun hi₁ => ?_⟩
    exact (supervise_tidy code r _).strides_bind hi₁ fun _ _ => strides_invoke _
  · rename_i hraised
    split
    · trivial
    · rename_i q hskip
      have hrun : q.running = s.platform.running := by
        obtain ⟨_, _, _, ⟨-, rfl⟩ | ⟨-, rfl⟩⟩ := turn_skipped hskip
        · rfl
        · rfl
      refine strides_modify.mpr ⟨.turn (.skip hskip) fun _ _ h => hrun ▸ h, fun _ => ?_⟩
      exact strides_invoke _
    · rename_i a slot q hslot
      obtain ⟨-, hmachine, hawake⟩ := hs.begin hi hslot
      have hstart : Starts s (s.edit fun _ => q) a slot ((runSlot a slot).bind fun deferred =>
          (edit (·.endTurn a deferred)).bind fun _ => invoke .drain) :=
        ⟨hs.quiet.running, hraised, hslot, hmachine, _, rfl⟩
      refine strides_modify.mpr ⟨.start hstart, fun hi₁ => ?_⟩
      have hmeets := runSlot_meets (V := V) hi₁ hmachine hawake
      refine strides_bind hmeets.strides hmeets ?_
      rintro _ t ⟨rfl, hclean, hend⟩
      -- the turn ends, and nobody else begins to run
      refine strides_modify.mpr ⟨.turn (.finish hend) fun b slot' h => ?_, fun _ => ?_⟩
      · obtain ⟨_, _, _, he⟩ := endTurn_eq t.platform a
        have h' : (t.platform.endTurn a false).running.get? b = some slot' := h
        rw [he] at h'
        exact (Table.get?_erase_eq_some.mp h').2
      · exact strides_invoke _

/-- The audience has its turn (`Stage.pause`). -/
theorem pause_stride (s : Stage κ) (f : Flow κ α) : Stride V s s.pause f := by
  obtain ⟨bus, -, hbus⟩ := pause_platform s
  refine .turn (pause_turning s) fun a slot h => ?_
  rw [hbus] at h
  exact h

theorem awaitTask_strides (polled : Nat) (hs : s.platform.Settled) :
    Strides V (awaitTask code polled) s := by
  unfold awaitTask
  rw [strides_see]
  split
  · trivial
  · rename_i id task rest htasks
    split
    · trivial
    refine strides_modify.mpr ⟨.work (.refl _), fun _ => ?_⟩
    split
    · exact strides_modify.mpr ⟨.deal (.take hs.unpolled htasks), fun _ => trivial⟩
    · refine strides_modify.mpr ⟨.deal (.poll htasks), fun _ => ?_⟩
      exact strides_ite (strides_modify.mpr ⟨pause_stride _ _, fun _ => strides_invoke _⟩)
        (strides_invoke _)

/-- **The main loop** (`runLoop`) drains, awaits and settles; it is draining that starts slots. -/
theorem runLoop_strides : Strides V runLoop s := by
  -- draining
  intro _ t hi _ _
  refine strides_ite ((finishRun_tidy "fatal" t).strides hi)
    (strides_ite ((finishRun_tidy "stopped" t).strides hi) ?_)
  -- awaiting
  intro x u hi _ ⟨_, _, hx⟩
  cases x with
  | idle => exact (finishRun_tidy "idle" u).strides hi
  | interrupted i => exact (interrupted_tidy i.reason u).strides hi
  | finished id o =>
    obtain ⟨-, hid, -⟩ := hx
    show Strides V ((settleTask id o).bind fun _ => invoke .run) u
    rw [settleTask_eq]
    refine ⟨.deal (.settle o hid), fun hi' => ?_⟩
    exact (applyOutcome_tidy _ o _).strides_bind hi' fun _ _ => strides_invoke _

/-- **Every body** (`body`) moves the stage one stride at a time. -/
theorem body_strides (hpub : code.Publishes V) (c : Call κ) (s : Stage κ) (hi : s.platform.Inv)
    (hn : (discipline V).needs c s) : Strides V (body code c) s := by
  have hbody := honours_discipline hpub c s hi hn
  cases c with
  | resume | start | flush => exact Meets.strides hbody
  | drain => exact drainQueues_strides code hi hn
  | await polled => exact awaitTask_strides polled hn
  | run => exact runLoop_strides

/-- **A step** (`Advance`) is a stride, or leaves the stage alone, and so are the next ones. -/
theorem Advance.strides {R : Stage κ → Stage κ → Prop} {Q : α → Stage κ → Prop}
    {x y : Flow κ α × Stage κ} (h : Advance (body code) x y) (hpub : code.Publishes V)
    (hR : ∀ s t, R s t → s.platform.Inv → t.platform.Inv) (hi : x.2.platform.Inv)
    (hm : Meets (discipline V) R x.1 Q x.2) (hx : Strides V x.1 x.2) :
    Strides V y.1 y.2 ∧ (y.2 = x.2 ∨ Stride V x.2 y.2 y.1) := by
  cases h with
  | get => exact ⟨hx, Or.inl rfl⟩
  | set => exact ⟨hx.2 (hR _ _ hm.1 hi), Or.inr hx.1⟩
  | @call c next s =>
    obtain ⟨hneeds, -, -⟩ := hm
    refine ⟨strides_bind (body_strides hpub c s hi hneeds)
      ((honours_discipline hpub).ends hi hneeds) fun x t hend => ?_, Or.inl rfl⟩
    obtain ⟨hmoves, ht, hgives⟩ := hend
    exact hx x t ht hmoves hgives

/-! ## While a slot runs -/

/-- Who does nested work while a slot is running calls nobody who drains, awaits or settles
(`Call.isNested`). -/
theorem Advance.nested {Q : α → Stage κ → Prop} {x y : Flow κ α × Stage κ} {a : Address}
    {slot : Slot κ} (h : Advance (body code) x y) (hpub : code.Publishes V)
    (hi : x.2.platform.Inv) (hrun : x.2.platform.running.get? a = some slot)
    (hx : Meets (discipline V) (WithinNested V) x.1 Q x.2) :
    WithinNested V x.2 y.2 ∧ Meets (discipline V) (WithinNested V) y.1 Q y.2 := by
  cases h with
  | get => exact ⟨.refl _, hx⟩
  | set => exact ⟨hx.1, hx.2 (hi.nested hx.1)⟩
  | @call c next s =>
    obtain ⟨hneeds, -, hnext⟩ := hx
    have hbusy : ¬ s.platform.Settled := by
      intro hs
      have hquiet := hs.quiet.running a
      rw [Table.contains_eq, hrun] at hquiet
      exact absurd hquiet (by simp)
    have hmoves (u v : Stage κ) (hm : (discipline V).moves c u v) : WithinNested V u v := by
      cases c with
      | resume | start | flush => exact hm
      | drain | await | run => exact absurd hneeds hbusy
    refine ⟨.refl _, (meets_bind' _ _ _).mpr ?_⟩
    exact ((honours_discipline hpub).ends hi hneeds).mono hmoves fun x t ⟨hm, ht, hg⟩ =>
      hnext x t ht hm hg

/-- **While a slot runs** (`Platform.running`) there is only nested work. -/
theorem Advances.nested {Q : α → Stage κ → Prop} {x y : Flow κ α × Stage κ} {a : Address}
    {slot : Slot κ} (h : Advances (body code) x y) (hpub : code.Publishes V)
    (hi : x.2.platform.Inv) (hrun : x.2.platform.running.get? a = some slot)
    (hx : Meets (discipline V) (WithinNested V) x.1 Q x.2) :
    WithinNested V x.2 y.2 ∧ Meets (discipline V) (WithinNested V) y.1 Q y.2 := by
  induction h with
  | refl => exact ⟨.refl _, hx⟩
  | tail _ hstep ih =>
    obtain ⟨hmoved, hmeets⟩ := ih
    obtain ⟨hmove, hmeets'⟩ := hstep.nested hpub (hi.nested hmoved)
      (hmoved.running ▸ hrun) hmeets
    exact ⟨hmoved.trans hmove, hmeets'⟩

/-! ## Operations -/

theorem strides_thenDrain {R : Stage κ → Stage κ → Prop} {Q : α → Stage κ → Prop}
    (hx : Strides V f s) (hf : Meets (discipline V) R f Q s) :
    Strides V (Operation.thenDrain f) s :=
  strides_bind hx hf fun _ _ _ _ _ _ _ _ => trivial

theorem Tidy.strides_thenDrain {Q : α → Stage κ → Prop} (h : Tidy OnSound V f Q s)
    (hi : s.platform.Inv) : Strides V (Operation.thenDrain f) s :=
  Flow.strides_thenDrain (h.strides hi) (h hi)

/-- Recording something (`onStage`) is upkeep. -/
theorem record_strides {m : Stage κ → α × Stage κ} (hu : Upkeep s.platform (m s).2.platform) :
    Strides V (onStage m) s :=
  ⟨.work hu.nested, fun _ => trivial⟩

theorem spawnUnder_strides (parent : Address) (t : Template κ) (hi : s.platform.Inv) :
    Strides V (Operation.spawnUnder code parent t) s := by
  unfold Operation.spawnUnder
  have hup := Stage.allocate_upkeep code parent t s hi.table
  refine strides_onStage.mpr ⟨.work hup.nested, fun hi' => ?_⟩
  split
  · trivial
  · refine Tidy.strides_thenDrain (Q := fun _ _ => True) (.bind (startTree_tidy _ _) ?_) hi'
    intro x u _ _
    split
    · exact .pure trivial
    · exact .pure trivial

theorem exec_strides (a : Address) (script : Script κ) :
    Strides V (Operation.exec a script) s := by
  unfold Operation.exec
  rw [strides_ask]
  split
  · trivial
  · rename_i g hg
    have hturn : Turning s.platform (s.platform.schedule a g (.script script)) :=
      .schedule script (generation?_eq_some.mp hg)
    obtain ⟨_, _, _, he⟩ := schedule_eq s.platform a g (.script script)
    refine ⟨.turn hturn fun b slot h => ?_, fun _ _ _ _ _ _ => trivial⟩
    have h' : (s.platform.schedule a g (.script script)).running.get? b = some slot := h
    rw [he] at h'
    exact h'

theorem eval_strides (a : Address) (script : Script κ) (hi : s.platform.Inv) :
    Strides V (Operation.eval a script) s := by
  unfold Operation.eval
  rw [strides_ask]
  refine strides_ite trivial ?_
  have hout : Meets (discipline V) (WithinNested V) (checkOut a) (fun x t => ∀ m, x = some m →
      ∃ c, s.platform.context? a = some c ∧ m.AtRest a c.generation ∧ t.platform.Inv ∧
        t.platform = s.platform.modifyContext a fun c => { c with machine := none }) s := by
    refine meets_checkOut hi (fun _ h => h) (fun _ _ _ _ m hm => absurd hm (by simp)) ?_
    intro c m hc hm t hi' ht m' hm'
    obtain rfl := Option.some.inj hm'
    exact ⟨c, hc, hm, hi', ht⟩
  refine strides_bind hout.strides hout fun x t hx => ?_
  cases x with
  | none => trivial
  | some m =>
    obtain ⟨c, hc, hm, hi', ht⟩ := hx m rfl
    have hmeets := Operation.evaluate_meets (V := V) script hc hm hi' ht
    exact strides_thenDrain hmeets.strides hmeets

theorem tellFrom_strides (target source : Address) (message : Message) (hi : s.platform.Inv) :
    Strides V (Operation.tellFrom target source message) s := by
  refine Tidy.strides_thenDrain (Q := fun _ _ => True) (.bind (route_tidy _ s) ?_) hi
  intro sent t _ _
  exact .bind (.when (.step (.publish rfl))) fun _ _ _ _ => .pure trivial

/-- **Every operation** (`Operation.Public`) moves the stage one stride at a time. -/
theorem public_strides (hf : Operation.Public code f) (hpub : Operation.Publishes V f)
    (hi : s.platform.Inv) : Strides V f s := by
  cases hf with
  | spawn t => exact spawnUnder_strides .root t hi
  | spawnUnder parent t => exact spawnUnder_strides parent t hi
  | allocate parent t => exact record_strides (Stage.allocate_upkeep code parent t s hi.table)
  | runActor a => exact Tidy.strides_thenDrain (.start a) hi
  | exec a script => exact exec_strides a script
  | eval a script => exact eval_strides a script hi
  | send target source message => exact (route_tidy _ s).strides_thenDrain hi
  | tellFrom target source message => exact tellFrom_strides target source message hi
  | tell target message => exact tellFrom_strides target .discard message hi
  | broadcastFrom group source message =>
    exact (routeToMembers_tidy group source message s).strides_thenDrain hi
  | broadcast group message =>
    exact (routeToMembers_tidy group .discard message s).strides_thenDrain hi
  | dropMessage env => exact ⟨.work (Step.publish rfl).nested, fun _ => trivial⟩
  | kill target => exact (terminate_tidy code target s).strides_thenDrain hi
  | raise a e => exact Tidy.strides_thenDrain (.step (.raise a e)) hi
  | putRoute target router =>
    exact ⟨.work (Upkeep.putRoute s.platform target router).nested, fun _ => trivial⟩
  | removeRoute target =>
    exact ⟨.work (Upkeep.removeRoute s.platform target).nested, fun _ => trivial⟩
  | putMember group a => exact record_strides (.join s.platform group a)
  | removeMember group a =>
    refine ⟨.turn (.part group a) fun b slot h => ?_, fun _ => trivial⟩
    obtain ⟨_, he⟩ := removeMember_eq s.platform group a
    have h' : (s.platform.removeMember group a).2.running.get? b = some slot := h
    rw [he] at h'
    exact h'
  | trigger e => exact ⟨.work (Announce.publish (hpub e _ rfl)).nested, fun _ => trivial⟩
  | stop => exact ⟨.work Step.stop.nested, fun _ => trivial⟩
  | run => exact strides_invoke _

end Flow

/-! ## At every moment -/

namespace Moment

open Troupe.Flow

variable {code : Code κ} {m m' : Moment κ} {V : Event → Prop}

/-- What is left of an operation moves the stage one stride at a time (`Flow.Strides`). -/
def Paced (V : Event → Prop) : Moment κ → Prop
  | between _ => True
  | amid f s => Strides V f s

/-- From one moment to the next a slot starts (`Flow.Starts`). -/
def Launch (m m' : Moment κ) (a : Address) (slot : Slot κ) : Prop :=
  ∃ (α : Type) (f : Flow κ α), m' = amid f m'.stage ∧ Starts m.stage m'.stage a slot f

theorem Next.paced (h : Next code m m') (hm : m.Ok Event.Any) (hx : m.Paced Event.Any) :
    m'.Paced Event.Any ∧ (Joined m.stage.platform m'.stage.platform ∨ ∃ a slot,
      m.Launch m' a slot) := by
  have hi := hm.inv
  cases h with
  | begin hf => exact ⟨public_strides hf (Operation.publishes_any _) hi, Or.inl (.refl _)⟩
  | @advance _ _ _ s t hstep =>
    obtain ⟨hx', hsame | hs⟩ := hstep.strides code.publishes_any (fun _ _ => Inv.outer) hi hm.2 hx
    · obtain rfl : t = s := hsame
      exact ⟨hx', Or.inl (.refl _)⟩
    · refine ⟨hx', (hs.joined hi).imp_right fun ⟨a, slot, hstart⟩ => ?_⟩
      exact ⟨a, slot, _, _, rfl, hstart⟩
  | back => exact ⟨trivial, Or.inl (.refl _)⟩
  | @meanwhile s bus w listener =>
    exact ⟨trivial, Or.inl (Dealing.bus (p := s.platform) bus).joined⟩

theorem Reach.paced (h : Reach code m) : m.Paced Event.Any := by
  obtain ⟨config, trap, subs, w, hlater⟩ := h
  induction hlater with
  | refl => trivial
  | tail hbefore hstep ih => exact (hstep.paced (Reach.ok ⟨config, trap, subs, w, hbefore⟩) ih).1

/-- **From one moment to the next** (`Next`) slots only queue, or one of them starts (`Launch`). -/
theorem Reach.stride (h : Reach code m) (hnext : Next code m m') :
    Joined m.stage.platform m'.stage.platform ∨ ∃ a slot, m.Launch m' a slot :=
  (hnext.paced h.ok h.paced).2

end Moment

end Troupe
