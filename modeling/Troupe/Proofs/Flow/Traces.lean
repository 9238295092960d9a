import Troupe.Proofs.Flow.Lines
import Troupe.Stage.Removal

/-!
# Traces of instructions

A platform may be configured to tell of each instruction that is carried out (`Config.logOps`). That
is all that the bus then says more (`Stage.Traced`, `Event.isOther`), and what else is done to a
stage is done alike: `Traced.edit`, `Traced.modifyContext`, `Traced.publish`, `Traced.terminate`. A
question that is not about the bus has the same answer (`Traced.asked`). Only the application may
have noticed; if it is `deaf`, its state is the same as well.

It is needed where a script is compared with a loop that logs nothing, as in `Flow.notify_attends`:
there the two stages differ by what was logged on the way, and what follows is done to both. An
actor that leaves is removed from both alike, with its last call.

Headlines:
* **`Traced.terminate`**, `Traced.modifyContext`, `Traced.edit`: what is done to both is done alike.
* `Traced.asked`: what is asked of both is answered alike.
-/

namespace Troupe

variable {κ : App}

/-- Whether an event tells of something else than an instruction (`EventKind.opExecuted`). -/
def Event.isOther (e : Event) : Bool :=
  e.kind != .opExecuted

/-- The platform with another bus (`Platform.bus`). -/
def Platform.withBus (p : Platform κ) (bus : Bus) : Platform κ :=
  { p with bus }

/-- A stage is another one, but the bus tells of more instructions, if instructions are logged. The
application may have noticed that, and its state may differ then, unless it is `deaf`. -/
structure Stage.Traced (deaf : Prop) (s t : Stage κ) : Prop where
  same : ∃ bus world, t = { s.edit (·.withBus bus) with world }
  bus : t.platform.bus = { s.platform.bus with published := t.platform.bus.published }
  others : t.platform.bus.published.filter Event.isOther =
    s.platform.bus.published.filter Event.isOther
  world : deaf → t.world = s.world
  silent : s.platform.config.logOps = false → t = s

namespace Stage.Traced

variable {deaf : Prop} {s t u : Stage κ} {a : Address} {e : Event}

theorem refl (s : Stage κ) : s.Traced deaf s :=
  ⟨⟨s.platform.bus, s.world, rfl⟩, rfl, rfl, fun _ => rfl, fun _ => rfl⟩

/-- A question that is not about the bus (`Platform.withBus`). -/
theorem asked {α : Type} (h : s.Traced deaf t) (q : Platform κ → α)
    (hq : ∀ p bus, q (p.withBus bus) = q p) : q t.platform = q s.platform := by
  obtain ⟨bus, _, rfl⟩ := h.same
  exact hq s.platform bus

theorem context? (h : s.Traced deaf t) (b : Address) :
    t.platform.context? b = s.platform.context? b :=
  h.asked (·.context? b) fun _ _ => rfl

theorem logOps (h : s.Traced deaf t) : t.platform.config.logOps = s.platform.config.logOps :=
  h.asked (·.config.logOps) fun _ _ => rfl

theorem world_silent (h : s.Traced deaf t) (hlog : s.platform.config.logOps = false) :
    t.world = s.world := by
  rw [h.silent hlog]

theorem trans (h : s.Traced deaf t) (h' : t.Traced deaf u) : s.Traced deaf u := by
  refine ⟨?_, ?_, h'.others.trans h.others, fun hdeaf => (h'.world hdeaf).trans (h.world hdeaf),
    fun hlog => ?_⟩
  · obtain ⟨_, _, rfl⟩ := h.same
    obtain ⟨bus, world, rfl⟩ := h'.same
    exact ⟨bus, world, rfl⟩
  · rw [h'.bus, h.bus]
  · rw [h'.silent (h.logOps.trans hlog), h.silent hlog]

/-- A change that neither looks at the bus nor touches it (`Platform.withBus`). -/
theorem edit (h : s.Traced deaf t) {f : Platform κ → Platform κ}
    (hbus : ∀ p bus, f (p.withBus bus) = (f p).withBus bus)
    (hconfig : ∀ p, (f p).config = p.config) : (s.edit f).Traced deaf (t.edit f) := by
  have hkept (p : Platform κ) : (f p).bus = p.bus := by
    have hsame := congrArg Platform.bus (hbus p p.bus)
    exact hsame
  refine ⟨?_, ?_, ?_, h.world, fun hlog => ?_⟩
  · obtain ⟨bus, world, rfl⟩ := h.same
    exact ⟨bus, world, congrArg (Stage.mk · world s.listener) (hbus s.platform bus)⟩
  · show (f t.platform).bus =
      { (f s.platform).bus with published := (f t.platform).bus.published }
    rw [hkept, hkept]
    exact h.bus
  · show (f t.platform).bus.published.filter Event.isOther =
      (f s.platform).bus.published.filter Event.isOther
    rw [hkept, hkept, h.others]
  · have hsilent : s.platform.config.logOps = false := by
      rw [← hconfig]
      exact hlog
    rw [h.silent hsilent]

theorem modifyContext (h : s.Traced deaf t) (a : Address) (f : Context κ → Context κ) :
    (s.edit (·.modifyContext a f)).Traced deaf (t.edit (·.modifyContext a f)) :=
  h.edit (fun _ _ => rfl) fun _ => rfl

theorem publish (h : s.Traced deaf t) (e : Event) :
    (s.edit (·.publish e)).Traced deaf (t.edit (·.publish e)) := by
  refine ⟨?_, ?_, ?_, h.world, fun hlog => by rw [h.silent hlog]⟩
  · obtain ⟨bus, world, rfl⟩ := h.same
    exact ⟨bus.publish e, world, rfl⟩
  · show t.platform.bus.publish e =
      { s.platform.bus.publish e with published := t.platform.bus.published.push e }
    rw [h.bus]
    rfl
  · show (t.platform.bus.published.push e).filter Event.isOther =
      (s.platform.bus.published.push e).filter Event.isOther
    rw [Array.filter_push, Array.filter_push, h.others]

/-- Instructions are logged (`Stage.logged`). -/
theorem logged (h : s.Traced deaf t) (a : Address) (is : List Instr) :
    s.Traced deaf (t.logged a is) := by
  refine h.trans ?_
  clear h
  induction is generalizing t with
  | nil => exact .refl t
  | cons i is ih =>
    show t.Traced deaf
      ((if t.platform.config.logOps then t.edit (·.publish (.executed a i)) else t).logged a is)
    refine .trans ?_ ih
    split
    · rename_i hlog
      refine ⟨⟨t.platform.bus.publish (.executed a i), t.world, rfl⟩, rfl, ?_, fun _ => rfl,
        fun hoff => ?_⟩
      · show (t.platform.bus.published.push (.executed a i)).filter Event.isOther = _
        rw [Array.filter_push]
        exact if_neg (by simp [Event.isOther, Event.executed])
      · exact absurd (hlog.symm.trans hoff) (by simp)
    · exact .refl t

/-- The application's state changes. -/
theorem put (h : s.Traced deaf t) {w x : κ.World} (hworld : deaf → x = w)
    (hsilent : s.platform.config.logOps = false → x = w) :
    ({ s with world := w } : Stage κ).Traced deaf { t with world := x } := by
  refine ⟨?_, h.bus, h.others, hworld, fun hlog => ?_⟩
  · obtain ⟨bus, _, rfl⟩ := h.same
    exact ⟨bus, x, rfl⟩
  · rw [hsilent hlog, h.silent hlog]

theorem remove (h : s.Traced deaf t) (code : Code κ) (a : Address) :
    (s.remove code a).Traced deaf (t.remove code a) := by
  unfold Stage.remove
  rw [h.context?]
  cases s.platform.context? a with
  | none => exact h
  | some c =>
    have hforgotten : (s.edit fun p => (p.forget a).unschedule a).Traced deaf
        (t.edit fun p => (p.forget a).unschedule a) := by
      refine h.edit (fun p bus => ?_) fun p => ?_
      · unfold Platform.unschedule
        dsimp only
        rw [apply_ite (Platform.withBus · bus)]
        rfl
      · unfold Platform.unschedule
        dsimp only
        rw [apply_ite Platform.config]
        exact ite_self _
    have hgone := hforgotten.publish (.about .actorRemoved a)
    refine hgone.put (fun hdeaf => ?_) fun hlog => ?_
    · rw [h.world hdeaf]
    · have hworld : t.world = s.world := hgone.world_silent hlog
      rw [hworld]

theorem terminateWithin (h : s.Traced deaf t) (code : Code κ) (n : Nat) (a : Address) :
    (s.terminateWithin code n a).Traced deaf (t.terminateWithin code n a) := by
  induction n generalizing a s t with
  | zero => exact h
  | succ n ih =>
    have hbelow (as : List Address) {s t : Stage κ} (h : s.Traced deaf t) :
        (as.foldl (fun s c => s.terminateWithin code n c) s).Traced deaf
          (as.foldl (fun s c => s.terminateWithin code n c) t) := by
      induction as generalizing s t with
      | nil => exact h
      | cons a as ih' => exact ih' (ih h a)
    unfold Stage.terminateWithin
    rw [h.asked (·.contains a) fun _ _ => rfl, h.asked (·.directChildren a) fun _ _ => rfl]
    split
    · dsimp only
      split
      · exact hbelow _ h
      · exact (hbelow _ h).remove code a
    · exact h

theorem terminate (h : s.Traced deaf t) (code : Code κ) (a : Address) :
    (s.terminate code a).Traced deaf (t.terminate code a) := by
  unfold Stage.terminate
  rw [h.asked (·.size) fun _ _ => rfl]
  exact h.terminateWithin code _ a

end Stage.Traced

end Troupe
