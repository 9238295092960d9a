import Troupe.Proofs.Flow.Doings
import Troupe.Proofs.Moments
import Troupe.Proofs.Watch.Moves

/-!
# Whom a verdict hits

An error that waits for a verdict (`Raised`) names the address of its source, not the incarnation
that raised it. So the verdict (`Flow.enact`, in the source's `supervise`) hits whoever lives there
by then: an actor that was built anew because of an earlier error of its predecessor, or that
somebody else put there, is removed or built anew for an error it did not raise. A restart of an
address where nobody lives takes the template that came with the error, if there is one
(`Raised.template`).

`Succession.code` is an application whose actors come to that: two errors wait, the first verdict
replaces the actor that raised both, the second hits its successor
(`Succession.successor_replaced`).

Headlines:
* **`Moment.verdict_on_occupant`**: whom a verdict hits.
* `restart_advances`: what a restart removes and builds, whoever lives at the source.
-/

namespace Troupe

open Platform Troupe.Flow

section

variable {κ : App} {code : Code κ}

namespace Flow

variable {α β : Type} {body : (c : Call κ) → Flow κ c.Answer} {s : Stage κ}

theorem perform_onStage {n : Nat} (f : Stage κ → α × Stage κ) (k : α → Flow κ β) :
    perform body n (onStage f >>= k) s = perform body n (k (f s).1) (f s).2 := rfl

end Flow

/-- Judging an error (`Stage.judge`) changes nothing on the platform but the bus. -/
theorem Stage.judge_platform (code : Code κ) (r : Raised κ) (levels : List Address) (s : Stage κ) :
    ∃ bus, (judge code r levels s).2.platform = { s.platform with bus } :=
  (judge_told code r levels s).imp fun _ => And.left

/-- **Building anew** (`Flow.restart`) removes whoever lives at or below the source. Those who live
afterwards lived elsewhere before, or are new. -/
theorem restart_advances (code : Code κ) {s : Stage κ} (h : s.platform.TableInv) (r : Raised κ)
    {t : Template κ}
    (ht : (s.platform.template? r.source <|> r.template) = some t) :
    ∃ f u, Advances (body code) (restart code r, s) (f, u) ∧
      ∀ b c, u.platform.context? b = some c →
        (b ≠ r.source ∧ b.isBelow r.source = false ∧ s.platform.context? b = some c) ∨
        s.platform.nextGeneration ≤ c.generation := by
  let cleared := s.terminate code r.source
  let built := cleared.allocate code r.source.parent t
  have hcleared : Tended code (fun _ _ => True) s cleared := terminate_tended r.source s
  have hbuilt : Tended code (fun _ _ => True) cleared built.2 :=
    allocate_tended (fun _ => trivial) (fun _ => trivial) r.source.parent t cleared
      (TableInv.upkeep (Stage.terminate_upkeep r.source h) h)
  have hlives (b : Address) (c : Context κ) (hc : built.2.platform.context? b = some c) :
      (b ≠ r.source ∧ b.isBelow r.source = false ∧ s.platform.context? b = some c) ∨
        s.platform.nextGeneration ≤ c.generation := by
    rcases hbuilt.context.2 b c hc with hold | ⟨_, _, _, _, hnew, -⟩
    · rw [Stage.context?_terminate r.source h] at hold
      split at hold
      · exact absurd hold (by simp)
      · rename_i haway
        obtain ⟨hne, hbelow⟩ := not_or.mp haway
        exact Or.inl ⟨hne, Bool.not_eq_true _ ▸ hbelow, hold⟩
    · exact Or.inr (Nat.le_trans hcleared.context.1 hnew)
  have hway : ∃ f, Advances (body code) (restart code r, s) (f, built.2) := by
    apply Exists.intro
    refine Relation.ReflTransGen.trans (advances_ask _ _) ?_
    dsimp only [id]
    rw [ht]
    exact Relation.ReflTransGen.trans (advances_modify _ _) (advances_onStage _ _)
  obtain ⟨f, hway⟩ := hway
  exact ⟨f, built.2, hway, hlives⟩

namespace Moment

variable {m : Moment κ}

/-- **A verdict hits the occupant.** Judging changes nobody (`Stage.judge`). An error that is
ignored, or that nobody handles, changes nobody either. When the verdict is to stop, whoever lives
at the source by then is removed, with everybody below; when it is to restart, they are removed as
well, and whoever lives there afterwards is new. Which incarnation raised the error does not matter.
-/
theorem verdict_on_occupant (h : Reach code m) (r : Raised κ) {d : Decision} {u : Stage κ}
    (hjudged : Stage.judge code r r.source.ancestry m.stage = (d, u)) :
    (d = .ignored ∨ d = .unhandled → ∀ n, ∃ t,
      perform (body code) n (supervise code r) m.stage = some ((), t) ∧
        ∀ b, t.platform.context? b = m.stage.platform.context? b) ∧
    (d = .stop → ∀ n, ∃ t,
      perform (body code) n (supervise code r) m.stage = some ((), t) ∧
        ∀ b, t.platform.context? b = if b = r.source ∨ b.isBelow r.source = true then none
          else m.stage.platform.context? b) ∧
    (d = .restart → (m.stage.platform.template? r.source <|> r.template).isSome →
      ∃ f t, Advances (body code) (supervise code r, m.stage) (f, t) ∧
        ∀ b c, t.platform.context? b = some c →
          (b ≠ r.source ∧ b.isBelow r.source = false ∧
            m.stage.platform.context? b = some c) ∨
          ∀ a c', m.stage.platform.context? a = some c' → c'.generation < c.generation) := by
  have htable : m.stage.platform.TableInv := h.ok.inv.table
  obtain ⟨bus, hbus⟩ := Stage.judge_platform code r r.source.ancestry m.stage
  rw [hjudged] at hbus
  have hcontext (b : Address) : u.platform.context? b = m.stage.platform.context? b := by
    rw [hbus]
    rfl
  have htable' : u.platform.TableInv := hbus ▸ htable.congr (fun _ => rfl) rfl rfl
  refine ⟨?_, ?_, ?_⟩
  · intro hspared n
    unfold supervise
    rw [perform_onStage, hjudged]
    rcases hspared with rfl | rfl
    · exact ⟨_, rfl, hcontext⟩
    · exact ⟨_, rfl, hcontext⟩
  · rintro rfl n
    unfold supervise
    rw [perform_onStage, hjudged]
    refine ⟨_, rfl, fun b => ?_⟩
    rw [Stage.context?_terminate r.source htable', hcontext]
  · rintro rfl htemplate
    have htemplate' : (u.platform.template? r.source <|> r.template).isSome := by
      unfold template? at htemplate ⊢
      rwa [hcontext]
    obtain ⟨x, hx⟩ := Option.isSome_iff_exists.mp htemplate'
    obtain ⟨f, t, hrebuilt, hlives⟩ := restart_advances code htable' r hx
    have hjudge : Advances (body code) (supervise code r, m.stage) (restart code r, u) := by
      have hstep (k : Decision → Flow κ Unit) :
          Advances (body code) (onStage (Stage.judge code r r.source.ancestry) >>= k, m.stage)
            (k (Stage.judge code r r.source.ancestry m.stage).1,
              (Stage.judge code r r.source.ancestry m.stage).2) :=
        advances_onStage _ k
      rw [hjudged] at hstep
      exact hstep _
    refine ⟨f, t, Relation.ReflTransGen.trans hjudge hrebuilt, fun b c hc => ?_⟩
    rcases hlives b c hc with ⟨hne, hbelow, hold⟩ | hnew
    · exact Or.inl ⟨hne, hbelow, hcontext b ▸ hold⟩
    · refine Or.inr fun a c' hc' => Nat.lt_of_lt_of_le ?_ hnew
      exact htable'.fresh a c' (hcontext a ▸ hc')

/-- An actor is removed and spawned anew, and then an error of the first incarnation is judged: the
verdict is to stop (`Verdict.stop`), and the second incarnation is removed. -/
theorem verdict_spawned : ∃ s t : Stage App.sample,
    Reach Code.sample (between s) ∧ s.platform.generation? .sample = some 2 ∧
      perform (body Code.sample) 0
        (supervise Code.sample ⟨.sample, .application "e", none⟩) s = some ((), t) ∧
      t.platform.context? .sample = none := by
  let r : Raised App.sample := ⟨.sample, .application "e", none⟩
  let spawn := Operation.spawn Code.sample (.mk (some "a") () [] (some ()) [] [])
  have hrun : ((perform (body Code.sample) 8 spawn sample).bind fun x =>
      (perform (body Code.sample) 8 (Operation.kill Code.sample .sample) x.2).bind fun y =>
        (perform (body Code.sample) 8 spawn y.2).map fun z =>
          (z.2.platform.generation? .sample,
            (Stage.judge Code.sample r r.source.ancestry z.2).1)) =
      some (some 2, .stop) := by decide +kernel
  obtain ⟨⟨_, s₁⟩, h₁, hrun⟩ := Option.bind_eq_some_iff.mp hrun
  obtain ⟨⟨_, s₂⟩, h₂, hrun⟩ := Option.bind_eq_some_iff.mp hrun
  obtain ⟨⟨_, s₃⟩, h₃, hseen⟩ := Option.map_eq_some_iff.mp hrun
  obtain ⟨hgeneration, hstop⟩ := Prod.mk.inj hseen
  have hreach : Reach Code.sample (between s₃) :=
    ((reach_sample.perform 8 (.spawn _) h₁).perform 8 (.kill .sample) h₂).perform 8 (.spawn _) h₃
  obtain ⟨t, ht, hcontext⟩ := (verdict_on_occupant hreach r rfl).2.1 hstop 0
  exact ⟨s₃, t, hreach, hgeneration, ht, (hcontext .sample).trans (if_pos (Or.inl rfl))⟩

end Moment

end

/-! ## A successor that is hit -/

namespace Succession

/-- What there is to see of the actor: its generation, and the number of errors that wait. -/
structure Sight where
  generation : Option Nat
  raised : Nat
  deriving DecidableEq

/-- An application that keeps the verdicts it will give, and notes what it sees. -/
def app : App where
  Factory := Unit
  Actor := Unit
  Trap := Unit
  Foreign := Unit
  Task := Unit
  World := List Verdict × List Sight

/-- What there is to see of the actor now. -/
def sight (p : Platform app) : Sight :=
  ⟨p.generation? .sample, p.raised.length⟩

def note : Act app Unit :=
  .look fun p w => .put (w.1, w.2 ++ [sight p]) (.done ())

/-- Its actors raise two errors when they get a message (`Request.raise`), and note what they see
then and when they are started. -/
def code : Code app where
  freshId w := ("fresh", w)
  build _ _ w := ((), w)
  init _ w := (.direct, w)
  stop _ w := w
  judge _ _ w := (w.1.headD .ignore, w.1.tail, w.2)
  hook
    | _, .accept _, _ =>
      .ask (.raise (.application "first")) fun _ => .ask (.raise (.application "second")) fun _ =>
        note.bind fun _ => .done (.ok ())
    | _, _, _ => note.bind fun _ => .done (.ok ())
  foreign _ _ _ := .done (.ok .nil)
  poll _ w := (.ready (.ok none), w)

def template : Template app :=
  .mk (some "a") () [] (some ()) [] []

/-- The platform on which operations are tried. -/
def sample (verdicts : List Verdict) : Stage app :=
  .new {} none [] (verdicts, [])

theorem reach_sample (verdicts : List Verdict) : Moment.Reach code (.between (sample verdicts)) :=
  ⟨{}, none, [], (verdicts, []), .refl⟩

/-- What is noted when the actor is spawned and told of something, and what there is to see
afterwards. -/
def told (verdicts : List Verdict) : Option (List Sight × Sight) :=
  (perform (body code) 20 (Operation.spawn code template) (sample verdicts)).bind fun x =>
    (perform (body code) 20 (Operation.tell .sample .null) x.2).map fun y =>
      (y.2.world.2, sight y.2.platform)

/-- When the actor is spawned and told of something, and these verdicts are given, it notes these
sights (`Sight`), and the last one is what there is to see afterwards. -/
def Notes (verdicts : List Verdict) (sights : List Sight) (last : Sight) : Prop :=
  ∃ x s sent t,
    perform (body code) 20 (Operation.spawn code template) (sample verdicts) = some (x, s) ∧
    Moment.Reach code (.between s) ∧
    perform (body code) 20 (Operation.tell .sample .null) s = some (sent, t) ∧
    t.world.2 = sights ∧ sight t.platform = last

theorem notes_of_told {verdicts : List Verdict} {sights : List Sight} {last : Sight}
    (h : told verdicts = some (sights, last)) : Notes verdicts sights last := by
  obtain ⟨⟨x, s⟩, hs, h⟩ := Option.bind_eq_some_iff.mp h
  obtain ⟨⟨sent, t⟩, ht, h⟩ := Option.map_eq_some_iff.mp h
  obtain ⟨hsights, hlast⟩ := Prod.mk.inj h
  exact ⟨x, s, sent, t, hs, (reach_sample verdicts).perform 20 (.spawn template) hs, ht, hsights,
    hlast⟩

/-- **A successor is hit.** Two errors of the first incarnation wait (`Notes`). The verdict on the
first makes the platform build the actor anew; the second incarnation starts while the other error
waits, and has raised none itself. The verdict on that one replaces the second incarnation by a
third, or removes it. -/
theorem successor_replaced :
    Notes [.restart, .restart] [⟨some 1, 0⟩, ⟨some 1, 2⟩, ⟨some 2, 1⟩, ⟨some 3, 0⟩] ⟨some 3, 0⟩ ∧
    Notes [.restart, .stop] [⟨some 1, 0⟩, ⟨some 1, 2⟩, ⟨some 2, 1⟩] ⟨none, 0⟩ :=
  ⟨notes_of_told (by decide +kernel), notes_of_told (by decide +kernel)⟩

end Succession

end Troupe
