import Troupe.Proofs.Moments

/-!
# Actors act

Between operations somebody may start an actor (`Operation.runActor`, the source's `run_actor`). If
it is idle (`Context.isIdle`), its code runs then: it is given its machine, and both are in use
meanwhile. `Stage.busy` is the stage on which its code begins: the start has been told, and the
context has neither actor nor machine.

`advances_startActor` follows the start to there, by way of `advances_actAt`, which takes the
machine out, and `advances_act`, which takes the actor out. What comes after that is up to the
application.

Headline:
* **`Moment.Reach.serving`**: whatever the code of an idle actor does when it is started is under
  way at a moment that is reached. So what is said of every moment is said of the middle of every
  hook.
-/

namespace Troupe

open Platform Troupe.Flow

variable {κ : App} {code : Code κ} {m : Machine κ} {s : Stage κ} {a : Address} {c : Context κ}
  {x : κ.Actor}

/-- The stage when an idle actor begins to act on being started (`Hook.run`). -/
def Stage.busy (s : Stage κ) (a : Address) : Stage κ :=
  ((s.edit (·.publish (.about .actorStarted a))).edit
    (·.modifyContext a fun c => { c with machine := none })).edit
      (·.modifyContext a fun c => { c with actor := none })

namespace Flow

variable (code) (body : (c : Call κ) → Flow κ c.Answer) (hook : Hook)

/-- An actor that is at hand is taken (`act`), and its code begins. -/
theorem advances_act (hc : s.platform.context? m.address = some c) (hx : c.actor = some x)
    (hg : c.generation = m.generation) :
    ∃ k, Advances body (act code m hook, s)
      ((serve code (code.hook x hook m.address) m).bind k,
        s.edit (·.modifyContext m.address fun c => { c with actor := none })) := by
  obtain ⟨_, _, actor, _, _, _, _, _, _⟩ := c
  obtain rfl : actor = some x := hx
  have hsame : ¬ _ ≠ m.generation := not_not.mpr hg
  apply Exists.intro
  refine .head .get ?_
  dsimp only [done, Bind.bind, Flow.bind]
  rw [hc]
  dsimp only
  rw [if_neg hsame]
  exact advances_modify _ _

/-- An actor that is idle is given its machine (`actAt`). -/
theorem advances_actAt (hc : s.platform.context? a = some c) (hx : c.actor = some x)
    (hm : c.machine = some m) (ha : m.address = a) (hg : c.generation = m.generation) :
    ∃ k, Advances body (actAt code a hook, s)
      ((serve code (code.hook x hook a) m).bind k,
        (s.edit (·.modifyContext a fun c => { c with machine := none })).edit
          (·.modifyContext a fun c => { c with actor := none })) := by
  obtain rfl := ha
  let out : Stage κ := s.edit (·.modifyContext m.address fun c => { c with machine := none })
  have hout : out.platform.context? m.address = some { c with machine := none } :=
    (context?_modifyContext _).trans ((if_pos rfl).trans (congrArg (Option.map _) hc))
  obtain ⟨k, hact⟩ := advances_act code body hook hout hx hg
  apply Exists.intro
  refine Relation.ReflTransGen.trans (advances_onStage _ _) ?_
  dsimp only
  rw [hc, Option.bind_some, hm]
  exact hact.ahead _

/-- An idle actor that is started (`startActor`) acts on that. -/
theorem advances_startActor (hc : s.platform.context? a = some c) (hx : c.actor = some x)
    (hm : c.machine = some m) (ha : m.address = a) (hg : c.generation = m.generation) :
    ∃ k, Advances body (startActor code a, s) ((serve code (code.hook x .run a) m).bind k,
      s.busy a) := by
  have hlive : s.platform.isLive a = true := isLive_iff.mpr ⟨c, hc⟩
  obtain ⟨k, hact⟩ := advances_actAt code body .run
    (s := s.edit (·.publish (.about .actorStarted a))) hc hx hm ha hg
  apply Exists.intro
  refine Relation.ReflTransGen.trans (advances_ask _ _) ?_
  dsimp only
  rw [hlive, if_neg (by simp)]
  refine Relation.ReflTransGen.trans (advances_modify _ _) ?_
  exact hact.ahead _

end Flow

/-- **Application code comes to run** (`serve`): between operations an idle actor may be started. -/
theorem Moment.Reach.serving (h : Moment.Reach code (.between s))
    (hc : s.platform.context? a = some c) (hx : c.actor = some x) (hm : c.machine = some m)
    (ha : m.address = a) (hg : c.generation = m.generation) :
    ∃ k : _ → Flow κ (Except PlatformError Unit),
      Moment.Reach code (.amid ((serve code (code.hook x .run a) m).bind k) (s.busy a)) := by
  obtain ⟨k, hstart⟩ := advances_startActor code (body code) hc hx hm ha hg
  have hrun : ∃ k', Advances (body code) (Operation.runActor a, s)
      ((serve code (code.hook x .run a) m).bind k', s.busy a) := ⟨_, .head .call (hstart.ahead _)⟩
  obtain ⟨k', hrun⟩ := hrun
  exact ⟨k', (h.later (.single (.begin (.runActor a)))).later (.advances hrun)⟩

end Troupe
