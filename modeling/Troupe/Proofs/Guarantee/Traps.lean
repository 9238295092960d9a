import Troupe.Flow.Activities

/-!
# Which trap decides

An error rises from its source, level by level, until a trap says something other than "escalate"
(`Flow.supervise`, the source's `supervise`; `Flow.Resolved`). The levels are the source, its parent
and so on up to the root (`Address.Ascent`), each once. Who has the say at a level is told by
`Platform.Presides`: at the root it is the root trap, at the source the trap of the actor that lives
there, or of the one that raised the error if nobody does, and elsewhere that of the actor that
lives there. A level without a trap escalates.

Traps may remember what they were asked: they answer according to the application's state and change
it (`Code.judge`). So it matters that nobody is asked twice, or after the decision (`Stage.Passed`
goes from the state before some levels were asked to the state after that).

What is done then is `Flow.enact`. What its `Flow.restart` makes of the platform is
`Moment.restart_rebuilds`, and what its `Stage.terminate` removes is `Moment.subtree_removed`.

Headlines:
* **`Flow.supervise_resolves`**: every error comes to rest that way, wherever it was raised.
* `Flow.judge_resolves`: the same from any level on.
-/

namespace Troupe

/-! ## Levels -/

namespace Address

/-- The levels from an address up to the root, by `Address.parent`. -/
inductive Ascent : Address → List Address → Prop
  | root : Ascent .root [.root]
  | up {a : Address} {above : List Address} :
      a ≠ .root → Ascent a.parent above → Ascent a (a :: above)

variable {a b : Address} {levels below above : List Address}

theorem isRoot_iff : a.isRoot = true ↔ a = .root :=
  beq_iff_eq

/-- **Every address** rises to the root (`Address.ancestry`), the discard address in one step. -/
theorem ascent_ancestry (a : Address) : a.Ascent a.ancestry := by
  cases a with
  | discard => exact .up (by decide) .root
  | path p =>
    induction p with
    | root => exact .root
    | child p s ih => exact .up (by simp [root]) ih

theorem Ascent.eq_ancestry (h : a.Ascent levels) : levels = a.ancestry := by
  induction h with
  | root => rfl
  | @up a above hne _ ih =>
    rw [ih]
    match a with
    | discard => rfl
    | path .root => exact absurd rfl hne
    | path (.child p s) => rfl

/-- The levels above a level are fewer than those above the levels before it. -/
theorem Ascent.mem (h : a.Ascent levels) (hb : b ∈ levels) :
    ∃ above, b.Ascent above ∧ above.length ≤ levels.length := by
  induction h with
  | root =>
    obtain rfl := List.mem_singleton.mp hb
    exact ⟨_, .root, Nat.le_refl _⟩
  | up hne hup ih =>
    rcases List.mem_cons.mp hb with rfl | hb
    · exact ⟨_, .up hne hup, Nat.le_refl _⟩
    · obtain ⟨above, hab, hlen⟩ := ih hb
      exact ⟨above, hab, Nat.le_succ_of_le hlen⟩

/-- No level comes twice (`Address.Ascent`). -/
theorem Ascent.nodup (h : a.Ascent levels) : levels.Nodup := by
  induction h with
  | root => exact List.nodup_cons.mpr ⟨List.not_mem_nil, List.nodup_nil⟩
  | @up a above hne hup ih =>
    refine List.nodup_cons.mpr ⟨fun hmem => ?_, ih⟩
    obtain ⟨above', hab, hlen⟩ := hup.mem hmem
    have hself : above' = a :: above := hab.eq_ancestry.trans (Ascent.up hne hup).eq_ancestry.symm
    rw [hself, List.length_cons] at hlen
    exact absurd hlen (Nat.not_succ_le_self _)

end Address

variable {κ : App} {code : Code κ} {r : Raised κ} {p : Platform κ} {level : Address}

/-! ## Who has the say -/

/-- The trap that has the say about an error at a level (`Template.trap`), if there is one. -/
inductive Platform.Presides (p : Platform κ) (r : Raised κ) : Address → Option κ.Trap → Prop
  | root : Presides p r .root p.rootTrap
  | source {c : Context κ} : r.source ≠ .root → p.context? r.source = some c →
      Presides p r r.source c.template.trap
  /-- Nobody lives at the source any more. -/
  | gone : r.source ≠ .root → p.context? r.source = none →
      Presides p r r.source (r.template.bind Template.trap)
  | above {level : Address} : level ≠ .root → level ≠ r.source →
      Presides p r level ((p.context? level).bind fun c => c.template.trap)

theorem Platform.presides_trapAt (p : Platform κ) (r : Raised κ) (level : Address) :
    p.Presides r level (p.trapAt? r level) := by
  unfold trapAt? template?
  split
  · rename_i h
    rw [Address.isRoot_iff.mp h]
    exact .root
  · rename_i h
    rw [Address.isRoot_iff] at h
    split
    · rename_i hsource
      subst hsource
      cases hc : p.context? r.source with
      | none => exact .gone h hc
      | some c => exact .source h hc
    · rename_i hother
      have htrap : ((p.context? level).map Context.template).bind Template.trap =
          (p.context? level).bind fun c => c.template.trap := by
        cases p.context? level <;> rfl
      rw [htrap]
      exact .above h hother

/-- The traps of some levels are asked about an error, in order, and each lets it pass
(`Verdict.escalate`). -/
inductive Stage.Passed (code : Code κ) (p : Platform κ) (r : Raised κ) :
    List Address → κ.World → κ.World → Prop
  | nil (w : κ.World) : Passed code p r [] w w
  | untrapped {level : Address} {above : List Address} {w w' : κ.World} :
      p.Presides r level none → Passed code p r above w w' →
      Passed code p r (level :: above) w w'
  | escalated {level : Address} {above : List Address} {trap : κ.Trap} {w v w' : κ.World} :
      p.Presides r level (some trap) → code.judge trap r.error w = (.escalate, v) →
      Passed code p r above v w' → Passed code p r (level :: above) w w'

/-! ## What is done about an error -/

/-- An error passed a level (`EventKind.errorEscalated`). -/
def Raised.escalated (r : Raised κ) (level : Address) : Event :=
  { kind := .errorEscalated, address := some level, target := some level.parent
    source := some r.source, reason := some r.error.message }

/-- The stage after events were published (`Bus.publishAll`) and the application's state has
changed. -/
def Stage.heard (s : Stage κ) (es : List Event) (w : κ.World) : Stage κ :=
  ⟨{ s.platform with bus := s.platform.bus.publishAll es }, w, s.listener⟩

/-- What is done about an error when a level has said its verdict. Whoever lives at the source is
built anew (`Flow.restart`, see `Moment.restart_rebuilds`) or removed with those below
(`Stage.terminate`, see `Moment.subtree_removed`). If the error escalates from the root, that is the
end of the platform (`unhandled`), and the first error that does so is kept (`set_fatal`). -/
def Flow.enact (code : Code κ) (r : Raised κ) (level : Address) : Verdict → Flow κ Unit
  | .ignore => edit (·.publish
      { kind := .errorIgnored, address := some level, source := some r.source
        reason := some r.error.message })
  | .restart => restart code r
  | .stop => modify (Stage.terminate code r.source)
  | .escalate => edit fun p =>
      { p with
        bus := p.bus.publish { kind := .unhandledEscalation, source := some r.source
                               reason := some r.error.message }
        fatal := some (p.fatal.getD (.unhandledEscalation r.source r.error.message))
        stopped := true }

/-- What an error comes to that rises through some levels on a stage: what is done about it
(`Flow.enact`), and the stage on which that is done. -/
inductive Flow.Resolved (code : Code κ) (r : Raised κ) (s : Stage κ) :
    List Address → Flow κ Unit → Stage κ → Prop
  /-- A level decides. All below it let the error pass, and nobody above it is asked. -/
  | decided (below : List Address) {above : List Address} {level : Address} {trap : κ.Trap}
      {verdict : Verdict} {w w' : κ.World} : Stage.Passed code s.platform r below s.world w →
      s.platform.Presides r level (some trap) → code.judge trap r.error w = (verdict, w') →
      verdict ≠ .escalate → Resolved code r s (below ++ level :: above) (enact code r level verdict)
        (s.heard (below.map r.escalated) w')
  /-- Everybody lets the error pass, the root included. -/
  | unhandled (below : List Address) {w : κ.World} :
      Stage.Passed code s.platform r (below ++ [.root]) s.world w →
      Resolved code r s (below ++ [.root]) (enact code r .root .escalate)
        (s.heard (below.map r.escalated) w)

/-! ## Every error comes to rest -/

theorem Platform.Presides.of_bus {bus : Bus} {trap : Option κ.Trap}
    (h : Presides { p with bus } r level trap) : p.Presides r level trap := by
  cases h with
  | root => exact .root
  | source hne hc => exact .source hne hc
  | gone hne hc => exact .gone hne hc
  | above hne hother => exact .above hne hother

theorem Stage.Passed.of_bus {bus : Bus} {levels : List Address} {w w' : κ.World}
    (h : Passed code { p with bus } r levels w w') : Passed code p r levels w w' := by
  induction h with
  | nil w => exact .nil w
  | untrapped hnone _ ih => exact .untrapped hnone.of_bus ih
  | escalated htrap hjudge _ ih => exact .escalated htrap.of_bus hjudge ih

namespace Flow

variable {s : Stage κ} {above : List Address} {f : Flow κ Unit} {t : Stage κ} {v : κ.World}

/-- A level lets an error pass (`Raised.escalated`), and the levels above it have it from there. -/
theorem Resolved.rise
    (hpass : ∀ {levels : List Address} {w : κ.World},
      Stage.Passed code s.platform r levels v w →
        Stage.Passed code s.platform r (level :: levels) s.world w)
    (h : Resolved code r (s.heard [r.escalated level] v) above f t) :
    Resolved code r s (level :: above) f t := by
  cases h with
  | @decided below above l trap verdict w w' hbelow htrap hjudge hverdict =>
    exact .decided (level :: below) (hpass hbelow.of_bus) htrap.of_bus hjudge hverdict
  | @unhandled below w hall => exact .unhandled (level :: below) (hpass hall.of_bus)

/-- What `Flow.supervise` has left to do when an error was judged. -/
def afterJudging (code : Code κ) (r : Raised κ) : Decision → Flow κ Unit
  | .ignored => pure ()
  | .restart => restart code r
  | .stop => modify (Stage.terminate code r.source)
  | .unhandled => edit fun p =>
      (p.publish { kind := .unhandledEscalation, source := some r.source
                   reason := some r.error.message }).fail
        (.unhandledEscalation r.source r.error.message)

theorem supervise_eq (code : Code κ) (r : Raised κ) :
    supervise code r = onStage (Stage.judge code r r.source.ancestry) >>= afterJudging code r := by
  unfold supervise
  refine congrArg _ (funext fun d => ?_)
  cases d <;> rfl

/-- What is said about an error at a level, and the application's state after that (`Code.judge`).
-/
def said (code : Code κ) (p : Platform κ) (r : Raised κ) (level : Address) (w : κ.World) :
    Verdict × κ.World :=
  match p.trapAt? r level with
  | some trap => code.judge trap r.error w
  | none => (.escalate, w)

/-- Either the level lets the error pass (`Stage.Passed`), or it has a trap that decides. -/
theorem said_cases (code : Code κ) (p : Platform κ) (r : Raised κ) (level : Address)
    (w : κ.World) :
    ((said code p r level w).1 = .escalate ∧ ∀ {levels : List Address} {w' : κ.World},
      Stage.Passed code p r levels (said code p r level w).2 w' →
        Stage.Passed code p r (level :: levels) w w') ∨
    ((said code p r level w).1 ≠ .escalate ∧ ∃ trap, p.Presides r level (some trap) ∧
      code.judge trap r.error w = said code p r level w) := by
  have hsay := p.presides_trapAt r level
  unfold said
  cases htrap : p.trapAt? r level with
  | none =>
    rw [htrap] at hsay
    exact Or.inl ⟨rfl, fun h => .untrapped hsay h⟩
  | some trap =>
    rw [htrap] at hsay
    by_cases hpass : (code.judge trap r.error w).1 = .escalate
    · exact Or.inl ⟨hpass, fun h => .escalated hsay (Prod.ext hpass rfl) h⟩
    · exact Or.inr ⟨hpass, trap, hsay, rfl⟩

theorem judge_cons (code : Code κ) (r : Raised κ) (level : Address) (above : List Address)
    (s : Stage κ) : Stage.judge code r (level :: above) s =
      match (said code s.platform r level s.world).1 with
      | .restart => (.restart, s.heard [] (said code s.platform r level s.world).2)
      | .stop => (.stop, s.heard [] (said code s.platform r level s.world).2)
      | .ignore => (.ignored, s.heard
          [{ kind := .errorIgnored, address := some level, source := some r.source
             reason := some r.error.message }] (said code s.platform r level s.world).2)
      | .escalate =>
        if level.isRoot then (.unhandled, s.heard [] (said code s.platform r level s.world).2)
        else Stage.judge code r above
          (s.heard [r.escalated level] (said code s.platform r level s.world).2) := by
  rfl

/-- A level decides (`Flow.enact`), whatever is above it. -/
theorem judge_decides {s : Stage κ} {level : Address} {trap : κ.Trap}
    (hsay : s.platform.Presides r level (some trap))
    (hjudge : code.judge trap r.error s.world = said code s.platform r level s.world)
    (hverdict : (said code s.platform r level s.world).1 ≠ .escalate) (above : List Address) :
    ∃ f t, Resolved code r s (level :: above) f t ∧ ∀ n,
      perform (body code) n (afterJudging code r (Stage.judge code r (level :: above) s).1)
        (Stage.judge code r (level :: above) s).2 = perform (body code) n f t := by
  rw [judge_cons]
  generalize said code s.platform r level s.world = x at hjudge hverdict
  obtain ⟨verdict, w⟩ := x
  refine ⟨_, _, .decided [] (.nil _) hsay hjudge hverdict, fun n => ?_⟩
  cases verdict with
  | escalate => exact absurd rfl hverdict
  | ignore => rfl
  | restart => rfl
  | stop => rfl

/-- **Judging** goes up the levels until one decides (`Stage.judge`). -/
theorem judge_resolves (code : Code κ) (r : Raised κ) {a : Address} {levels : List Address}
    (h : a.Ascent levels) (s : Stage κ) :
    ∃ f t, Resolved code r s levels f t ∧ ∀ n,
      perform (body code) n (afterJudging code r (Stage.judge code r levels s).1)
        (Stage.judge code r levels s).2 = perform (body code) n f t := by
  induction h generalizing s with
  | root =>
    rcases said_cases code s.platform r .root s.world with
      ⟨hpass, hpassed⟩ | ⟨hverdict, trap, hsay, hjudge⟩
    · refine ⟨_, _, .unhandled [] (hpassed (.nil _)), fun n => ?_⟩
      rw [judge_cons, hpass]
      rfl
    · exact judge_decides hsay hjudge hverdict []
  | @up a above hne hup ih =>
    rcases said_cases code s.platform r a s.world with
      ⟨hpass, hpassed⟩ | ⟨hverdict, trap, hsay, hjudge⟩
    · obtain ⟨f, t, hresolved, hperform⟩ :=
        ih (s.heard [r.escalated a] (said code s.platform r a s.world).2)
      refine ⟨f, t, hresolved.rise hpassed, fun n => ?_⟩
      rw [judge_cons, hpass]
      dsimp only
      rw [if_neg (mt Address.isRoot_iff.mp hne)]
      exact hperform n
    · exact judge_decides hsay hjudge hverdict above

/-- **Every error comes to rest.** It rises from its source through distinct levels up to the root,
until one decides, and what is done then is what that level says: the error is ignored and told of,
or its source is restarted (as `Moment.restart_rebuilds` says) or removed (as
`Moment.subtree_removed` says), or the platform stops. -/
theorem supervise_resolves (code : Code κ) (r : Raised κ) (s : Stage κ) :
    ∃ levels f t, r.source.Ascent levels ∧ levels.Nodup ∧ Resolved code r s levels f t ∧
      ∀ n, perform (body code) n (supervise code r) s = perform (body code) n f t := by
  have hlevels := r.source.ascent_ancestry
  obtain ⟨f, t, hresolved, hperform⟩ := judge_resolves code r hlevels s
  refine ⟨_, f, t, hlevels, hlevels.nodup, hresolved, fun n => ?_⟩
  rw [supervise_eq]
  exact hperform n

end Flow

end Troupe
