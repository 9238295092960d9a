import Troupe.Proofs.Guarantee.Traps
import Troupe.Proofs.Moments

/-!
# Whose trap is asked first

An error waits for its verdict with the template of whoever lived at its source when it was queued
(`Platform.raiseAt`, the source's `queue_raise`; `Platform.Raises`). When it is judged
(`Flow.supervise`), the first level that it comes to is its source, and whoever lives there by then
has the say, or else the template that came with the error (`Platform.trapAt?`, `Flow.AsksFirst`).

So the trap of the incarnation that raised the error is the first to be asked, if that incarnation
was there when the error was queued and nobody has come after it: it may have gone since. But where
code removes its own actor and errs after that, the error is queued without a template, and nobody
is asked before the parent. `Quitting.code` is an application whose actors come to that, in whatever
hook or script they do it (`Quitting.Spot`, `Quitting.quitter_passed`).

Headlines:
* **`Platform.Outer.raises`**: how errors come to wait, and with which template.
* **`Moment.raiser_asked_first`**: whose trap is the first to be asked about an error.
-/

namespace Troupe

open Platform Troupe.Flow

variable {κ : App}

namespace Platform

variable {p q u : Platform κ} {a : Address} {V : Event → Prop}

/-! ## What waits for a verdict -/

/-- On the way from `p` to `q` the oldest errors were taken off the queue, and others were put to
its end, each with the template of whoever lived at its source when it was. -/
def Raises (V : Event → Prop) (p q : Platform κ) : Prop :=
  ∃ n new, q.raised = p.raised.drop n ++ new ∧
    ∀ r ∈ new, ∃ u, Outer V p u ∧ Outer V u q ∧ r.template = u.template? r.source

theorem Raises.of_eq (h : q.raised = p.raised) : Raises V p q :=
  ⟨0, [], by simp [h], fun r hr => absurd hr List.not_mem_nil⟩

theorem Raises.trans {r : Platform κ} (h : Raises V p q) (h' : Raises V q r) (hpq : Outer V p q)
    (hqr : Outer V q r) : Raises V p r := by
  obtain ⟨n, new, hq, hnew⟩ := h
  obtain ⟨n', new', hr, hnew'⟩ := h'
  refine ⟨n + n', new.drop (n' - (p.raised.drop n).length) ++ new', ?_, fun x hx => ?_⟩
  · rw [hr, hq, List.drop_append, List.drop_drop, List.append_assoc]
  · rcases List.mem_append.mp hx with hx | hx
    · obtain ⟨u, hpu, huq, ht⟩ := hnew x (List.mem_of_mem_drop hx)
      exact ⟨u, hpu, huq.trans hqr, ht⟩
    · obtain ⟨u, hqu, hur, ht⟩ := hnew' x hx
      exact ⟨u, hpq.trans hqu, hur, ht⟩

theorem raised_raiseAt (p : Platform κ) (a : Address) (e : ActorError) :
    (p.raiseAt a e).raised = p.raised ++ [⟨a, e, p.template? a⟩] := rfl

theorem raised_scheduleMail (p : Platform κ) (a : Address) :
    (p.scheduleMail a).raised = p.raised := by
  obtain ⟨_, _, _, _, hq⟩ := scheduleMail_eq p a
  rw [hq]

theorem raised_enqueue (p : Platform κ) (a : Address) : (p.enqueue a).raised = p.raised := by
  obtain ⟨_, _, _, hq⟩ := enqueue_eq p a
  rw [hq]

/-- A step (`Platform.Step`) queues an error or leaves the queue alone. -/
theorem Step.raises (h : Step p q) : Raises V p q := by
  cases h with
  | publish | fail | stop | reroute | enrol | register => exact .of_eq rfl
  | raise a e =>
    refine ⟨0, _, rfl, fun r hr => ?_⟩
    obtain rfl := List.mem_singleton.mp hr
    exact ⟨p, .refl p, (Step.raise a e).nested.rounds.outer, rfl⟩
  | join group a =>
    obtain ⟨_, _, hq, -⟩ := putMember_eq p group a
    exact .of_eq (by rw [hq])
  | @dismiss a _ =>
    obtain ⟨_, _, hq, -⟩ := dismiss_eq p a
    exact .of_eq (by rw [hq])
  | mail a | arm a | look a => exact .of_eq (raised_scheduleMail _ a)
  | takeMatch h =>
    obtain ⟨_, _, _, _, _, _, _, _, _, rfl⟩ := takeMatch_eq h
    exact .of_eq rfl
  | takeMail | backlog | returnActor => exact .of_eq rfl
  | @returnMachine m _ _ => exact .of_eq (raised_enqueue _ m.address)

theorem Change.raises (h : Change V p q) : Raises V p q := by
  cases h with
  | step h => exact h.raises
  | loan h => cases h <;> exact .of_eq rfl
  | announce h =>
    cases h
    exact .of_eq rfl

/-- Turning (`Platform.Turning`) takes the oldest error off the queue or leaves the queue alone. -/
theorem Turning.raises (h : Turning p q) : Raises V p q := by
  cases h with
  | judge hraised =>
    refine ⟨1, [], ?_, fun r hr => absurd hr List.not_mem_nil⟩
    rw [hraised]
    exact (List.append_nil _).symm
  | skip h =>
    obtain ⟨_, _, _, ⟨-, rfl⟩ | ⟨-, rfl⟩⟩ := turn_skipped h <;> exact .of_eq rfl
  | begin _ h =>
    obtain ⟨_, _, _, _, _, rfl⟩ := turn_slot h
    exact .of_eq rfl
  | @finish a _ =>
    obtain ⟨_, _, _, hq⟩ := endTurn_eq p a
    exact .of_eq (by rw [hq])
  | @schedule a g w _ =>
    obtain ⟨_, _, _, hq⟩ := schedule_eq p a g (.script w)
    exact .of_eq (by rw [hq])
  | part group a =>
    obtain ⟨_, hq⟩ := removeMember_eq p group a
    exact .of_eq (by rw [hq])
  | hear => exact .of_eq rfl

theorem Rounds.raises (h : Rounds V p q) : Raises V p q := by
  induction h with
  | refl => exact .of_eq rfl
  | tail hpq h ih =>
    have hstep : Rounds V _ _ := .single h
    exact ih.trans (h.elim Change.raises Turning.raises) (Rounds.outer hpq) hstep.outer

/-- **All work** (`Platform.Outer`) only takes errors off the queue at its front and puts them to
its end. -/
theorem Outer.raises (h : Outer V p q) : Raises V p q := by
  induction h with
  | refl => exact .of_eq rfl
  | tail hpq h ih =>
    refine ih.trans ?_ hpq (.single h)
    rcases h with h | h
    · exact h.raises
    · obtain ⟨_, _, _, _, _, _, rfl⟩ := h.eq
      exact .of_eq rfl

/-- Who lived before and lives afterwards lived in between, with the same template
(`Context.template`). -/
theorem TableInv.template?_between {c : Context κ} (hp : p.TableInv)
    (hc : p.context? a = some c) (hpu : Outer V p u) (huq : Outer V u q)
    (hq : q.isCurrent a c.generation = true) : u.template? a = some c.template := by
  have hgeneration : c.generation < p.nextGeneration := hp.fresh a c hc
  obtain ⟨d, hd, hdc⟩ := isCurrent_iff.mp hq
  have hid : q.identity? a = some d.identity := identity?_eq_some.mpr ⟨d, hd, rfl⟩
  have hold : d.identity.generation < p.nextGeneration := hdc.trans_lt hgeneration
  have hu : u.identity? a = some d.identity :=
    huq.later.old a _ hid (Nat.lt_of_lt_of_le hold hpu.later.next)
  have hp : p.identity? a = some d.identity := hpu.later.old a _ hu hold
  obtain ⟨x, hx, hxd⟩ := identity?_eq_some.mp hu
  obtain ⟨y, hy, hyd⟩ := identity?_eq_some.mp hp
  obtain rfl : y = c := Option.some.inj (hy.symm.trans hc)
  have htemplate : x.template = y.template := congrArg Identity.template (hxd.trans hyd.symm)
  unfold template?
  rw [hx]
  exact congrArg some htemplate

/-- Who has the say at a level (`Platform.Presides`) is what `Platform.trapAt?` looks up. -/
theorem presides_iff {r : Raised κ} {level : Address} {trap : Option κ.Trap} :
    p.Presides r level trap ↔ p.trapAt? r level = trap := by
  constructor
  · intro h
    unfold trapAt? template?
    cases h with
    | root => exact if_pos rfl
    | source hne hc | gone hne hc =>
      rw [if_neg (mt Address.isRoot_iff.mp hne), if_pos rfl, hc]
      rfl
    | above hne hother =>
      rw [if_neg (mt Address.isRoot_iff.mp hne), if_neg hother]
      cases p.context? level <;> rfl
  · rintro rfl
    exact p.presides_trapAt r level

end Platform

/-! ## The first trap -/

section

variable {code : Code κ} {s : Stage κ} {r : Raised κ} {t : Template κ}

/-- When the error is judged on the stage (`Flow.supervise`), the first level that it comes to is
its source, and this trap has the say there, if it is one. -/
structure Flow.AsksFirst (code : Code κ) (s : Stage κ) (r : Raised κ) (trap : Option κ.Trap) :
    Prop where
  rises : ∃ above f t, r.source.Ascent (r.source :: above) ∧
    Resolved code r s (r.source :: above) f t ∧
      ∀ n, perform (body code) n (supervise code r) s = perform (body code) n f t
  presides : ∀ other, s.platform.Presides r r.source other ↔ other = trap

theorem Flow.asksFirst_of_presides {trap : Option κ.Trap} (hne : r.source ≠ .root)
    (h : s.platform.Presides r r.source trap) : AsksFirst code s r trap := by
  refine ⟨?_, fun other => presides_iff.trans ?_⟩
  · obtain ⟨levels, f, t, hlevels, -, hresolved, hperform⟩ := supervise_resolves code r s
    have hsource : ∃ above, levels = r.source :: above := by
      generalize r.source = a at hlevels hne
      cases hlevels with
      | root => exact absurd rfl hne
      | up => exact ⟨_, rfl⟩
    obtain ⟨above, rfl⟩ := hsource
    exact ⟨above, f, t, hlevels, hresolved, hperform⟩
  · rw [presides_iff.mp h]
    exact eq_comm

/-- Whoever lives at the source by the time of judging is asked first (`Flow.AsksFirst`), or else
the one whose template goes with the error, if there is one. -/
theorem Flow.asksFirst (code : Code κ) (s : Stage κ) (r : Raised κ) (hne : r.source ≠ .root) :
    (s.platform.context? r.source = none → AsksFirst code s r (r.template.bind Template.trap)) ∧
    ∀ d, s.platform.context? r.source = some d → AsksFirst code s r d.template.trap :=
  ⟨fun hnone => asksFirst_of_presides hne (.gone hne hnone),
    fun _ hd => asksFirst_of_presides hne (.source hne hd)⟩

namespace Moment

variable {x y z : Moment κ} {a : Address} {c : Context κ}

/-- **Whose trap is asked first** (`Flow.AsksFirst`) about an error whose source is an incarnation
that has lived: if it was still there when the error was queued, then its own, as long as it is
there or nobody has come after it; if it had gone by then, nobody's. Once somebody else lives at the
address, that one's trap is asked. -/
theorem raiser_asked_first (h : Reach code x) (hc : x.stage.platform.context? a = some c)
    (hy : Later code x y) (hz : Later code y z) :
    (∃ n new, y.stage.platform.raised = x.stage.platform.raised.drop n ++ new ∧
      ∀ r ∈ new, r.source = a → y.stage.platform.isCurrent a c.generation = true →
        r.template = some c.template ∧
        (z.stage.platform.isCurrent a c.generation = true ∨ z.stage.platform.context? a = none →
          AsksFirst code z.stage r c.template.trap) ∧
        ∀ d, z.stage.platform.context? a = some d → AsksFirst code z.stage r d.template.trap) ∧
    (y.stage.platform.context? a = none → ∀ e,
      (y.stage.platform.raiseAt a e).raised = y.stage.platform.raised ++ [⟨a, e, none⟩] ∧
        (z.stage.platform.context? a = none → AsksFirst code z.stage ⟨a, e, none⟩ none) ∧
        ∀ d, z.stage.platform.context? a = some d →
          AsksFirst code z.stage ⟨a, e, none⟩ d.template.trap) := by
  have htable : x.stage.platform.TableInv := h.ok.inv.table
  have hne : a ≠ .root := (htable.placed a c hc).1
  obtain ⟨hoky, hxy⟩ := hy.ok h.ok
  obtain ⟨-, hyz⟩ := hz.ok hoky
  refine ⟨?_, fun hgone e => ⟨?_, Flow.asksFirst code z.stage ⟨a, e, none⟩ hne⟩⟩
  · obtain ⟨n, new, hraised, hnew⟩ := hxy.raises
    refine ⟨n, new, hraised, ?_⟩
    rintro r hr rfl hcurrent
    obtain ⟨u, hxu, huy, htemplate⟩ := hnew r hr
    rw [htable.template?_between hc hxu huy hcurrent] at htemplate
    obtain ⟨hnobody, hsomebody⟩ := Flow.asksFirst code z.stage r hne
    refine ⟨htemplate, ?_, hsomebody⟩
    rintro (hstill | hnone)
    · obtain ⟨d, hd, hdc⟩ := isCurrent_iff.mp hstill
      have hsame : z.stage.platform.template? r.source = some c.template :=
        htable.template?_between hc (hxy.trans hyz) (.refl _) hstill
      unfold template? at hsame
      rw [hd] at hsame
      have htrap : d.template.trap = c.template.trap := congrArg _ (Option.some.inj hsame)
      exact htrap ▸ hsomebody d hd
    · rw [htemplate] at hnobody
      exact hnobody hnone
  · rw [raised_raiseAt]
    unfold template?
    rw [hgone]
    rfl

/-- Somebody raises an error from outside (`Platform.raiseAt`). -/
theorem Later.raise (code : Code κ) (s : Stage κ) (a : Address) (e : ActorError) :
    ∃ f : Flow κ Unit, Later code (between s) (amid f (s.edit (·.raiseAt a e))) := by
  have hraise : ∃ f, Advances (body code) (Operation.raise a e, s) (f, s.edit (·.raiseAt a e)) :=
    ⟨_, .head .get (.single .set)⟩
  obtain ⟨f, hraise⟩ := hraise
  exact ⟨f, .head (.begin (.raise a e)) (Later.advances hraise)⟩

/-- An error is raised on an actor with a trap, and that trap is asked first. -/
theorem raiser_allocated : ∃ (s t : Stage App.sample) (f : Flow App.sample Unit)
    (c : Context App.sample) (r : Raised App.sample),
    Reach Code.sample (between s) ∧ s.platform.context? .sample = some c ∧
      Later Code.sample (between s) (amid f t) ∧ t.platform.raised = [r] ∧
      r.template = some c.template ∧ AsksFirst Code.sample t r (some ()) := by
  let template : Template App.sample := .mk (some "a") () [] (some ()) [] []
  let s := (Stage.allocate Code.sample .root template sample).2
  let r : Raised App.sample := ⟨.sample, .application "e", some template⟩
  have hallocated : Reach Code.sample (between s) := reach_sample.perform 0 (.allocate .root _) rfl
  obtain ⟨f, hraise⟩ := Later.raise Code.sample s r.source r.error
  obtain ⟨⟨n, new, hraised, hnew⟩, -⟩ :=
    raiser_asked_first hallocated (a := .sample) (c := _) rfl hraise .refl
  have hnone : (between s).stage.platform.raised = [] := rfl
  rw [hnone, List.drop_nil, List.nil_append] at hraised
  obtain rfl : [r] = new := hraised
  obtain ⟨htemplate, hfirst, -⟩ := hnew r (List.mem_singleton_self r) rfl rfl
  exact ⟨s, _, f, _, r, hallocated, rfl, hraise, rfl, htemplate, hfirst (Or.inl rfl)⟩

end Moment

end

/-! ## Raisers that are passed over -/

namespace Quitting

/-- Where an actor's code errs: in a hook (`Hook`), in a script that it runs, or by a request
(`Request.raise`). -/
inductive Spot
  /-- When the actor is started. -/
  | run
  /-- When it takes a message in its own hands. -/
  | accept
  /-- When it is handed a message from its mailbox. -/
  | receive
  /-- In a function that a script calls. -/
  | foreign
  /-- In the middle of a hook that ends well. -/
  | request

/-- An application that notes whose trap is asked: `true` stands for the actor's. -/
def app : App where
  Factory := Unit
  Actor := Unit
  Trap := Bool
  Foreign := Unit
  Task := Unit
  World := List Bool

def error : ActorError :=
  .application "e"

/-- Removes the actor that it runs for (`Request.exit`), if it is to. -/
def leave (gone : Bool) : Act app Unit :=
  if gone then .ask .exit .done else .done ()

def script : Script app where
  functions := [⟨"f", 0, .foreign ()⟩]
  code := [.pushFun 0, .call 0]

def behaviour : Spot → Behaviour
  | .receive => .immutable (.any "message")
  | _ => .direct

def hook (gone : Bool) : Spot → Hook → Act app (Except ActorError Unit)
  | .run, .run | .accept, .accept _ | .receive, .receive _ _ =>
    (leave gone).bind fun _ => .done (.error error)
  | .foreign, .accept _ => .ask (.exec script) fun _ => .done (.ok ())
  | .request, .accept _ =>
    (leave gone).bind fun _ => .ask (.raise error) fun _ => .done (.ok ())
  | _, _ => .done (.ok ())

/-- Actors err at one `Spot`, after they have gone or not (`leave`). -/
def code (gone : Bool) (spot : Spot) : Code app where
  freshId w := ("fresh", w)
  build _ _ w := ((), w)
  init _ w := (behaviour spot, w)
  stop _ w := w
  judge trap _ w := (.ignore, List.append w [trap])
  hook _ occasion _ := hook gone spot occasion
  foreign _ _ _ := (leave gone).bind fun _ => .done (.error error)
  poll _ w := (.ready (.ok none), w)

def template : Template app :=
  .mk (some "a") () [] (some true) [] []

/-- The platform on which operations are tried; its own trap is asked when nobody else decides. -/
def sample : Stage app :=
  .new {} (some false) [] []

theorem reach_sample (gone : Bool) (spot : Spot) :
    Moment.Reach (code gone spot) (.between sample) :=
  ⟨{}, some false, [], [], .refl⟩

/-- Whose trap is asked when the actor is spawned and told something, as noted by `code`. -/
def asked (gone : Bool) (spot : Spot) : Option (List Bool) :=
  (perform (body (code gone spot)) 20 (Operation.spawn (code gone spot) template) sample).bind
    fun x => (perform (body (code gone spot)) 20 (Operation.tell .sample .null) x.2).map
      fun y => y.2.world

/-- At a moment that is reached these traps have been asked (`asked`). -/
def Asked (gone : Bool) (spot : Spot) (traps : List Bool) : Prop :=
  ∃ s, Moment.Reach (code gone spot) (.between s) ∧ s.world = traps

theorem asked_of_eq {gone : Bool} {spot : Spot} {traps : List Bool}
    (h : asked gone spot = some traps) : Asked gone spot traps := by
  obtain ⟨⟨_, s⟩, hs, h⟩ := Option.bind_eq_some_iff.mp h
  obtain ⟨⟨sent, t⟩, ht, rfl⟩ := Option.map_eq_some_iff.mp h
  have hspawned := (reach_sample gone spot).perform 20 (.spawn template) hs
  exact ⟨t, hspawned.perform 20 (.tell .sample .null) ht, rfl⟩

/-- The trap of an actor that errs at the spot is asked, and decides; but if the actor has removed
itself before, its trap is not asked (`leave`), and the platform's is. -/
def Passes (spot : Spot) : Prop :=
  Asked false spot [true] ∧ Asked true spot [false]

theorem passes (spot : Spot) : Passes spot := by
  cases spot <;> exact ⟨asked_of_eq (by decide +kernel), asked_of_eq (by decide +kernel)⟩

/-- **Raisers are passed over** once they have gone, wherever their code errs (`Spot`). -/
theorem quitter_passed :
    Passes .run ∧ Passes .accept ∧ Passes .receive ∧ Passes .foreign ∧ Passes .request :=
  ⟨passes .run, passes .accept, passes .receive, passes .foreign, passes .request⟩

end Quitting

end Troupe
