import Troupe.Proofs.Moments
import Troupe.Proofs.Watch.Ledger

/-!
# What becomes of a message that is sent

A send calls other activities: the receiver takes the message in its own hands, slots run. What the
send does itself (`Flow.deliver`, `Flow.transfer`, `Flow.route`; the source's `deliver`, `transfer`,
`route_message`) is what is left when these calls are left out (`Flow.own`). `Dispatch` says what it
comes to, from the platform as it is when the message is sent: what the bus is told, where the
message is put, and what is answered.

A dispatch exists for every message (`Dispatch.exists_of`) and is unique (`Dispatch.unique`), and
the flow that sends the message settles it (`Flow.Settles`): it publishes these events, puts the
message into that place and nowhere else, and answers that (`Dispatch.settles_route`).

What was put into which place is read off the changes that the flow makes itself (`Flow.Does`), with
`Flow.published` for the bus and `Flow.placed` for the place. Delivering is one such list of changes
(`Does.deliverAt`); being transferred comes before it, and being dropped is left to the caller
(`Flow.dropUnless`, `Flow.drained`).

Headline:
* **`Operation.sent_once`**: every send comes to exactly one of these.
-/

namespace Troupe

open Platform Troupe.Flow

variable {κ : App} {α β : Type}

/-! ## What a flow does itself -/

namespace Flow

variable {answer : (c : Call κ) → Stage κ → Option (c.Answer × Stage κ)} {s : Stage κ}

/-- The changes of the stage that a flow makes itself, in order, given what its calls come to
(`Call.Answer`). What they change is left out. -/
def own (answer : (c : Call κ) → Stage κ → Option (c.Answer × Stage κ)) :
    Flow κ α → Stage κ → List (Stage κ × Stage κ)
  | done _, _ => []
  | get next, s => own answer (next s) s
  | set t next, s => (s, t) :: own answer next t
  | call c next, s =>
    match answer c s with
    | some (x, t) => own answer (next x) t
    | none => []

/-- A flow makes these changes itself and comes to `x`: it comes to nothing else, and it comes to
something if its calls do. -/
structure Does (answer : (c : Call κ) → Stage κ → Option (c.Answer × Stage κ)) (f : Flow κ α)
    (s : Stage κ) (changes : List (Stage κ × Stage κ)) (x : α) : Prop where
  itself : own answer f s = changes
  result : ∀ y t, performWith answer f s = some (y, t) → y = x
  returns : (∀ c s, (answer c s).isSome) → (performWith answer f s).isSome

theorem Does.pure (x : α) : Does answer (pure x) s [] x :=
  ⟨rfl, fun _ _ h => (Prod.mk.inj (Option.some.inj h)).1.symm, fun _ => rfl⟩

variable {k : α → Flow κ β} {changes : List (Stage κ × Stage κ)} {x : β}

theorem Does.ask {f : Platform κ → α} (h : Does answer (k (f s.platform)) s changes x) :
    Does answer (ask f >>= k) s changes x :=
  ⟨h.itself, h.result, h.returns⟩

theorem Does.edit {f : Platform κ → Platform κ} {k : Unit → Flow κ β}
    (h : Does answer (k ()) (s.edit f) changes x) :
    Does answer (edit f >>= k) s ((s, s.edit f) :: changes) x :=
  ⟨congrArg _ h.itself, h.result, h.returns⟩

/-- After a call (`Flow.invoke`), nothing more is done. -/
theorem Does.invoke {c : Call κ} {k : c.Answer → Flow κ β}
    (h : ∀ y t, Does answer (k y) t [] x) : Does answer (invoke c >>= k) s [] x := by
  show Does answer (.call c k) s [] x
  refine ⟨?_, fun y t hy => ?_, fun hall => ?_⟩
  · rw [own]
    split
    · exact (h _ _).itself
    · rfl
  · rw [performWith] at hy
    split at hy
    · exact (h _ _).result y t hy
    · exact absurd hy (by simp)
  · rw [performWith]
    obtain ⟨⟨y, t⟩, hy⟩ := Option.isSome_iff_exists.mp (hall c s)
    rw [hy]
    exact (h y t).returns hall

theorem chain_assoc {γ : Type} (f : Flow κ α) (g : α → Flow κ β) (k : β → Flow κ γ) :
    f >>= g >>= k = f >>= fun x => g x >>= k :=
  bind_bind f g k

/-- What was published in the course of some changes (`Bus.since`). -/
def published (changes : List (Stage κ × Stage κ)) : List Event :=
  changes.flatMap fun x => x.1.platform.bus.since x.2.platform.bus

/-- What was put somewhere for an incarnation in the course of some changes (`came`). -/
def placed (a : Address) (g : Nat) (w : Way) (changes : List (Stage κ × Stage κ)) : List Envelope :=
  changes.flatMap fun x => came a g x.1 x.2 w

theorem published_cons (s t : Stage κ) (changes : List (Stage κ × Stage κ)) :
    published ((s, t) :: changes) = s.platform.bus.since t.platform.bus ++ published changes :=
  rfl

theorem placed_cons (a : Address) (g : Nat) (w : Way) (s t : Stage κ)
    (changes : List (Stage κ × Stage κ)) :
    placed a g w ((s, t) :: changes) = came a g s t w ++ placed a g w changes := rfl

end Flow

/-! ## What becomes of a message -/

/-- A message was transferred to a router (`Event.withEnvelope`). -/
def Event.transferred (router : Address) (env : Envelope) : Event :=
  .withEnvelope (.about .messageTransferred router) env

/-- The router that is responsible for an address (`Platform.router?`): that of the nearest route at
or above it, where routes do not count whose router is the address itself or lives above it. -/
def Platform.Responsible (p : Platform κ) (target router : Address) : Prop :=
  ∃ nearer level further, target.ancestry = nearer ++ level :: further ∧
    p.routes.get? level = some router ∧ router ≠ target ∧ target.isBelow router = false ∧
    ∀ l ∈ nearer, ∀ r, p.routes.get? l = some r → r = target ∨ target.isBelow r = true

/-- What a message comes to when it is sent: what the bus is told, for which incarnation it is put
where (`Way`), and whether it counts as taken. -/
inductive Dispatch (p : Platform κ) (env : Envelope) :
    List Event → Option (Address × Nat × Way) → Bool → Prop
  | absorbed : env.target = .discard → Dispatch p env [] none true
  | rerouted {r : Address} {c : Context κ} : env.target ≠ .discard → p.Responsible env.target r →
      p.context? r = some c → Dispatch p env [.transferred r env, .accepted r env]
        (some (r, c.generation, c.way r env)) true
  /-- The router is gone. -/
  | lost {r : Address} : env.target ≠ .discard → p.Responsible env.target r →
      p.context? r = none → Dispatch p env [.transferred r env, .dropped env] none true
  | taken {c : Context κ} : env.target ≠ .discard → (∀ r, ¬ p.Responsible env.target r) →
      p.context? env.target = some c → Dispatch p env [.accepted env.target env]
        (some (env.target, c.generation, c.way env.target env)) true
  | refused : env.target ≠ .discard → (∀ r, ¬ p.Responsible env.target r) →
      p.context? env.target = none → Dispatch p env [.dropped env] none false

theorem Platform.router?_eq_some {p : Platform κ} {target r : Address} :
    p.router? target = some r ↔ p.Responsible target r := by
  have hvain (x : Address) : (x != target && !target.isBelow x) = true ↔
      x ≠ target ∧ target.isBelow x = false := by
    rw [Bool.and_eq_true, bne_iff_ne, Bool.not_eq_true']
  unfold router? Responsible
  rw [List.find?_filterMap, Option.bind_eq_some_iff]
  constructor
  · rintro ⟨level, hfind, hr⟩
    obtain ⟨hlevel, nearer, further, hsplit, hnearer⟩ := List.find?_eq_some_iff_append.mp hfind
    rw [hr, Option.any_some, hvain] at hlevel
    refine ⟨nearer, level, further, hsplit, hr, hlevel.1, hlevel.2, fun l hl x hx => ?_⟩
    have hl' := hnearer l hl
    rw [hx, Option.any_some, Bool.not_eq_true', ← Bool.not_eq_true, hvain] at hl'
    by_cases hxt : x = target
    · exact Or.inl hxt
    · exact Or.inr (Bool.not_eq_false _ ▸ fun hbelow => hl' ⟨hxt, hbelow⟩)
  · rintro ⟨nearer, level, further, hsplit, hr, hne, hbelow, hnearer⟩
    refine ⟨level, List.find?_eq_some_iff_append.mpr
      ⟨?_, nearer, further, hsplit, fun l hl => ?_⟩, hr⟩
    · rw [hr, Option.any_some]
      exact (hvain r).mpr ⟨hne, hbelow⟩
    · cases hx : p.routes.get? l with
      | none => rfl
      | some x =>
        rw [Option.any_some, Bool.not_eq_true', ← Bool.not_eq_true, hvain]
        rintro ⟨hxt, hxb⟩
        rcases hnearer l hl x hx with h | h
        · exact hxt h
        · exact absurd (hxb.symm.trans h) (by simp)

namespace Dispatch

variable {p : Platform κ} {env : Envelope} {events events' : List Event}
  {place place' : Option (Address × Nat × Way)} {taken taken' : Bool}

theorem exists_of (p : Platform κ) (env : Envelope) :
    ∃ events place taken, Dispatch p env events place taken := by
  by_cases hdiscard : env.target = .discard
  · exact ⟨_, _, _, .absorbed hdiscard⟩
  · cases hrouter : p.router? env.target with
    | some r =>
      have hr : p.Responsible env.target r := router?_eq_some.mp hrouter
      cases hc : p.context? r with
      | some c => exact ⟨_, _, _, .rerouted hdiscard hr hc⟩
      | none => exact ⟨_, _, _, .lost hdiscard hr hc⟩
    | none =>
      have hnone (r : Address) : ¬ p.Responsible env.target r := fun hr =>
        absurd (hrouter.symm.trans (router?_eq_some.mpr hr)) (by simp)
      cases hc : p.context? env.target with
      | some c => exact ⟨_, _, _, .taken hdiscard hnone hc⟩
      | none => exact ⟨_, _, _, .refused hdiscard hnone hc⟩

/-- A message comes to one thing only (`Dispatch`). -/
theorem unique (h : Dispatch p env events place taken) (h' : Dispatch p env events' place' taken') :
    events' = events ∧ place' = place ∧ taken' = taken := by
  have hone {r r' : Address} (hr : p.Responsible env.target r)
      (hr' : p.Responsible env.target r') : r' = r :=
    Option.some.inj ((router?_eq_some.mpr hr').symm.trans (router?_eq_some.mpr hr))
  cases h <;> cases h' <;> grind

end Dispatch

/-! ## What a send does -/

section Placing

variable {a b : Address} {g : Nat} {w : Way} {s t : Stage κ} {c : Context κ} {env : Envelope}

theorem came_of_waiting (h : t.platform.waiting a g w = s.platform.waiting a g w) :
    came a g s t w = [] := by
  unfold came
  rw [h, List.drop_length, ite_self]

theorem came_of_context (h : t.platform.context? a = s.platform.context? a) :
    came a g s t w = [] := by
  refine came_of_waiting ?_
  unfold waiting
  rw [h]

/-- A message is put in one place (`came`), for whoever lives at the address. -/
theorem came_put {f : Context κ → Context κ} {v : Way} (hc : s.platform.context? b = some c)
    (ht : ∀ x, t.platform.context? x =
      if x = b then (s.platform.context? b).map f else s.platform.context? x)
    (hstays : c.Stays (f c)) (hput : (f c).waiting v = c.waiting v ++ [env])
    (hrest : ∀ u, u ≠ v → (f c).waiting u = c.waiting u) :
    came a g s t w = if some (b, c.generation, v) = some (a, g, w) then [env] else [] := by
  have hd : t.platform.context? b = some (f c) := by
    rw [ht, if_pos rfl, hc]
    rfl
  by_cases hab : a = b
  · subst hab
    by_cases hg : c.generation = g
    · subst hg
      by_cases hw : w = v
      · subst hw
        rw [if_pos rfl]
        exact (Ledger.entered hc rfl hd hstays hput).1
      · rw [if_neg fun h => hw (by simpa using h.symm)]
        exact (Ledger.still hc rfl hd hstays (hrest w hw)).1
    · rw [if_neg fun h => hg (by simpa using congrArg (Option.map fun x => x.2.1) h)]
      have haway : stays a g s t = false := by
        unfold stays isCurrent generation?
        rw [hc]
        simp [hg]
      unfold came
      rw [haway]
      rfl
  · rw [if_neg fun h => hab (by simpa using congrArg (Option.map fun x => x.1) h.symm)]
    exact came_of_context ((ht a).trans (if_neg hab))

end Placing

section Sending

variable {answer : (c : Call κ) → Stage κ → Option (c.Answer × Stage κ)} {s : Stage κ}
  {env : Envelope} {k : Bool → Flow κ Bool} {a : Address} {c : Context κ}

/-- The stage after it was told that a message was accepted (`Event.accepted`). -/
def Stage.accepting (s : Stage κ) (a : Address) (env : Envelope) : Stage κ :=
  s.edit (·.publish (.accepted a env))

/-- **Delivering** to somebody who is there (`Flow.deliverAt`): the bus is told that the message was
accepted, and the message is put where it belongs (`Context.way`). -/
theorem Flow.Does.deliverAt (env : Envelope) (hc : s.platform.context? a = some c)
    (hk : ∀ t, Does answer (k true) t [] true) : ∃ t,
      Does answer (deliverAt a env (env.target != a) >>= k) s
        [(s, s.accepting a env), (s.accepting a env, t)] true ∧
      (s.accepting a env).platform.bus.since t.platform.bus = [] ∧
      ∀ b g w, came b g (s.accepting a env) t w =
        if some (a, c.generation, c.way a env) = some (b, g, w) then [env] else [] := by
  have hc' : (s.accepting a env).platform.context? a = some c := hc
  cases hmail : c.isBuffered && !(env.target != a && c.flags.router) with
  | true =>
    have hway : c.way a env = .mail := if_pos hmail
    let put (p : Platform κ) : Platform κ := (p.putMail a env).scheduleMail a
    refine ⟨(s.accepting a env).edit put, ?_, ?_, fun b g w => ?_⟩
    · unfold Flow.deliverAt
      rw [chain_assoc]
      refine .ask ?_
      rw [hc, chain_assoc]
      refine .edit ?_
      rw [hmail, if_pos rfl, chain_assoc]
      exact .edit (hk _)
    · show (s.accepting a env).platform.bus.since
        (((s.accepting a env).platform.putMail a env).scheduleMail a).bus = []
      obtain ⟨_, _, _, _, hlook⟩ := scheduleMail_eq ((s.accepting a env).platform.putMail a env) a
      rw [hlook]
      exact since_self _
    · rw [hway]
      refine came_put (f := fun c => c.mapMailbox (· ++ [env])) hc' (fun x => ?_)
        (.mapMailbox c _) ?_ fun u hu => ?_
      · exact context?_scheduleMail.trans (context?_modifyContext _)
      · obtain ⟨box, hbox⟩ := Option.isSome_iff_exists.mp (Context.isBuffered_of_way hway)
        show (c.mailbox.map (· ++ [env])).getD [] = c.mailbox.getD [] ++ [env]
        rw [hbox]
        rfl
      · cases u with
        | mail => exact absurd rfl hu
        | hand => rfl
  | false =>
    have hway : c.way a env = .hand := if_neg (by rw [hmail]; exact Bool.false_ne_true)
    let put (p : Platform κ) : Platform κ := p.putBacklog a env
    refine ⟨(s.accepting a env).edit put, ?_, since_self _, fun b g w => ?_⟩
    · unfold Flow.deliverAt
      rw [chain_assoc]
      refine .ask ?_
      rw [hc, chain_assoc]
      refine .edit ?_
      rw [hmail, if_neg Bool.false_ne_true, chain_assoc]
      refine .edit ?_
      show Does answer (Flow.invoke (.flush a) >>= fun _ => k true) _ _ _
      exact .invoke fun _ t => hk t
    · rw [hway]
      refine came_put (f := fun c => { c with backlog := c.backlog ++ [env] }) hc' (fun x => ?_)
        ⟨rfl, rfl, rfl⟩ ?_ fun u hu => ?_
      · exact context?_modifyContext _
      · rfl
      · cases u with
        | mail => rfl
        | hand => exact absurd rfl hu

/-- What a flow does itself (`Flow.own`) is what a message comes to: what the bus is told
(`published`), where the message is put (`placed`), and what is answered. -/
structure Flow.Settles (answer : (c : Call κ) → Stage κ → Option (c.Answer × Stage κ))
    (f : Flow κ Bool) (s : Stage κ) (env : Envelope) (events : List Event)
    (place : Option (Address × Nat × Way)) (taken : Bool) : Prop where
  told : published (own answer f s) = events
  put : ∀ a g w, placed a g w (own answer f s) = if place = some (a, g, w) then [env] else []
  result : ∀ x t, performWith answer f s = some (x, t) → x = taken
  returns : (∀ c s, (answer c s).isSome) → (performWith answer f s).isSome

theorem Flow.Does.settles {f : Flow κ Bool} {changes : List (Stage κ × Stage κ)}
    {events : List Event} {place : Option (Address × Nat × Way)} {taken : Bool}
    (h : Does answer f s changes taken) (htold : published changes = events)
    (hput : ∀ a g w, placed a g w changes = if place = some (a, g, w) then [env] else []) :
    Settles answer f s env events place taken where
  told := by rw [h.itself, htold]
  put a g w := by rw [h.itself, hput]
  result := h.result
  returns := h.returns

variable {events : List Event} {place : Option (Address × Nat × Way)} {taken : Bool}

/-- The stage after it was told that a message was transferred (`Event.transferred`). -/
def Stage.transferring (s : Stage κ) (r : Address) (env : Envelope) : Stage κ :=
  s.edit (·.publish (.transferred r env))

theorem since_edit_publish (s : Stage κ) (e : Event) :
    s.platform.bus.since (s.edit (·.publish e)).platform.bus = [e] :=
  since_publish _ e

theorem came_publish (a : Address) (g : Nat) (w : Way) (s : Stage κ) (e : Event) :
    came a g s (s.edit (·.publish e)) w = [] :=
  came_of_context rfl

theorem not_isDiscard (h : a ≠ .discard) : a.isDiscard = false := by
  rw [← Bool.not_eq_true, Address.isDiscard, beq_iff_eq]
  exact h

theorem Flow.Does.transferred {r : Address} {changes : List (Stage κ × Stage κ)} {x : Bool}
    (hdiscard : env.target ≠ .discard) (hr : s.platform.Responsible env.target r)
    (h : Does answer (transfer r env >>= k) s changes x) :
    Does answer (route env >>= k) s changes x := by
  unfold route
  rw [not_isDiscard hdiscard, if_neg Bool.false_ne_true, chain_assoc]
  refine .ask ?_
  rw [router?_eq_some.mpr hr]
  exact h

theorem Flow.Does.delivered {changes : List (Stage κ × Stage κ)} {x : Bool}
    (hdiscard : env.target ≠ .discard) (hr : ∀ r, ¬ s.platform.Responsible env.target r)
    (h : Does answer (deliver env >>= k) s changes x) :
    Does answer (route env >>= k) s changes x := by
  have hnone : s.platform.router? env.target = none :=
    Option.eq_none_iff_forall_ne_some.mpr fun r h => hr r (router?_eq_some.mp h)
  unfold route
  rw [not_isDiscard hdiscard, if_neg Bool.false_ne_true, chain_assoc]
  refine .ask ?_
  rw [hnone]
  exact h

/-- **A message that is taken**, or lost on its way: after what it comes to, nothing more is done
(`Flow.Does`). -/
theorem Dispatch.settles {events : List Event} {place : Option (Address × Nat × Way)}
    (h : Dispatch s.platform env events place true) (hk : ∀ t, Does answer (k true) t [] true) :
    Settles answer (route env >>= k) s env events place true := by
  cases h with
  | absorbed hdiscard =>
    have hdoes : Does answer (route env >>= k) s [] true := by
      unfold route
      rw [hdiscard, if_pos (show Address.discard.isDiscard = true from rfl)]
      exact hk s
    exact hdoes.settles rfl fun _ _ _ => rfl
  | @rerouted r c hdiscard hr hc =>
    have hother : (env.target != r) = true := by
      obtain ⟨_, _, _, -, -, hne, -⟩ := hr
      exact bne_iff_ne.mpr hne.symm
    have hthere : (s.transferring r env).platform.context? r = some c := hc
    obtain ⟨t, hdoes, hsince, hput⟩ := Does.deliverAt env hthere hk
    rw [hother] at hdoes
    have hlive : (s.transferring r env).platform.isLive r = true := isLive_iff.mpr ⟨c, hc⟩
    have hsend : Does answer (route env >>= k) s ((s, s.transferring r env) ::
        [(s.transferring r env, (s.transferring r env).accepting r env),
          ((s.transferring r env).accepting r env, t)]) true := by
      refine .transferred hdiscard hr ?_
      unfold transfer
      rw [chain_assoc]
      refine .edit ?_
      rw [chain_assoc]
      refine .ask ?_
      split
      · exact hdoes
      · exact absurd hlive ‹_›
    refine hsend.settles ?_ fun a g w => ?_
    · rw [published_cons, published_cons, published_cons, hsince]
      unfold Stage.accepting Stage.transferring
      rw [since_edit_publish, since_edit_publish]
      rfl
    · rw [placed_cons, placed_cons, placed_cons, hput]
      unfold Stage.accepting Stage.transferring
      rw [came_publish, came_publish]
      exact List.append_nil _
  | @lost r hdiscard hr hc =>
    have hgone : (s.transferring r env).platform.isLive r = false := by
      rw [← Bool.not_eq_true, isLive_iff]
      rintro ⟨c, hc'⟩
      exact absurd (hc.symm.trans hc') (by simp)
    have hsend : Does answer (route env >>= k) s [(s, s.transferring r env),
        (s.transferring r env, (s.transferring r env).edit (·.dropMessage env))] true := by
      refine .transferred hdiscard hr ?_
      unfold transfer
      rw [chain_assoc]
      refine .edit ?_
      rw [chain_assoc]
      refine .ask ?_
      split
      · exact absurd ‹_› (Bool.eq_false_iff.mp hgone)
      · rw [chain_assoc]
        exact .edit (hk _)
    refine hsend.settles ?_ fun a g w => ?_
    · rw [published_cons, published_cons]
      unfold dropMessage Stage.transferring
      rw [since_edit_publish, since_edit_publish]
      rfl
    · rw [placed_cons, placed_cons]
      unfold dropMessage Stage.transferring
      rw [came_publish, came_publish]
      rfl
  | @taken c hdiscard hr hc =>
    have hsame : (env.target != env.target) = false := bne_self_eq_false _
    obtain ⟨t, hdoes, hsince, hput⟩ := Does.deliverAt env hc hk
    rw [hsame] at hdoes
    have hsend : Does answer (route env >>= k) s [(s, s.accepting env.target env),
        (s.accepting env.target env, t)] true := .delivered hdiscard hr hdoes
    refine hsend.settles ?_ fun a g w => ?_
    · rw [published_cons, published_cons, hsince]
      unfold Stage.accepting
      rw [since_edit_publish]
      rfl
    · rw [placed_cons, placed_cons, hput]
      unfold Stage.accepting
      rw [came_publish]
      exact List.append_nil _

/-- **A message that is refused** is left to what follows (`Flow.Does`). -/
theorem Dispatch.does {events : List Event} {place : Option (Address × Nat × Way)}
    {changes : List (Stage κ × Stage κ)}
    (h : Dispatch s.platform env events place false) (hk : Does answer (k false) s changes false) :
    Does answer (route env >>= k) s changes false ∧ events = [.dropped env] ∧ place = none := by
  cases h with
  | refused hdiscard hr hc =>
    refine ⟨.delivered hdiscard hr ?_, rfl, rfl⟩
    unfold deliver Flow.deliverAt
    rw [chain_assoc]
    refine .ask ?_
    rw [hc]
    exact hk

/-- Sending a message (`Flow.route`) comes to what becomes of it (`Dispatch`). Being refused is left
for the sender to tell. -/
theorem Dispatch.settles_route {events : List Event} {place : Option (Address × Nat × Way)}
    {taken : Bool} (h : Dispatch s.platform env events place taken) :
    Settles answer (route env) s env (if taken then events else []) place taken := by
  have hroute : route env >>= (pure : Bool → Flow κ Bool) = route env := bind_done _
  cases taken with
  | true =>
    have hsettles : Settles answer (route env >>= pure) s env events place true :=
      h.settles fun _ => .pure true
    rwa [hroute] at hsettles
  | false =>
    obtain ⟨hdoes, -, rfl⟩ := h.does (k := pure) (.pure false : Does answer (pure false) s [] false)
    rw [hroute] at hdoes
    exact hdoes.settles rfl fun _ _ _ => rfl

/-- What is left of an operation once it has been seen what came of its message: to drain the
platform (`Call.drain`). -/
def Flow.drained (x : Bool) : Flow κ Bool :=
  invoke .drain >>= fun _ => pure x

/-- If a message was not taken, it is recorded as dropped (`Platform.dropMessage`). -/
def Flow.dropUnless (env : Envelope) (sent : Bool) : Flow κ Bool := do
  when (!sent) (edit (·.dropMessage env))
  pure sent

theorem drained_does (x : Bool) (s : Stage κ) : Does answer (drained x) s [] x :=
  .invoke fun _ _ => .pure x

namespace Operation

/-- **Every send comes to exactly one thing** (`Dispatch`). -/
theorem sent_once (answer : (c : Call κ) → Stage κ → Option (c.Answer × Stage κ)) (s : Stage κ)
    (target source : Address) (message : Message) :
    ∃ events place taken, Dispatch s.platform ⟨target, source, message⟩ events place taken ∧
      (∀ events' place' taken',
        Dispatch s.platform ⟨target, source, message⟩ events' place' taken' →
          events' = events ∧ place' = place ∧ taken' = taken) ∧
      Settles answer (tellFrom target source message) s ⟨target, source, message⟩ events place
        taken ∧
      Settles answer (send target source message) s ⟨target, source, message⟩
        (if taken then events else []) place taken ∧
      tell (κ := κ) target message = tellFrom target .discard message := by
  let env : Envelope := ⟨target, source, message⟩
  obtain ⟨events, place, taken, hd⟩ := Dispatch.exists_of s.platform env
  refine ⟨events, place, taken, hd, fun _ _ _ => hd.unique, ?_, ?_, rfl⟩
  · have htell : tellFrom (κ := κ) target source message =
        route env >>= fun sent => dropUnless env sent >>= drained :=
      chain_assoc (route env) (dropUnless env) drained
    rw [htell]
    cases taken with
    | true => exact hd.settles fun t => show Does answer (drained true) t [] true from
        drained_does true t
    | false =>
      have hrefused : Does answer (dropUnless env false >>= drained) s
          [(s, s.edit (·.dropMessage env))] false :=
        show Does answer (edit (·.dropMessage env) >>= fun _ => drained false) s _ false from
          .edit (drained_does false _)
      obtain ⟨hdoes, rfl, rfl⟩ :=
        hd.does (k := fun sent => dropUnless env sent >>= drained) hrefused
      refine hdoes.settles ?_ fun a g w => ?_
      · rw [published_cons]
        unfold Platform.dropMessage
        rw [since_edit_publish]
        rfl
      · rw [placed_cons]
        unfold Platform.dropMessage
        rw [came_publish]
        rfl
  · have hsend : send (κ := κ) target source message = route env >>= drained := rfl
    rw [hsend]
    cases taken with
    | true => exact hd.settles fun t => drained_does true t
    | false =>
      obtain ⟨hdoes, -, rfl⟩ := hd.does (k := drained) (drained_does false s)
      exact hdoes.settles rfl fun _ _ _ => rfl

end Operation

end Sending

end Troupe
