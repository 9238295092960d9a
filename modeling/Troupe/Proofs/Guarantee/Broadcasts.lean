import Troupe.Proofs.Guarantee.Handles
import Troupe.Proofs.Guarantee.Sending

/-!
# What becomes of a broadcast

A broadcast (`Operation.broadcast`, the source's `tell_members`) is settled on the members that the
group has when it begins (`Platform.members`). They have their turns one after the other, in the
order of their addresses: each is sent the message as by a send of its own, on the stage that those
before it left behind, whatever they did to the group or to one another (`Turn`, `InTurn`). What a
turn comes to is said by `Dispatch`, as for every send, and the answer is the number of turns at
which the message was taken.

A send that is refused is for the sender to record (`Operation.tellFrom` does, the source's
`tell_from`). A broadcast does not: a member that was removed by the time of its turn, and has no
router that is responsible for it, is not counted, and the bus is told nothing of its message.
`Bereaved.code` is an application whose actors come to that (`Bereaved.child_unrecorded`).

Headline:
* **`Moment.broadcast_in_turn`**: a broadcast is the turns of the members, and nothing else.
* `performWith_countM_route`: the loop over the members, turn by turn (`InTurn.sends`).
-/

namespace Troupe

open Platform Troupe.Flow

variable {κ : App}

/-- A member's turn in a broadcast: the stages before and after it, what the message comes to when
it is sent (`Dispatch`), and whether it is taken. -/
structure Turn (κ : App) where
  member : Address
  before : Stage κ
  events : List Event
  place : Option (Address × Nat × Way)
  taken : Bool
  after : Stage κ

section

variable {answer : (c : Call κ) → Stage κ → Option (c.Answer × Stage κ)} {source : Address}
  {message : Message} {s t u : Stage κ} {turn : Turn κ} {turns : List (Turn κ)}

/-- The turn is one send to its member (`Flow.Settles`). The bus is told of what the message comes
to, unless that is being refused. -/
structure Turn.Sends (answer : (c : Call κ) → Stage κ → Option (c.Answer × Stage κ))
    (source : Address) (message : Message) (turn : Turn κ) : Prop where
  dispatch : Dispatch turn.before.platform ⟨turn.member, source, message⟩ turn.events turn.place
    turn.taken
  settles : Settles answer (route ⟨turn.member, source, message⟩) turn.before
    ⟨turn.member, source, message⟩ (if turn.taken then turn.events else []) turn.place
    turn.taken
  returns : performWith answer (route ⟨turn.member, source, message⟩) turn.before =
    some (turn.taken, turn.after)

/-- Turns follow one another, from one stage to another (`Turn.Sends`). -/
inductive InTurn (answer : (c : Call κ) → Stage κ → Option (c.Answer × Stage κ))
    (source : Address) (message : Message) : Stage κ → List (Turn κ) → Stage κ → Prop
  | nil {s : Stage κ} : InTurn answer source message s [] s
  | cons {turn : Turn κ} {turns : List (Turn κ)} {t : Stage κ} :
      turn.Sends answer source message → InTurn answer source message turn.after turns t →
      InTurn answer source message turn.before (turn :: turns) t

/-! ## One turn -/

/-- A send (`Flow.route`) that returns is a turn. -/
theorem exists_turn {a : Address} {taken : Bool}
    (h : performWith answer (route ⟨a, source, message⟩) s = some (taken, t)) :
    ∃ turn : Turn κ, turn.Sends answer source message ∧ turn.member = a ∧ turn.before = s ∧
      turn.taken = taken ∧ turn.after = t := by
  obtain ⟨events, place, taken', hd⟩ := Dispatch.exists_of s.platform ⟨a, source, message⟩
  have hsettles : Settles answer (route _) s _ _ place taken' := hd.settles_route
  obtain rfl : taken = taken' := hsettles.result _ _ h
  exact ⟨⟨a, s, events, place, taken, t⟩, ⟨hd, hsettles, h⟩, rfl, rfl, rfl, rfl⟩

/-- Whoever is refused a message is gone. -/
theorem Turn.Sends.gone (h : turn.Sends answer source message) (hrefused : turn.taken = false) :
    turn.before.platform.isLive turn.member = false := by
  obtain ⟨hdispatch, -, -⟩ := h
  rw [hrefused] at hdispatch
  generalize turn.events = events, turn.place = place at hdispatch
  cases hdispatch with
  | refused _ _ hnone =>
    rw [← Bool.not_eq_true, isLive_iff]
    rintro ⟨c, hc⟩
    exact absurd (hnone.symm.trans hc) (by simp)

theorem InTurn.sends (h : InTurn answer source message s turns t) :
    ∀ turn ∈ turns, turn.Sends answer source message := by
  induction h with
  | nil => simp
  | cons hturn _ ih =>
    intro turn hmem
    rcases List.mem_cons.mp hmem with rfl | hmem
    · exact hturn
    · exact ih turn hmem

/-- Draining the platform changes nothing about the answer. -/
theorem performWith_drain (n : Nat) (s : Stage κ) :
    performWith answer (invoke .drain >>= fun _ => pure n) s =
      (answer .drain s).map fun x => (n, x.2) := by
  show performWith answer (.call .drain fun _ => .done n) s = _
  rw [performWith]
  cases answer .drain s <;> rfl

/-! ## All turns -/

/-- Sending to addresses in order (`Flow.countM`) is their turns. -/
theorem performWith_countM_route (as : List Address) (s : Stage κ) (n : Nat) (t : Stage κ) :
    performWith answer (countM (fun a => route ⟨a, source, message⟩) as) s = some (n, t) ↔
      ∃ turns, InTurn answer source message s turns t ∧ turns.map Turn.member = as ∧
        turns.countP Turn.taken = n := by
  induction as generalizing s n with
  | nil =>
    constructor
    · intro h
      obtain ⟨rfl, rfl⟩ := Prod.mk.inj (Option.some.inj h)
      exact ⟨[], .nil, rfl, rfl⟩
    · rintro ⟨turns, hturns, hnone, rfl⟩
      obtain rfl := List.map_eq_nil_iff.mp hnone
      cases hturns
      rfl
  | cons a as ih =>
    rw [countM, performWith_bind]
    constructor
    · intro h
      obtain ⟨⟨taken, u⟩, hsend, h⟩ := Option.bind_eq_some_iff.mp h
      rw [performWith_bind] at h
      obtain ⟨⟨k, v⟩, hrest, h⟩ := Option.bind_eq_some_iff.mp h
      obtain ⟨hn, rfl⟩ := Prod.mk.inj (Option.some.inj h)
      obtain ⟨turns, hturns, hmembers, hcount⟩ := (ih u k).mp hrest
      obtain ⟨turn, hturn, rfl, rfl, rfl, rfl⟩ := exists_turn hsend
      refine ⟨turn :: turns, .cons hturn hturns, ?_, ?_⟩
      · rw [List.map_cons, hmembers]
      · rw [List.countP_cons, hcount, ← hn]
        cases turn.taken <;> rfl
    · rintro ⟨turns, hturns, hmembers, hcount⟩
      cases hturns with
      | nil => exact absurd hmembers (by simp)
      | @cons turn turns _ hturn hturns =>
        obtain ⟨rfl, hrest⟩ := List.cons.inj hmembers
        rw [hturn.returns, Option.bind_some, performWith_bind,
          (ih turn.after (turns.countP Turn.taken)).mpr ⟨turns, hturns, hrest, rfl⟩]
        rw [List.countP_cons] at hcount
        cases htaken : turn.taken <;> simp_all [performWith]

/-- If calls return, sending to addresses in order does (`Flow.countM`). -/
theorem performWith_countM_isSome (hall : ∀ c s, (answer c s).isSome) (as : List Address)
    (s : Stage κ) :
    (performWith answer (countM (fun a => route ⟨a, source, message⟩) as) s).isSome := by
  induction as generalizing s with
  | nil => rfl
  | cons a as ih =>
    obtain ⟨events, place, taken, hd⟩ := Dispatch.exists_of s.platform ⟨a, source, message⟩
    have hsettles : Settles answer (route _) s _ _ place taken := hd.settles_route
    obtain ⟨x, hx⟩ := Option.isSome_iff_exists.mp (hsettles.returns hall)
    obtain ⟨y, hy⟩ := Option.isSome_iff_exists.mp (ih x.2)
    rw [countM, performWith_bind, hx, Option.bind_some, performWith_bind, hy]
    rfl

/-! ## Both ways to broadcast -/

section Ways

variable {n : Nat} {t : Stage κ} {m m' : Machine κ}

theorem performWith_routeToMembers (group : String) (s : Stage κ) :
    performWith answer (routeToMembers group source message) s = some (n, t) ↔
      ∃ turns, InTurn answer source message s turns t ∧
        turns.map Turn.member = s.platform.members group ∧ turns.countP Turn.taken = n :=
  performWith_countM_route (s.platform.members group) s n t

/-- An operation sends to the members (`Flow.routeToMembers`), and then drains the platform. -/
theorem performWith_broadcastFrom (group : String) (s : Stage κ) :
    performWith answer (Operation.broadcastFrom group source message) s =
      (performWith answer (routeToMembers group source message) s).bind fun x =>
        (answer .drain x.2).map fun y => (x.1, y.2) :=
  (performWith_bind _ _ _).trans (congrArg _ (funext fun _ => performWith_drain _ _))

theorem performWith_broadcastFrom_eq_some (group : String) (s : Stage κ) :
    performWith answer (Operation.broadcastFrom group source message) s = some (n, t) ↔
      ∃ u, performWith answer (routeToMembers group source message) s = some (n, u) ∧
        answer .drain u = some ((), t) := by
  rw [performWith_broadcastFrom]
  constructor
  · intro hrun
    obtain ⟨⟨k, u⟩, hrounded, hrun⟩ := Option.bind_eq_some_iff.mp hrun
    obtain ⟨⟨⟨⟩, v⟩, hdrained, hrun⟩ := Option.map_eq_some_iff.mp hrun
    obtain ⟨rfl, rfl⟩ := Prod.mk.inj hrun
    exact ⟨u, hrounded, hdrained⟩
  · rintro ⟨u, hrounded, hdrained⟩
    rw [hrounded, Option.bind_some, hdrained]
    rfl

/-- A request sends to the members (`Flow.routeToMembers`), and leaves the machine as it is. -/
theorem performWith_broadcast (group : String) (s : Stage κ) :
    performWith answer (Flow.answer code m (.broadcast group message)) s =
      (performWith answer (routeToMembers group m.address message) s).map fun x =>
        ((x.1, m), x.2) := by
  refine (performWith_bind _ _ _).trans ?_
  rw [Option.map_eq_bind]
  rfl

theorem performWith_broadcast_eq_some (group : String) (s : Stage κ) :
    performWith answer (Flow.answer code m (.broadcast group message)) s = some ((n, m'), t) ↔
      m' = m ∧ performWith answer (routeToMembers group m.address message) s = some (n, t) := by
  rw [performWith_broadcast]
  constructor
  · intro hrun
    obtain ⟨⟨k, u⟩, hrounded, hrun⟩ := Option.map_eq_some_iff.mp hrun
    obtain ⟨hanswer, rfl⟩ := Prod.mk.inj hrun
    obtain ⟨rfl, rfl⟩ := Prod.mk.inj hanswer
    exact ⟨rfl, hrounded⟩
  · rintro ⟨rfl, hrounded⟩
    rw [hrounded]
    rfl

end Ways

end

/-- The members of a group (`Platform.members`) stand in the order of their addresses, and each
once. -/
theorem Platform.members_pairwise (p : Platform κ) (group : String) :
    (p.members group).Pairwise fun a b => compare a b = .lt := by
  unfold members
  cases p.groups.get? group with
  | none => exact .nil
  | some set => exact List.pairwise_map.mpr set.ascending

namespace Moment

variable {code : Code κ} {mom : Moment κ}

/-- **A broadcast is the turns of the members.** Those who are members when it begins, all alive by
then, have one turn each (`InTurn`), in the order of their addresses, and nobody else has one; the
answer is the number of turns at which the message was taken. Whoever is refused it has been removed
since the broadcast began. An operation drains the platform afterwards, a request of an actor does
not; and if all calls return, so does either. -/
theorem broadcast_in_turn (h : Reach code mom)
    (answer : (c : Call κ) → Stage κ → Option (c.Answer × Stage κ)) (group : String)
    (message : Message) :
    (mom.stage.platform.members group).Pairwise (fun a b => compare a b = .lt) ∧
    (∀ source n t,
      performWith answer (Operation.broadcastFrom group source message) mom.stage = some (n, t) ↔
        ∃ turns u, InTurn answer source message mom.stage turns u ∧
          turns.map Turn.member = mom.stage.platform.members group ∧
          turns.countP Turn.taken = n ∧ answer .drain u = some ((), t)) ∧
    (∀ m n m' t,
      performWith answer (Flow.answer code m (.broadcast group message)) mom.stage =
          some ((n, m'), t) ↔
        m' = m ∧ ∃ turns, InTurn answer m.address message mom.stage turns t ∧
          turns.map Turn.member = mom.stage.platform.members group ∧
          turns.countP Turn.taken = n) ∧
    (∀ source turns t, InTurn answer source message mom.stage turns t →
      turns.map Turn.member = mom.stage.platform.members group →
        ∀ turn ∈ turns, turn.taken = false →
          mom.stage.platform.isLive turn.member = true ∧
          turn.before.platform.isLive turn.member = false) ∧
    ((∀ c s, (answer c s).isSome) →
      (∀ source,
        (performWith answer (Operation.broadcastFrom group source message) mom.stage).isSome) ∧
      ∀ m,
        (performWith answer (Flow.answer code m (.broadcast group message)) mom.stage).isSome) := by
  have hall (hcalls : ∀ c s, (answer c s).isSome) (source : Address) :
      (performWith answer (routeToMembers group source message) mom.stage).isSome :=
    performWith_countM_isSome hcalls (mom.stage.platform.members group) mom.stage
  refine ⟨members_pairwise _ group, fun source n t => ?_, fun m n m' t => ?_,
    fun source turns t hturns hmembers turn hmem hrefused => ⟨?_, ?_⟩,
    fun hcalls => ⟨fun source => ?_, fun m => ?_⟩⟩
  · rw [performWith_broadcastFrom_eq_some]
    constructor
    · rintro ⟨u, hrounded, hdrained⟩
      obtain ⟨turns, hturns, hmembers, hcount⟩ :=
        (performWith_routeToMembers group mom.stage).mp hrounded
      exact ⟨turns, u, hturns, hmembers, hcount, hdrained⟩
    · rintro ⟨turns, u, hturns, hmembers, hcount, hdrained⟩
      exact ⟨u, (performWith_routeToMembers group mom.stage).mpr ⟨turns, hturns, hmembers, hcount⟩,
        hdrained⟩
  · exact (performWith_broadcast_eq_some group mom.stage).trans
      (and_congr_right fun _ => performWith_routeToMembers group mom.stage)
  · have hmember : turn.member ∈ mom.stage.platform.members group :=
      hmembers ▸ List.mem_map_of_mem hmem
    exact h.ok.inv.table.isLive_of_mem_members hmember
  · exact (hturns.sends turn hmem).gone hrefused
  · obtain ⟨x, hx⟩ := Option.isSome_iff_exists.mp (hall hcalls source)
    obtain ⟨y, hy⟩ := Option.isSome_iff_exists.mp (hcalls .drain x.2)
    rw [performWith_broadcastFrom, hx, Option.bind_some, hy]
    rfl
  · obtain ⟨x, hx⟩ := Option.isSome_iff_exists.mp (hall hcalls m.address)
    rw [performWith_broadcast, hx]
    rfl

/-- Another member of the group. -/
def fellow : Template App.sample :=
  .mk (some "b") () [] none ["group"] []

/-- A stage on which the group has two members, a `Template.sample` and a `fellow`. -/
def crew : Stage App.sample :=
  (sample.afterwards Code.sample (Operation.spawn Code.sample .sample)).afterwards Code.sample
    (Operation.spawn Code.sample fellow)

/-- Both members of a group (`crew`) get the message, in the order of their addresses. -/
theorem broadcast_crew : ∃ (t : Stage App.sample) (turns : List (Turn App.sample))
    (u : Stage App.sample), Reach Code.sample (between crew) ∧
      crew.platform.members "group" = [.sample, .sampleMate] ∧
      perform (body Code.sample) 20 (Operation.broadcast "group" .null) crew = some (2, t) ∧
      InTurn (performCall (body Code.sample) 20) .discard .null crew turns u ∧
      turns.map Turn.member = [.sample, .sampleMate] ∧ turns.countP Turn.taken = 2 ∧
      t.platform.mailboxLength? .sample = some 1 ∧ t.platform.mailboxLength? .sampleMate = some 1 := by
  have hreach : Reach Code.sample (between crew) :=
    (reach_sample.perform 20 (.spawn .sample) rfl).perform 20 (.spawn fellow) rfl
  obtain ⟨-, hoperation, -⟩ :=
    broadcast_in_turn hreach (performCall (body Code.sample) 20) "group" .null
  obtain ⟨turns, u, hturns, hmembers, hcount, -⟩ := (hoperation .discard 2 _).mp rfl
  exact ⟨_, turns, u, hreach, rfl, rfl, hturns, hmembers, hcount, rfl, rfl⟩

end Moment

/-! ## A member that is removed -/

namespace Bereaved

open Replacement (parent child)

/-- An application of parents and children. -/
def app : App where
  Factory := Bool
  Actor := Bool
  Trap := Unit
  Foreign := Unit
  Task := Unit
  World := Unit

/-- Parents remove the child when they get a message (`Request.kill`). -/
def code : Code app where
  freshId w := ("fresh", w)
  build f _ w := (f, w)
  init _ w := (.direct, w)
  stop _ w := w
  judge _ _ w := (.ignore, w)
  hook
    | true, .accept _, _ => .ask (.kill child) fun _ => .done (.ok ())
    | _, _, _ => .done (.ok ())
  foreign _ _ _ := .done (.ok .nil)
  poll _ w := (.ready (.ok none), w)

/-- A parent and a child, both members of a group. -/
def template : Template app :=
  .mk (some "p") true [] none ["g"] [.mk (some "c") false [] none ["g"] []]

/-- The platform on which operations are tried. -/
def sample : Stage app :=
  .new {} none [] ()

theorem reach_sample : Moment.Reach code (.between sample) :=
  ⟨{}, none, [], (), .refl⟩

/-- What there is to see of an event: its kind, whom it is about, and for whom the message is. -/
structure Sight where
  kind : EventKind
  address : Option Address
  target : Option Address
  deriving DecidableEq

/-- What is told on the bus from one stage to another. -/
def told (s t : Stage app) : List Sight :=
  (s.platform.bus.since t.platform.bus).map fun e => ⟨e.kind, e.address, e.target⟩

/-- The members of the group, what a broadcast to them answers (`Operation.broadcast`), and what is
told in its course. -/
def outcome : Option (List Address × Nat × List Sight) :=
  (perform (body code) 20 (Operation.spawn code template) sample).bind fun x =>
    (perform (body code) 20 (Operation.broadcast "g" .null) x.2).map fun y =>
      (x.2.platform.members "g", y.1, told x.2 y.2)

/-- **A message is lost without a record.** Parent and child are members when the broadcast begins.
The parent accepts the message and removes the child. The answer counts one member, and nothing is
told of the message to the child (`told`): it was neither accepted nor transferred nor dropped. -/
theorem child_unrecorded : ∃ s t, Moment.Reach code (.between s) ∧
    s.platform.members "g" = [parent, child] ∧
    perform (body code) 20 (Operation.broadcast "g" .null) s = some (1, t) ∧
    told s t = [⟨.messageAccepted, some parent, some parent⟩,
      ⟨.actorRemoved, some child, none⟩] := by
  have houtcome : outcome = some ([parent, child], 1,
      [⟨.messageAccepted, some parent, some parent⟩, ⟨.actorRemoved, some child, none⟩]) := by
    decide +kernel
  obtain ⟨⟨_, s⟩, hs, houtcome⟩ := Option.bind_eq_some_iff.mp houtcome
  obtain ⟨⟨n, t⟩, ht, houtcome⟩ := Option.map_eq_some_iff.mp houtcome
  obtain ⟨hmembers, houtcome⟩ := Prod.mk.inj houtcome
  obtain ⟨rfl, htold⟩ := Prod.mk.inj houtcome
  exact ⟨s, t, reach_sample.perform 20 (.spawn template) hs, hmembers, ht, htold⟩

end Bereaved

end Troupe
