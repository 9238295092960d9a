import Mathlib.Algebra.Order.BigOperators.Group.List
import Mathlib.Algebra.Order.Ring.Nat
import Troupe.Table.Lemmas
import Troupe.Proofs.Event.Hearing

/-!
# How long an audience goes on

Reports are events (`Event.panicked`, `Event.overflow`), so they reach the
subscribers they are about. Whether that ends depends on the subscribers: one that panics over the
report of its own panic goes on forever, since a worker reports a panic over any event, and only
`emit_arc` asks whether an event is a report of an overflow.

Nothing else goes on forever. `toil` weighs what is unread (`Event.busCost`), what is queued
(`Event.queueCost`) and what is in the hands of subscribers (`Event.handCost`): a report there
weighs least, since it only causes another one if it makes its subscriber panic, and an event on the
bus outweighs all that becomes of it in the queues. Then everything that happens takes from the toil
(`Occurs.toil_lt`), unless somebody else publishes or a subscriber panics over a report
(`Occurrence.isFresh`), and each of those adds only so much (`freshCost`).

So whatever is published, the audience comes to rest (`AtRest`) after finitely many steps if its
subscribers panic over reports only finitely often; in particular if they take reports calmly
(`Audience.TakesReports`, `Listener.rounds_rest`).

Headlines:
* **`Course.quiesces`**: how many steps an audience takes at most, given what is published from
  outside and how often a subscriber panics over a report.
* **`Course.length_add_toil`**: the same for any course, with what is left to do at its end.
* **`Listener.endless_feedback`**: a subscriber that panics over every report is never done.
-/

namespace Troupe

/-! ## Weights

They depend on the number `n` of subscribers. An event weighs more on the bus than in all queues,
and more in a queue than in a subscriber's hands. -/

/-- What a report of an overflow (`Event.overflow`) weighs on the bus: each subscriber may have to
take it, and no report comes of that. -/
def overflowCost (n : Nat) : Nat :=
  n * 2 + 1

/-- What a report of a panic (`Event.panicked`) weighs on the bus: each subscriber may refuse it. -/
def panicCost (n : Nat) : Nat :=
  n * (overflowCost n + 1) + 1

namespace Event

/-- What an event weighs in the hands of a subscriber (`Channel.inHand`). -/
def handCost (n : Nat) (e : Event) : Nat :=
  if e.isReport then 1 else panicCost n + 1

/-- What an event weighs in a queue (`Channel.queue`). -/
def queueCost (n : Nat) (e : Event) : Nat :=
  e.handCost n + 1

/-- What may become of an event when it is reported to one subscriber (`Channel.offer`): it is
queued, or its overflow is reported. -/
def offerCost (n : Nat) (e : Event) : Nat :=
  if e.isOverflow then 2 else if e.isPanic then overflowCost n + 1 else panicCost n + 2

/-- What an event weighs on the bus: its `offerCost` for each subscriber, and the reading. -/
def busCost (n : Nat) (e : Event) : Nat :=
  n * e.offerCost n + 1

variable {n : Nat} {e : Event}

theorem handCost_pos (n : Nat) (e : Event) : 0 < e.handCost n := by
  unfold handCost
  split <;> omega

theorem overflowCost_le_panicCost (n : Nat) : overflowCost n ≤ panicCost n := by
  have hle : n * 2 ≤ n * (overflowCost n + 1) :=
    Nat.mul_le_mul_left n (Nat.le_add_left 2 (n * 2))
  unfold panicCost
  unfold overflowCost at hle ⊢
  omega

theorem queueCost_le_offerCost (n : Nat) (e : Event) : e.queueCost n ≤ e.offerCost n := by
  unfold queueCost handCost offerCost isReport overflowCost
  cases e.isOverflow <;> cases e.isPanic <;> simp

theorem offerCost_le (n : Nat) (e : Event) : e.offerCost n ≤ panicCost n + 2 := by
  have hle := overflowCost_le_panicCost n
  have hpos : 0 < panicCost n := Nat.succ_pos _
  unfold offerCost
  split
  · omega
  · split <;> omega

theorem overflowCost_le_offerCost (h : e.isOverflow = false) : overflowCost n ≤ e.offerCost n := by
  have hle := overflowCost_le_panicCost n
  unfold offerCost
  rw [h, if_neg Bool.false_ne_true]
  split <;> omega

@[simp] theorem busCost_overflow (n : Nat) (name reason : String) :
    (overflow name reason).busCost n = overflowCost n :=
  rfl

@[simp] theorem busCost_panicked (n : Nat) (name info : String) :
    (panicked name info).busCost n = panicCost n := rfl

end Event

/-- What events weigh on the bus (`Event.busCost`). -/
def busToil (n : Nat) (es : List Event) : Nat :=
  (es.map (Event.busCost n)).sum

/-- What events weigh in a queue (`Event.queueCost`). -/
def queueToil (n : Nat) (es : List Event) : Nat :=
  (es.map (Event.queueCost n)).sum

/-- What a subscriber has before it weighs (`Event.handCost`, `queueToil`). -/
def Channel.toil (n : Nat) (c : Channel) : Nat :=
  c.inHand.elim 0 (Event.handCost n) + queueToil n c.queue

/-- What an audience has before it weighs (`Channel.toil`). -/
def audienceToil (n : Nat) (cs : List Channel) : Nat :=
  (cs.map (Channel.toil n)).sum

/-- The events that a receiver has not read, those from its mark on (`Bus.receivers`). -/
def Bus.unread (b : Bus) (r : Nat) : List Event :=
  b.published.toList.drop ((b.receivers.get? r).getD b.published.size)

/-- What is left to do (`Bus.unread`, `audienceToil`), as things stand. -/
def toil (x : Bus × Listener) : Nat :=
  busToil x.2.audience.size (x.1.unread x.2.receiver) +
    audienceToil x.2.audience.size x.2.audience.channels

section Sums

variable (n : Nat)

@[simp] theorem busToil_nil : busToil n [] = 0 := rfl

@[simp] theorem busToil_cons (e : Event) (es : List Event) :
    busToil n (e :: es) = e.busCost n + busToil n es :=
  List.sum_cons

@[simp] theorem busToil_append (es fs : List Event) :
    busToil n (es ++ fs) = busToil n es + busToil n fs := by
  simp [busToil]

theorem busToil_drop_le (k : Nat) (es : List Event) : busToil n (es.drop k) ≤ busToil n es := by
  rw [← List.take_append_drop k es, busToil_append, List.take_append_drop]
  exact Nat.le_add_left _ _

@[simp] theorem queueToil_nil : queueToil n [] = 0 := rfl

@[simp] theorem queueToil_cons (e : Event) (es : List Event) :
    queueToil n (e :: es) = e.queueCost n + queueToil n es :=
  List.sum_cons

@[simp] theorem queueToil_append (es fs : List Event) :
    queueToil n (es ++ fs) = queueToil n es + queueToil n fs := by
  simp [queueToil]

@[simp] theorem audienceToil_cons (c : Channel) (cs : List Channel) :
    audienceToil n (c :: cs) = c.toil n + audienceToil n cs :=
  List.sum_cons

theorem audienceToil_set {cs : List Channel} {i : Nat} {c : Channel} (h : cs[i]? = some c)
    (c' : Channel) : audienceToil n (cs.set i c') + c.toil n =
      audienceToil n cs + c'.toil n := by
  induction cs generalizing i with
  | nil => cases h
  | cons d cs ih =>
    cases i with
    | zero =>
      cases h
      rw [List.set_cons_zero, audienceToil_cons, audienceToil_cons]
      omega
    | succ i =>
      have hrest := ih h
      rw [List.set_cons_succ, audienceToil_cons, audienceToil_cons]
      omega

end Sums

/-! ## What each step does to the toil -/

/-- Whether an occurrence is not one that ends of itself: somebody else is about
(`Occurrence.published`), or a subscriber panics over a report. -/
def Occurrence.isFresh : Occurrence → Bool
  | published _ | elsewhere => true
  | finished _ e (.panicked _) => e.isReport
  | _ => false

/-- What an occurrence adds to the toil at most (`Occurs.toil_lt`). -/
def freshCost (n : Nat) : Nat :=
  (n + 1) * (panicCost n + 2) + 1

namespace Bus

variable {b b' : Bus} {r : Nat}

theorem unread_eq_nil (h : b.receivers.get? r = none) : b.unread r = [] := by
  unfold unread
  rw [h]
  exact List.drop_eq_nil_of_le (Nat.le_refl _)

/-- Published events are what is more to be read (`Bus.publishAll`). -/
theorem unread_publishAll_le (n : Nat) (b : Bus) (es : List Event) (r : Nat) :
    busToil n ((b.publishAll es).unread r) ≤ busToil n (b.unread r) + busToil n es := by
  cases h : b.receivers.get? r with
  | none =>
    rw [unread_eq_nil ((congrArg (Table.get? · r) (b.publishAll_receivers es)).trans h)]
    exact Nat.zero_le _
  | some seen =>
    unfold unread
    rw [publishAll_receivers, publishAll_published, h, Option.getD_some, List.drop_append,
      busToil_append]
    exact Nat.add_le_add_left (busToil_drop_le n _ es) _

/-- A read takes the first event that was not read (`Bus.receive`). -/
theorem unread_of_receive {e : Event} (h : b.receive r = (.event e, b')) :
    b.unread r = e :: b'.unread r := by
  obtain ⟨seen, hseen, hget, rfl⟩ := receive_event h
  obtain ⟨hlt, rfl⟩ := List.getElem?_eq_some_iff.mp (Array.getElem?_toList.trans hget)
  unfold unread
  rw [hseen, Table.get?_insert, if_pos rfl, Option.getD_some, Option.getD_some]
  exact List.drop_eq_getElem_cons hlt

/-- A receiver that gets nothing has read all (`Received.empty`). -/
theorem unread_of_empty (h : b.receive r = (.empty, b')) : b.unread r = [] := by
  cases hseen : b.receivers.get? r with
  | none => exact unread_eq_nil hseen
  | some seen =>
    unfold receive at h
    unfold unread
    rw [hseen] at h ⊢
    refine List.drop_eq_nil_of_le ?_
    rw [Array.length_toList]
    grind

/-- A receiver that is told of losses has that much less to read (`Received.lagged`). -/
theorem unread_of_lagged {lost : Nat} (h : b.receive r = (.lagged lost, b')) :
    ∃ gone, gone ≠ [] ∧ b.unread r = gone ++ b'.unread r := by
  obtain ⟨seen, hseen, hlt, rfl⟩ := receive_lagged h
  unfold unread
  rw [hseen, Table.get?_insert, if_pos rfl, Option.getD_some, Option.getD_some]
  refine ⟨(b.published.toList.drop seen).take (b.published.size - b.window - seen), ?_, ?_⟩
  · refine List.ne_nil_of_length_pos ?_
    rw [List.length_take, List.length_drop, Array.length_toList]
    omega
  · have hrest : seen + (b.published.size - b.window - seen) = b.published.size - b.window := by
      omega
    rw [← hrest, ← List.drop_drop, hrest, List.take_append_drop]

end Bus

namespace Channel

/-- An event weighs as much as may become of it (`Event.offerCost`). -/
theorem offer_toil (n : Nat) (c : Channel) (e : Event) :
    (c.offer e).2.toil n + busToil n (c.offer e).1 ≤ c.toil n + e.offerCost n := by
  unfold offer
  split
  · have hle := e.queueCost_le_offerCost n
    simp only [toil, queueToil_append, queueToil_cons, queueToil_nil, busToil_nil]
    omega
  · dsimp only
    split
    · simp
    · rename_i hover
      have hle := Event.overflowCost_le_offerCost (n := n) (Bool.eq_false_iff.mpr hover)
      simp only [busToil_cons, busToil_nil, Event.busCost_overflow]
      omega

/-- An event weighs less in a subscriber's hands than in its queue (`Channel.holding`). -/
theorem holding_toil (n : Nat) {c : Channel} {e : Event} {rest : List Event}
    (hhand : c.inHand = none) (h : c.queue = e :: rest) :
    (c.holding e rest).toil n + 1 = c.toil n := by
  unfold toil holding
  rw [hhand, h, queueToil_cons, Event.queueCost]
  simp only [Option.elim_some, Option.elim_none]
  omega

/-- A panic over anything but a report (`Event.isReport`) weighs less than what it was about. -/
theorem finish_toil (n : Nat) {c : Channel} {e : Event} (h : c.inHand = some e) (how : Reaction)
    (i : Nat) : (c.finish e how).2.toil n + busToil n (c.finish e how).1 + 1 ≤ c.toil n +
      if (Occurrence.finished i e how).isFresh then panicCost n else 0 := by
  have hpos := e.handCost_pos n
  unfold toil
  rw [h, Option.elim_some]
  cases how with
  | handled =>
    simp only [finish, Option.elim_none, busToil_nil, Occurrence.isFresh, Bool.false_eq_true,
      if_false]
    omega
  | died =>
    simp only [finish, Option.elim_none, queueToil_nil, busToil_nil, Occurrence.isFresh,
      Bool.false_eq_true, if_false]
    omega
  | panicked info =>
    unfold Event.handCost Occurrence.isFresh finish
    cases hreport : e.isReport with
    | true =>
      simp only [busToil_cons, busToil_nil, Event.busCost_panicked, hreport, ↓reduceIte,
        Option.elim_none]
      omega
    | false =>
      simp only [busToil_cons, busToil_nil, Event.busCost_panicked, hreport, Bool.false_eq_true,
        ↓reduceIte, Option.elim_none]
      omega

end Channel

theorem audienceToil_offer (n : Nat) (cs : List Channel) (e : Event) :
    audienceToil n (cs.map fun c => (c.offer e).2) + busToil n (cs.flatMap fun c => (c.offer e).1) ≤
      audienceToil n cs + cs.length * e.offerCost n := by
  induction cs with
  | nil => exact Nat.zero_le _
  | cons c cs ih =>
    have hoffer := c.offer_toil n e
    rw [List.map_cons, List.flatMap_cons, busToil_append, audienceToil_cons, audienceToil_cons,
      List.length_cons, Nat.succ_mul]
    omega

theorem busCost_lt_freshCost (n : Nat) (e : Event) : e.busCost n < freshCost n := by
  have hle := e.offerCost_le n
  have hmul := Nat.mul_le_mul_left n hle
  unfold Event.busCost freshCost
  rw [Nat.succ_mul]
  omega

theorem panicCost_lt_freshCost (n : Nat) : panicCost n < freshCost n := by
  unfold freshCost
  rw [Nat.succ_mul]
  omega

theorem Occurs.size {x y : Bus × Listener} {o : Occurrence} (h : Occurs x o y) :
    y.2.audience.size = x.2.audience.size := by
  have hlength := congrArg List.length h.subscribers
  rwa [Audience.subscribers, Audience.subscribers, List.length_map, List.length_map] at hlength

/-- **Every step takes from the toil**, apart from what comes from elsewhere and from panics over
reports (`toil`). -/
theorem Occurs.toil_lt {x y : Bus × Listener} {o : Occurrence} (h : Occurs x o y) :
    toil y + 1 ≤ toil x + if o.isFresh then freshCost x.2.audience.size else 0 := by
  have hsize := h.size
  unfold toil
  rw [hsize]
  generalize hn : x.2.audience.size = n
  cases h with
  | published b l e =>
    have hmore := Bus.unread_publishAll_le n b [e] l.receiver
    have hcost := busCost_lt_freshCost n e
    change busToil n ((b.publish e).unread l.receiver) ≤
      busToil n (b.unread l.receiver) + (e.busCost n + 0) at hmore
    simp only [Occurrence.isFresh, if_true]
    omega
  | elsewhere hsame _ hreceiver =>
    have hcost := panicCost_lt_freshCost n
    simp only [Bus.unread, hsame, hreceiver, Occurrence.isFresh, if_true]
    omega
  | @passed b b' l e hread =>
    have hmore := Bus.unread_publishAll_le n b' (l.audience.offer e).1 l.receiver
    have hoffer := audienceToil_offer n l.audience.channels e
    have hlength : l.audience.channels.length = n := hn
    have hcost : e.busCost n = n * e.offerCost n + 1 := rfl
    rw [hlength] at hoffer
    rw [Audience.offer_eq] at hmore ⊢
    dsimp only at hmore
    simp only [Occurrence.isFresh, Bool.false_eq_true, if_false, Bus.unread_of_receive hread,
      busToil_cons]
    omega
  | @lagged b b' l lost hread =>
    obtain ⟨gone, hgone, hunread⟩ := Bus.unread_of_lagged hread
    obtain ⟨e, rest, rfl⟩ := List.exists_cons_of_ne_nil hgone
    have hcost : e.busCost n = n * e.offerCost n + 1 := rfl
    simp only [Occurrence.isFresh, Bool.false_eq_true, if_false, hunread, List.cons_append,
      busToil_cons, busToil_append]
    omega
  | @took b l i c e rest hc hhand hq =>
    have hset := audienceToil_set n hc (c.holding e rest)
    have hless := Channel.holding_toil n hhand hq
    simp only [Occurrence.isFresh, Bool.false_eq_true, if_false]
    omega
  | @finished b l i c e how hc hhand =>
    have hmore := Bus.unread_publishAll_le n b (c.finish e how).1 l.receiver
    have hfinish := Channel.finish_toil n hhand how i
    have hset := audienceToil_set n hc (c.finish e how).2
    have hcost := panicCost_lt_freshCost n
    dsimp only
    split at hfinish
    · rename_i hfresh
      rw [if_pos hfresh]
      omega
    · rename_i hfresh
      rw [if_neg hfresh]
      omega

/-- **The audience does only so much** of itself: each step takes from the toil (`Occurs.toil_lt`),
and nobody adds to it but others that publish and subscribers that panic over reports. -/
theorem Course.length_add_toil {x y : Bus × Listener} {os : List Occurrence} (h : Course x os y) :
    os.length + toil y ≤
      toil x + os.countP Occurrence.isFresh * freshCost x.2.audience.size := by
  suffices hboth : y.2.audience.size = x.2.audience.size ∧ os.length + toil y ≤
      toil x + os.countP Occurrence.isFresh * freshCost x.2.audience.size from hboth.2
  induction h with
  | start => exact ⟨rfl, by simp⟩
  | @next os y z o _ ho ih =>
    obtain ⟨hsize, hle⟩ := ih
    have hstep := ho.toil_lt
    rw [hsize] at hstep
    refine ⟨ho.size.trans hsize, ?_⟩
    rw [List.length_append, List.length_singleton, List.countP_append, List.countP_singleton]
    split at hstep <;> rename_i hfresh
    · rw [if_pos hfresh, Nat.succ_mul]
      omega
    · rw [if_neg hfresh, Nat.add_zero (os.countP _)]
      omega

/-! ## Rest -/

/-- Unless all is quiet (`Audience.isQuiet`), somebody has an event before it. -/
theorem Audience.exists_busy {a : Audience} (h : ¬a.isQuiet = true) :
    ∃ c ∈ a.channels, c.waiting ≠ 0 := by
  unfold isQuiet at h
  rw [List.all_eq_true] at h
  push Not at h
  obtain ⟨c, hc, hbusy⟩ := h
  exact ⟨c, hc, fun hzero => hbusy (beq_iff_eq.mpr hzero)⟩

/-- Everything published was passed on (`Bus.unread`), and nobody has an event before it. -/
structure AtRest (x : Bus × Listener) : Prop where
  read : x.1.unread x.2.receiver = []
  quiet : x.2.audience.isQuiet = true

/-- **As long as there is no rest, it goes on** (`Occurs`): the listener or some subscriber has
something to do. -/
theorem AtRest.or_occurs (x : Bus × Listener) :
    AtRest x ∨ (∃ o y, Occurs x o y ∧ ((∃ e, o = .passed e) ∨ ∃ n, o = .lagged n)) ∨
      (∃ i e y, Occurs x (.took i e) y) ∨ ∃ i e, ∀ how, ∃ y, Occurs x (.finished i e how) y := by
  obtain ⟨b, l⟩ := x
  by_cases hread : b.unread l.receiver = []
  · by_cases hquiet : l.audience.isQuiet = true
    · exact Or.inl ⟨hread, hquiet⟩
    · refine Or.inr (Or.inr ?_)
      obtain ⟨c, hc, hbusy⟩ := Audience.exists_busy hquiet
      obtain ⟨i, hi⟩ := List.mem_iff_getElem?.mp hc
      cases hhand : c.inHand with
      | some e => exact Or.inr ⟨i, e, fun how => ⟨_, .finished b how hi hhand⟩⟩
      | none =>
        cases hq : c.queue with
        | nil => exact absurd (by simp [Channel.waiting, hhand, hq]) hbusy
        | cons e rest => exact Or.inl ⟨i, e, _, .took b hi hhand hq⟩
  · refine Or.inr (Or.inl ?_)
    cases hgot : b.receive l.receiver with
    | mk got b' =>
      cases got with
      | event e => exact ⟨_, _, .passed hgot, Or.inl ⟨e, rfl⟩⟩
      | lagged n => exact ⟨_, _, .lagged hgot, Or.inr ⟨n, rfl⟩⟩
      | empty => exact absurd (Bus.unread_of_empty hgot) hread

/-! ## Work leaves nothing to handle -/

namespace Channel

variable {c c' : Channel} {e : Event}

theorem waiting_take (h : c.take = some (e, c')) : c'.waiting = c.waiting := by
  rcases take_cases h with ⟨-, rfl⟩ | ⟨rest, hhand, hqueue, rfl⟩
  · rfl
  · simp only [waiting, holding, hhand, hqueue, Option.toList_some, Option.toList_none,
      List.length_cons, List.length_nil]
    omega

theorem take_of_waiting (h : c.waiting ≠ 0) : ∃ e c', c.take = some (e, c') := by
  unfold waiting at h
  unfold take
  split
  · exact ⟨_, _, rfl⟩
  · exact ⟨_, _, rfl⟩
  · rename_i hhand hqueue
    simp [hhand, hqueue] at h

theorem waiting_finish_lt (h : c.inHand = some e) (how : Reaction) :
    (c.finish e how).2.waiting < c.waiting := by
  unfold waiting
  rw [h]
  cases how with
  | handled | panicked => simp [finish]
  | died => simp [finish]

theorem waiting_handle_le (c : Channel) (n : Nat) : (c.handle n).2.waiting ≤ c.waiting := by
  induction n generalizing c with
  | zero => exact Nat.le_refl _
  | succ n ih =>
    cases htake : c.take with
    | none => rw [handle_of_take htake]
    | some x =>
      rw [handle_succ htake, ← waiting_take htake]
      exact (ih _).trans (Nat.le_of_lt (waiting_finish_lt (inHand_take htake) _))

theorem waiting_handle_lt (h : c.waiting ≠ 0) (n : Nat) :
    (c.handle (n + 1)).2.waiting < c.waiting := by
  obtain ⟨e, c', htake⟩ := take_of_waiting h
  rw [handle_succ htake, ← waiting_take htake]
  exact Nat.lt_of_le_of_lt (waiting_handle_le _ n) (waiting_finish_lt (inHand_take htake) _)

end Channel

namespace Audience

theorem waiting_eq (a : Audience) : a.waiting = (a.channels.map Channel.waiting).sum := by
  unfold waiting
  induction a.channels with
  | nil => rfl
  | cons c cs ih => rw [List.foldr_cons, ih, List.map_cons, List.sum_cons]

@[simp] theorem waiting_reversed (a : Audience) : a.reversed.waiting = a.waiting := by
  rw [waiting_eq, waiting_eq, reversed, List.map_reverse, List.sum_reverse]

@[simp] theorem isQuiet_reversed (a : Audience) : a.reversed.isQuiet = a.isQuiet :=
  List.all_reverse

theorem isQuiet_of_waiting (a : Audience) (h : a.waiting = 0) : a.isQuiet = true := by
  rw [waiting_eq, List.sum_eq_zero_iff] at h
  refine List.all_eq_true.mpr fun c hc => ?_
  exact beq_iff_eq.mpr (h _ (List.mem_map_of_mem hc))

theorem waiting_turn_lt (a : Audience) (h : ¬a.isQuiet) : a.turn.2.waiting < a.waiting := by
  rw [turn_eq, waiting_eq, waiting_eq, List.map_map]
  refine List.sum_lt_sum _ _ (fun c _ => c.waiting_handle_le turnLength) ?_
  obtain ⟨c, hc, hbusy⟩ := exists_busy h
  exact ⟨c, hc, Channel.waiting_handle_lt hbusy _⟩

theorem workFor_quiet (a : Audience) {n : Nat} (h : a.waiting ≤ n) :
    (a.workFor n).2.isQuiet = true := by
  induction n generalizing a with
  | zero => exact a.isQuiet_of_waiting (Nat.le_zero.mp h)
  | succ n ih =>
    by_cases hquiet : a.isQuiet
    · rw [workFor, if_pos hquiet]
      exact hquiet
    · have hless := a.waiting_turn_lt hquiet
      rw [workFor_succ hquiet, isQuiet_reversed]
      refine ih _ ?_
      rw [waiting_reversed]
      omega

/-- **Work** leaves nobody an event (`Audience.work`). -/
theorem work_quiet (a : Audience) : a.work.2.isQuiet = true :=
  a.workFor_quiet (Nat.le_refl _)

end Audience

/-! ## Rounds come to rest -/

/-- The subscriber does not panic over reports (`Event.isReport`). -/
def Subscriber.TakesReports (s : Subscriber) : Prop :=
  ∀ e info, e.isReport = true → s.react e ≠ .panicked info

/-- None of the subscribers panics over reports (`Subscriber.TakesReports`). -/
def Audience.TakesReports (a : Audience) : Prop :=
  ∀ s ∈ a.subscribers, s.TakesReports

namespace Turns

variable {x y z : Bus × Listener}

theorem takesReports (h : Turns x y) (hx : x.2.audience.TakesReports) :
    y.2.audience.TakesReports := by
  unfold Audience.TakesReports
  rw [h.subscribers]
  exact hx

/-- What may happen (`Turns`) takes from the `toil`, if there is anything in it. -/
theorem eq_or_toil_lt (h : Turns x y) (hx : x.2.audience.TakesReports) :
    y = x ∨ toil y < toil x := by
  obtain ⟨os, hos, hown⟩ := h
  have hnone : os.countP Occurrence.isFresh = 0 := by
    refine List.countP_eq_zero.mpr fun o ho hfresh => ?_
    have hown := hown o ho
    cases o with
    | published | elsewhere => exact hown
    | passed | lagged | took => cases hfresh
    | finished i e how =>
      obtain ⟨s, hs, hreact⟩ := hown
      cases how with
      | handled | died => cases hfresh
      | panicked info => exact hx s (List.mem_of_getElem? hs) e info hfresh hreact
  have hless := hos.length_add_toil
  rw [hnone, Nat.zero_mul] at hless
  cases hos with
  | start => exact Or.inl rfl
  | next =>
    rw [List.length_append, List.length_singleton] at hless
    exact Or.inr (by omega)

theorem toil_le (h : Turns x y) (hx : x.2.audience.TakesReports) : toil y ≤ toil x := by
  rcases h.eq_or_toil_lt hx with rfl | hlt
  · exact Nat.le_refl _
  · exact Nat.le_of_lt hlt

end Turns

namespace Listener

theorem relay_atEnd (l : Listener) (b : Bus) (n : Nat) (h : (l.relay b n).1 = true) :
    (l.relay b n).2.1.unread (l.relay b n).2.2.receiver = [] := by
  induction n generalizing l b with
  | zero => cases h
  | succ n ih =>
    rw [relay] at h ⊢
    split at h
    · rename_i hgot
      exact Bus.receive_empty hgot ▸ Bus.unread_of_empty hgot
    · exact ih _ _ h
    · exact ih _ _ h

/-- A listener that has something to read gets on with it (`Listener.relay`). -/
theorem relay_toil_lt {l : Listener} {b : Bus} (hread : b.unread l.receiver ≠ [])
    (hl : l.audience.TakesReports) (n : Nat) :
    toil ((l.relay b (n + 1)).2.1, (l.relay b (n + 1)).2.2) < toil (b, l) := by
  have first {o : Occurrence} {b' : Bus} {l' : Listener} (ho : Occurs (b, l) o (b', l'))
      (hown : o.Own l.audience.subscribers) (hfresh : o.isFresh = false) :
      toil ((l'.relay b' n).2.1, (l'.relay b' n).2.2) < toil (b, l) := by
    have hstep := ho.toil_lt
    rw [hfresh, if_neg Bool.false_ne_true] at hstep
    have hrest := (Turns.relay b' l' n).toil_le ((Turns.single ho hown).takesReports hl)
    exact Nat.lt_of_le_of_lt hrest hstep
  rw [relay]
  split
  · rename_i hgot
    exact absurd (Bus.unread_of_empty hgot) hread
  · rename_i hgot
    exact first (.lagged hgot) trivial rfl
  · rename_i hgot
    exact first (.passed hgot) trivial rfl

/-- A listener that has read all sees the end (`Listener.relay`). -/
theorem relay_of_read {l : Listener} {b : Bus} (hread : b.unread l.receiver = []) (n : Nat) :
    l.relay b (n + 1) = (true, b, l) := by
  rw [relay]
  split
  · rename_i hgot
    rw [Bus.receive_empty hgot]
  · rename_i hgot
    obtain ⟨gone, hgone, hunread⟩ := Bus.unread_of_lagged hgot
    exact absurd (List.append_eq_nil_iff.mp (hunread.symm.trans hread)).1 hgone
  · rename_i hgot
    cases (Bus.unread_of_receive hgot).symm.trans hread

/-- A round that leaves nothing (`Listener.round`) leaves nothing. -/
theorem atRest_of_round {l : Listener} {b : Bus} (h : (l.round b).1 = .nothing) :
    AtRest (l.round b).2 := by
  unfold round at h ⊢
  dsimp only at h ⊢
  split at h
  · cases h
  · rename_i hend
    split at h
    · rename_i hreports
      rw [List.isEmpty_iff.mp hreports]
      exact ⟨l.relay_atEnd b turnLength (by simpa using hend), Audience.work_quiet _⟩
    · cases h

/-- A round that leaves something got something done (`toil`). -/
theorem round_toil_lt {l : Listener} {b : Bus} (h : (l.round b).1 ≠ .nothing)
    (hl : l.audience.TakesReports) : toil (l.round b).2 < toil (b, l) := by
  have hrelay := Turns.relay b l turnLength
  have hwork (x : Bus × Listener) := (Turns.work x.1 x.2.receiver x.2.audience
    x.2.audience.waiting).1
  by_cases hread : b.unread l.receiver = []
  · -- Everything was read before, so what is left comes of the work.
    have hend := relay_of_read hread 127
    unfold round at h ⊢
    rw [show turnLength = 127 + 1 from rfl, hend] at h ⊢
    dsimp only at h ⊢
    rcases (hwork (b, l)).eq_or_toil_lt hl with hsame | hlt
    · have hnone := congrArg (fun y => y.1.published.toList) hsame
      dsimp only at hnone
      rw [Bus.publishAll_published, List.append_right_eq_self] at hnone
      exact absurd (by rw [Audience.work, hnone]; rfl) h
    · exact hlt
  · have hless := relay_toil_lt hread hl 127
    exact Nat.lt_of_le_of_lt ((hwork _).toil_le (hrelay.takesReports hl)) hless

/-- **Rounds come to rest** (`Listener.rounds`, `AtRest`) if nobody panics over reports. -/
theorem rounds_rest (l : Listener) (b : Bus) (hl : l.audience.TakesReports) :
    ∃ n, AtRest (l.rounds b (· ≠ .nothing) n) := by
  generalize ht : toil (b, l) = t
  induction t using Nat.strongRecOn generalizing l b with
  | ind t ih =>
    by_cases h : (l.round b).1 = .nothing
    · refine ⟨1, ?_⟩
      simpa [rounds, h] using atRest_of_round h
    · obtain ⟨n, hn⟩ := ih _ (ht ▸ round_toil_lt h hl) (l.round b).2.2 (l.round b).2.1
        ((Turns.round b l).takesReports hl) rfl
      refine ⟨n + 1, ?_⟩
      simpa [rounds, h] using hn

end Listener

/-- **The audience comes to rest** (`AtRest`), whatever its subscribers do, after as many steps as
there was toil and as others and panics over reports have added; before that, there is something to
do for the listener or a subscriber; and if no subscriber panics over reports, rounds get there. -/
theorem Course.quiesces {x y : Bus × Listener} {os : List Occurrence} (h : Course x os y) :
    os.length + toil y ≤ toil x + os.countP Occurrence.isFresh * freshCost x.2.audience.size ∧
      (AtRest y ∨
        (∃ o z, Occurs y o z ∧ ((∃ e, o = .passed e) ∨ ∃ n, o = .lagged n)) ∨
        (∃ i e z, Occurs y (.took i e) z) ∨ ∃ i e, ∀ how, ∃ z, Occurs y (.finished i e how) z) ∧
      (y.2.audience.TakesReports → ∃ n, AtRest (y.2.rounds y.1 (· ≠ .nothing) n)) :=
  ⟨h.length_add_toil, AtRest.or_occurs y, y.2.rounds_rest y.1⟩

/-- A subscriber with room for one event misses the second and panics over the first. It handles the
reports of that, and then all is at rest. -/
theorem Course.quiesces_reported :
    let e := Event.about .actorStarted .root
    let flaky : Subscriber := ⟨"flaky", 1, fun e => if e.isReport then .handled else .panicked "!"⟩
    let x := (Bus.ofCapacity 8).gather [flaky]
    let os := [.published e, .published e, .passed e, .passed e, .took 0 e,
      .finished 0 e (.panicked "!")]
    ∃ y, Course x os y ∧
      y.1.published.toList = [e, e, .overflow "flaky" "full", .panicked "flaky" "!"] ∧
      y.2.audience.TakesReports ∧ os.length + toil y ≤ toil x + 2 * freshCost 1 ∧
      ∃ n, AtRest (y.2.rounds y.1 (· ≠ .nothing) n) := by
  intro e flaky x os
  have h := ((Course.start (x := x)).next (.published _ _ e)).next (.published _ _ e)
  have h := (h.next (.passed rfl)).next (.passed rfl)
  have h := h.next (.took _ (i := 0) rfl rfl rfl)
  have h := h.next (.finished _ (i := 0) (.panicked "!") rfl rfl)
  obtain ⟨hle, -, hrest⟩ := h.quiesces
  have htakes : ∀ s ∈ [flaky], s.TakesReports := by
    rintro s hs e info hreport hpanic
    rw [List.mem_singleton.mp hs] at hpanic
    exact Reaction.noConfusion ((if_pos hreport).symm.trans hpanic)
  exact ⟨_, h, rfl, htakes, hle, hrest htakes⟩

/-! ## A subscriber that goes on forever -/

/-- A subscriber that panics over everything. -/
def Subscriber.touchy : Subscriber :=
  { name := "touchy", react := fun _ => .panicked "static text" }

/-- It has panicked so many times, and is about to be told of the last time (`Event.panicked`). -/
structure Touched (e : Event) (n : Nat) (x : Bus × Listener) : Prop where
  window : 0 < x.1.window
  published : x.1.published.toList = e :: List.replicate n (.panicked "touchy" "static text")
  unread : x.1.receivers.get? x.2.receiver = some n
  channels : ∃ handled, x.2.audience.channels = [⟨.touchy, [], none, true, handled⟩]

namespace Touched

variable {e : Event} {n : Nat} {b : Bus} {l : Listener}

theorem not_atRest {x : Bus × Listener} (h : Touched e n x) : ¬AtRest x := by
  intro hrest
  have hlength := congrArg List.length hrest.read
  rw [Bus.unread, h.unread, h.published, List.length_drop] at hlength
  simp at hlength

theorem size (h : Touched e n (b, l)) : b.published.size = n + 1 := by
  have hlength := congrArg List.length h.published
  rwa [Array.length_toList, List.length_cons, List.length_replicate] at hlength

/-- The listener passes on the one event that is new (`Listener.relay`), and the subscriber has it
before it. -/
theorem relay (h : Touched e n (b, l)) : ∃ e' handled, l.relay b turnLength =
    (true, { b with receivers := b.receivers.insert l.receiver (n + 1) },
      ⟨l.receiver, ⟨[⟨.touchy, [e'], none, true, handled⟩]⟩⟩) := by
  obtain ⟨handled, hchannels⟩ := h.channels
  have hsize := h.size
  have hwindow : 0 < b.window := h.window
  have hlt : n < b.published.size := by omega
  have hget : b.published[n]? = some (b.published[n]) :=
    Array.getElem?_eq_getElem _
  have hfirst : b.receive l.receiver = (.event (b.published[n]),
      { b with receivers := b.receivers.insert l.receiver (n + 1) }) := by
    unfold Bus.receive
    rw [h.unread]
    dsimp only
    rw [if_neg (by omega), hget]
  have hthen : ({ b with receivers := b.receivers.insert l.receiver (n + 1) } : Bus).receive
      l.receiver = (.empty, { b with receivers := b.receivers.insert l.receiver (n + 1) }) := by
    unfold Bus.receive
    rw [Table.get?_insert, if_pos rfl]
    dsimp only
    rw [if_neg (by omega), Array.getElem?_eq_none (by omega)]
  have hoffer : l.audience.offer (b.published[n]) =
      ([], ⟨[⟨.touchy, [b.published[n]], none, true, handled⟩]⟩) := by
    rw [show l.audience = ⟨[⟨.touchy, [], none, true, handled⟩]⟩ from congrArg Audience.mk hchannels]
    rfl
  rw [show turnLength = 126 + 1 + 1 from rfl, Listener.relay, hfirst]
  dsimp only
  rw [hoffer]
  dsimp only [Bus.publishAll, List.foldl_nil]
  rw [Listener.relay, hthen]
  exact ⟨_, _, rfl⟩

/-- The report of its panic makes it panic (`Listener.round`). -/
theorem round (h : Touched e n (b, l)) :
    (l.round b).1 = .reports ∧ Touched e (n + 1) (l.round b).2 := by
  obtain ⟨e', handled, hrelay⟩ := h.relay
  have hwork : (⟨[⟨.touchy, [e'], none, true, handled⟩]⟩ : Audience).work =
      ([.panicked "touchy" "static text"], ⟨[⟨.touchy, [], none, true, handled ++ [e']⟩]⟩) := by
    rfl
  unfold Listener.round
  rw [hrelay]
  dsimp only
  rw [hwork]
  refine ⟨rfl, h.window, ?_, ?_, _, rfl⟩
  · have hpublished : b.published.toList =
        e :: List.replicate n (.panicked "touchy" "static text") := h.published
    dsimp only
    rw [Bus.publishAll_published, hpublished, List.replicate_succ', List.cons_append]
  · dsimp only
    rw [Bus.publishAll_receivers, Table.get?_insert, if_pos rfl]

/-- **It never ends**: every round publishes another report (`Listener.rounds`). -/
theorem rounds (h : Touched e n (b, l)) (k : Nat) :
    Touched e (n + k) (l.rounds b (· ≠ .nothing) k) := by
  induction k generalizing b l n with
  | zero => exact h
  | succ k ih =>
    obtain ⟨hmore, hnext⟩ := h.round
    have hrest : Touched e (n + 1 + k)
        ((l.round b).2.2.rounds (l.round b).2.1 (· ≠ .nothing) k) := ih hnext
    rw [Nat.add_right_comm, Nat.add_assoc] at hrest
    rw [Listener.rounds]
    simpa [hmore] using hrest

end Touched

/-- **A subscriber that panics over reports of panics goes on forever** (`Subscriber.touchy`): one
event makes it panic, and after any number of rounds it has panicked that often, and is not at rest.
-/
theorem Listener.endless_feedback :
    let x := (Bus.ofCapacity 64).gather [.touchy]
    let e := Event.about .actorStarted .root
    ∀ n, let y := x.2.rounds (x.1.publish e) (· ≠ .nothing) n
      y.1.published.toList = e :: List.replicate n (.panicked "touchy" "static text") ∧
        ¬AtRest y := by
  intro x e n
  have hstart : Touched e 0 (x.1.publish e, x.2) := ⟨by decide, rfl, rfl, [], rfl⟩
  have hrounds := hstart.rounds n
  rw [Nat.zero_add] at hrounds
  exact ⟨hrounds.published, hrounds.not_atRest⟩

end Troupe
