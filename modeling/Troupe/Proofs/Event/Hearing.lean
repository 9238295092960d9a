import Mathlib.Data.List.Induction
import Troupe.Proofs.Event.Tidings

/-!
# What happens between a bus and its audience

Events are published, the listener passes them on, and subscribers take them from their queues
(`Channel.take`) and are done with them later (`Channel.finish`), in whatever order it comes to
that. `Occurs` lists what may happen at a time (each an `Occurrence`), and a `Course` is what
happens one after the other. A subscriber may be done with an event in any way (`Reaction`),
whatever it did before: so its reactions may depend on a state of its own. While it has an event in
its hands (`Channel.inHand`), anything else may happen.

The turns in which a platform lets its audience work are one order among many: `Turns` are courses
in which every subscriber reacts in its own way (`Occurrence.Own`).

Headlines:
* **`handle_succ`**: what `Channel.handle` does is taking an event and being done with it, again and
  again.
* **`Turns.round`**, **`Turns.rounds`**: what `Listener.round` and `Listener.rounds` do is such a
  course.
-/

namespace Troupe

/-! ## One at a time -/

/-- What happens between a `Bus`, its `Listener` and an `Audience`. -/
inductive Occurrence
  /-- An event is published by somebody else. -/
  | published (e : Event)
  /-- Another receiver comes, reads or leaves. -/
  | elsewhere
  /-- The listener passes an event of the bus on. -/
  | passed (e : Event)
  /-- The listener is told how many events it lost. -/
  | lagged (lost : Nat)
  /-- The subscriber of a number takes an event from its queue into its hands. -/
  | took (i : Nat) (e : Event)
  /-- The subscriber of a number is done with the event in its hands. -/
  | finished (i : Nat) (e : Event) (how : Reaction)

namespace Channel

variable {c c' : Channel} {e : Event} {rest : List Event}

/-- The channel after the subscriber took the first event of its queue into its hands
(`Channel.inHand`). -/
def holding (c : Channel) (e : Event) (rest : List Event) : Channel :=
  { c with queue := rest, inHand := some e }

/-- A subscriber handles what it has in its hands (`Channel.inHand`), or takes what is first in its
queue. -/
theorem take_cases (h : c.take = some (e, c')) :
    (c.inHand = some e ∧ c' = c) ∨
      ∃ rest, c.inHand = none ∧ c.queue = e :: rest ∧ c' = c.holding e rest := by
  unfold take at h
  split at h
  · rename_i hhand
    obtain ⟨rfl, rfl⟩ := Prod.mk.inj (Option.some.inj h)
    exact Or.inl ⟨hhand, rfl⟩
  · rename_i hhand hqueue
    obtain ⟨rfl, rfl⟩ := Prod.mk.inj (Option.some.inj h)
    exact Or.inr ⟨_, hhand, hqueue, rfl⟩
  · exact absurd h nofun

theorem inHand_take (h : c.take = some (e, c')) : c'.inHand = some e := by
  rcases take_cases h with ⟨hhand, rfl⟩ | ⟨_, -, -, rfl⟩
  · exact hhand
  · rfl

@[simp] theorem subscriber_offer (c : Channel) (e : Event) :
    (c.offer e).2.subscriber = c.subscriber := by
  unfold offer
  split <;> rfl

@[simp] theorem subscriber_finish (c : Channel) (e : Event) (how : Reaction) :
    (c.finish e how).2.subscriber = c.subscriber := by
  cases how <;> rfl

/-- **Handling** (`Channel.handle`) is taking an event and being done with it in the subscriber's
way, again and again. -/
theorem handle_succ (h : c.take = some (e, c')) (n : Nat) : c.handle (n + 1) =
    ((c'.finish e (c'.subscriber.react e)).1 ++
        ((c'.finish e (c'.subscriber.react e)).2.handle n).1,
      ((c'.finish e (c'.subscriber.react e)).2.handle n).2) := by
  rw [handle, h]

theorem handle_of_take (h : c.take = none) (n : Nat) : c.handle n = ([], c) := by
  cases n with
  | zero => rfl
  | succ n => rw [handle, h]

end Channel

/-- What may happen at a time, one case for each `Occurrence`. -/
inductive Occurs : Bus × Listener → Occurrence → Bus × Listener → Prop
  | published (b : Bus) (l : Listener) (e : Event) : Occurs (b, l) (.published e) (b.publish e, l)
  | elsewhere {b b' : Bus} {l : Listener} : b'.published = b.published → b'.window = b.window →
      b'.receivers.get? l.receiver = b.receivers.get? l.receiver →
      Occurs (b, l) .elsewhere (b', l)
  | passed {b b' : Bus} {l : Listener} {e : Event} :
      b.receive l.receiver = (.event e, b') → Occurs (b, l) (.passed e)
        (b'.publishAll (l.audience.offer e).1, { l with audience := (l.audience.offer e).2 })
  | lagged {b b' : Bus} {l : Listener} {lost : Nat} :
      b.receive l.receiver = (.lagged lost, b') → Occurs (b, l) (.lagged lost) (b', l)
  | took (b : Bus) {l : Listener} {i : Nat} {c : Channel} {e : Event} {rest : List Event} :
      l.audience.channels[i]? = some c → c.inHand = none → c.queue = e :: rest →
      Occurs (b, l) (.took i e)
        (b, { l with audience := ⟨l.audience.channels.set i (c.holding e rest)⟩ })
  | finished (b : Bus) {l : Listener} {i : Nat} {c : Channel} {e : Event} (how : Reaction) :
      l.audience.channels[i]? = some c → c.inHand = some e →
      Occurs (b, l) (.finished i e how) (b.publishAll (c.finish e how).1,
        { l with audience := ⟨l.audience.channels.set i (c.finish e how).2⟩ })

/-- What happens one after the other (`Occurs`). -/
inductive Course (x : Bus × Listener) : List Occurrence → Bus × Listener → Prop
  | start : Course x [] x
  | next {os : List Occurrence} {y z : Bus × Listener} {o : Occurrence} :
      Course x os y → Occurs y o z → Course x (os ++ [o]) z

namespace Course

variable {x y z : Bus × Listener} {os os' : List Occurrence} {o : Occurrence}

theorem single (h : Occurs x o y) : Course x [o] y :=
  .next .start h

theorem trans (h : Course x os y) (h' : Course y os' z) : Course x (os ++ os') z := by
  induction h' with
  | start => rwa [List.append_nil]
  | next _ ho ih => exact List.append_assoc _ _ _ ▸ .next ih ho

/-- What happens before anything else. -/
theorem cons (h : Occurs x o y) (h' : Course y os z) : Course x (o :: os) z :=
  (single h).trans h'

end Course

/-- A bus that these subscribers begin to listen to (`Bus.subscribe`, `Audience.ofSubscribers`). -/
def Bus.gather (b : Bus) (subs : List Subscriber) : Bus × Listener :=
  (b.subscribe.2, ⟨b.subscribe.1, .ofSubscribers subs⟩)

/-! ## Turns -/

/-- The subscribers of an audience (`Channel.subscriber`), in order. -/
def Audience.subscribers (a : Audience) : List Subscriber :=
  a.channels.map Channel.subscriber

/-- What subscribers do, each in its own way (`Subscriber.react`), and their listener. -/
def Occurrence.Own (subs : List Subscriber) : Occurrence → Prop
  | published _ | elsewhere => False
  | passed _ | lagged _ | took _ _ => True
  | finished i e how => ∃ s, subs[i]? = some s ∧ s.react e = how

namespace Audience

theorem reversed_reversed (a : Audience) : a.reversed.reversed = a :=
  congrArg Audience.mk a.channels.reverse_reverse

theorem turn_eq (a : Audience) :
    a.turn = (a.channels.flatMap fun c => (c.handle turnLength).1,
      ⟨a.channels.map fun c => (c.handle turnLength).2⟩) := by
  unfold turn onEach
  dsimp only
  rw [List.flatMap_map, List.map_map]
  rfl

theorem offer_eq (a : Audience) (e : Event) :
    a.offer e = (a.channels.flatMap fun c => (c.offer e).1,
      ⟨a.channels.map fun c => (c.offer e).2⟩) := by
  unfold offer onEach
  dsimp only
  rw [List.flatMap_map, List.map_map]
  rfl

theorem workFor_succ {a : Audience} (h : ¬a.isQuiet) (n : Nat) :
    a.workFor (n + 1) = (a.turn.1 ++ (a.turn.2.reversed.workFor n).1,
      (a.turn.2.reversed.workFor n).2.reversed) := by
  rw [workFor, if_neg h]

end Audience

namespace Bus

variable {b b' : Bus} {r : Nat}

theorem publishAll_append (b : Bus) (es fs : List Event) :
    b.publishAll (es ++ fs) = (b.publishAll es).publishAll fs :=
  List.foldl_append

theorem receive_empty (h : b.receive r = (.empty, b')) : b' = b := by
  unfold receive at h
  grind

/-- A receiver that reads an event (`Bus.receive`) is past it then. -/
theorem receive_event {e : Event} (h : b.receive r = (.event e, b')) :
    ∃ seen, b.receivers.get? r = some seen ∧ b.published[seen]? = some e ∧
      b' = { b with receivers := b.receivers.insert r (seen + 1) } := by
  unfold receive at h
  grind

/-- A receiver that is told of losses (`Received.lagged`) goes on with the oldest event kept. -/
theorem receive_lagged {lost : Nat} (h : b.receive r = (.lagged lost, b')) :
    ∃ seen, b.receivers.get? r = some seen ∧ seen < b.published.size - b.window ∧
      b' = { b with receivers := b.receivers.insert r (b.published.size - b.window) } := by
  unfold receive at h
  grind

@[simp] theorem publish_receivers (b : Bus) (e : Event) :
    (b.publish e).receivers = b.receivers := rfl

@[simp] theorem publishAll_receivers (b : Bus) (es : List Event) :
    (b.publishAll es).receivers = b.receivers := by
  induction es generalizing b with
  | nil => rfl
  | cons e es ih => exact ih (b.publish e)

@[simp] theorem publishAll_published (b : Bus) (es : List Event) :
    (b.publishAll es).published.toList = b.published.toList ++ es := by
  induction es generalizing b with
  | nil => exact (List.append_nil _).symm
  | cons e es ih =>
    refine (ih (b.publish e)).trans ?_
    rw [publish, Array.toList_push, List.append_assoc, List.singleton_append]

end Bus

theorem Audience.subscribers_set {cs : List Channel} {i : Nat} {c c' : Channel}
    (h : cs[i]? = some c) (hsame : c'.subscriber = c.subscriber) :
    subscribers ⟨cs.set i c'⟩ = subscribers ⟨cs⟩ := by
  obtain ⟨hi, rfl⟩ := List.getElem?_eq_some_iff.mp h
  unfold subscribers
  rw [List.map_set, hsame, ← List.getElem_map Channel.subscriber (h := by simpa using hi),
    List.set_getElem_self]

/-- Everybody stays who it is (`Audience.subscribers`). -/
theorem Occurs.subscribers {x y : Bus × Listener} {o : Occurrence} (h : Occurs x o y) :
    y.2.audience.subscribers = x.2.audience.subscribers := by
  cases h with
  | published => rfl
  | elsewhere => rfl
  | lagged => rfl
  | passed =>
    simp only [Audience.subscribers, Audience.offer, Audience.onEach, List.map_map]
    exact List.map_congr_left fun c _ => c.subscriber_offer _
  | took b hc => exact Audience.subscribers_set hc rfl
  | finished b how hc => exact Audience.subscribers_set hc (Channel.subscriber_finish _ _ how)

/-- A course of what an audience and its listener do by themselves (`Occurrence.Own`). -/
def Turns (x y : Bus × Listener) : Prop :=
  ∃ os, Course x os y ∧ ∀ o ∈ os, o.Own x.2.audience.subscribers

namespace Turns

variable {x y z : Bus × Listener}

theorem refl (x : Bus × Listener) : Turns x x :=
  ⟨[], .start, fun _ ho => absurd ho List.not_mem_nil⟩

theorem single {o : Occurrence} (h : Occurs x o y) (ho : o.Own x.2.audience.subscribers) :
    Turns x y :=
  ⟨[o], .single h, fun _ hx => List.mem_singleton.mp hx ▸ ho⟩

theorem subscribers (h : Turns x y) :
    y.2.audience.subscribers = x.2.audience.subscribers := by
  obtain ⟨os, hos, -⟩ := h
  induction hos with
  | start => rfl
  | next _ ho ih => exact ho.subscribers.trans ih

theorem trans (h : Turns x y) (h' : Turns y z) : Turns x z := by
  obtain ⟨os, hos, hown⟩ := h
  obtain ⟨os', hos', hown'⟩ := h'
  have hsame := subscribers ⟨os, hos, hown⟩
  refine ⟨os ++ os', hos.trans hos', fun o ho => ?_⟩
  rcases List.mem_append.mp ho with ho | ho
  · exact hown o ho
  · exact hsame ▸ hown' o ho

section Handling

variable (b : Bus) (r : Nat) (pre post : List Channel) (c : Channel)

theorem getElem?_between : (pre ++ c :: post)[pre.length]? = some c := by
  rw [List.getElem?_append_right (Nat.le_refl _), Nat.sub_self, List.getElem?_cons_zero]

theorem set_between (c' : Channel) : (pre ++ c :: post).set pre.length c' = pre ++ c' :: post := by
  rw [List.set_append_right _ _ (Nat.le_refl _), Nat.sub_self, List.set_cons_zero]

/-- A subscriber takes the event that it handles next (`Channel.take`), unless it has it in its
hands. -/
theorem take {c c' : Channel} {e : Event} (h : c.take = some (e, c')) :
    Turns (b, ⟨r, ⟨pre ++ c :: post⟩⟩) (b, ⟨r, ⟨pre ++ c' :: post⟩⟩) := by
  rcases Channel.take_cases h with ⟨-, rfl⟩ | ⟨rest, hhand, hqueue, rfl⟩
  · exact .refl _
  · have hstep := Occurs.took b (l := ⟨r, ⟨pre ++ c :: post⟩⟩) (getElem?_between pre post c) hhand
      hqueue
    rw [set_between] at hstep
    exact .single hstep trivial

/-- A subscriber is done with the event in its hands (`Channel.finish`), in its own way. -/
theorem finish {e : Event} (h : c.inHand = some e) :
    Turns (b, ⟨r, ⟨pre ++ c :: post⟩⟩)
      (b.publishAll (c.finish e (c.subscriber.react e)).1,
        ⟨r, ⟨pre ++ (c.finish e (c.subscriber.react e)).2 :: post⟩⟩) := by
  have hget := getElem?_between pre post c
  have hstep := Occurs.finished b (l := ⟨r, ⟨pre ++ c :: post⟩⟩) (c.subscriber.react e) hget h
  rw [set_between] at hstep
  have hown : ((pre ++ c :: post).map Channel.subscriber)[pre.length]? = some c.subscriber := by
    rw [List.getElem?_map, hget, Option.map_some]
  exact .single hstep ⟨c.subscriber, hown, rfl⟩

/-- A subscriber handles what is before it (`Channel.handle`). -/
theorem handle (n : Nat) : Turns (b, ⟨r, ⟨pre ++ c :: post⟩⟩)
    (b.publishAll (c.handle n).1, ⟨r, ⟨pre ++ (c.handle n).2 :: post⟩⟩) := by
  induction n generalizing b c with
  | zero => exact .refl _
  | succ n ih =>
    cases htake : c.take with
    | none =>
      rw [Channel.handle_of_take htake]
      exact .refl _
    | some x =>
      obtain ⟨e, c'⟩ := x
      rw [Channel.handle_succ htake, Bus.publishAll_append]
      have hfinish := finish b r pre post c' (Channel.inHand_take htake)
      exact (take b r pre post htake).trans (hfinish.trans (ih _ _))

end Handling

/-- Subscribers have a turn, from the first one on. -/
theorem forward (b : Bus) (r : Nat) (pre rest : List Channel) (n : Nat) :
    Turns (b, ⟨r, ⟨pre ++ rest⟩⟩)
      (b.publishAll (rest.flatMap fun c => (c.handle n).1),
        ⟨r, ⟨pre ++ rest.map fun c => (c.handle n).2⟩⟩) := by
  induction rest generalizing b pre with
  | nil => exact .refl _
  | cons c rest ih =>
    have hrest := ih (b.publishAll (c.handle n).1) (pre ++ [(c.handle n).2])
    rw [List.append_assoc, List.append_assoc] at hrest
    rw [List.flatMap_cons, Bus.publishAll_append]
    exact (handle b r pre rest c n).trans hrest

/-- Subscribers have a turn, from the last one on. -/
theorem backward (b : Bus) (r : Nat) (rest post : List Channel) (n : Nat) :
    Turns (b, ⟨r, ⟨rest ++ post⟩⟩)
      (b.publishAll (rest.reverse.flatMap fun c => (c.handle n).1),
        ⟨r, ⟨(rest.map fun c => (c.handle n).2) ++ post⟩⟩) := by
  induction rest using List.reverseRecOn generalizing b post with
  | nil => exact .refl _
  | append_singleton rest c ih =>
    have hrest := ih (b.publishAll (c.handle n).1) ((c.handle n).2 :: post)
    simp only [List.reverse_append, List.reverse_singleton, List.singleton_append,
      List.flatMap_cons, Bus.publishAll_append, List.map_append, List.map_singleton,
      List.append_assoc]
    exact (handle b r rest post c n).trans hrest

/-- Subscribers work (`Audience.workFor`), from either side. -/
theorem work (b : Bus) (r : Nat) (a : Audience) (n : Nat) :
    Turns (b, ⟨r, a⟩) (b.publishAll (a.workFor n).1, ⟨r, (a.workFor n).2⟩) ∧
      Turns (b, ⟨r, a⟩)
        (b.publishAll (a.reversed.workFor n).1, ⟨r, (a.reversed.workFor n).2.reversed⟩) := by
  induction n generalizing b a with
  | zero => exact ⟨.refl _, a.reversed_reversed.symm ▸ .refl _⟩
  | succ n ih =>
    constructor
    · by_cases hq : a.isQuiet
      · rw [Audience.workFor, if_pos hq]
        exact .refl _
      · rw [Audience.workFor_succ hq, Bus.publishAll_append, Audience.turn_eq]
        exact (forward b r [] a.channels turnLength).trans (ih _ _).2
    · by_cases hq : a.reversed.isQuiet
      · rw [Audience.workFor, if_pos hq]
        exact a.reversed_reversed.symm ▸ .refl _
      · have hturn := backward b r a.channels [] turnLength
        rw [List.append_nil, List.append_nil] at hturn
        rw [Audience.workFor_succ hq, Bus.publishAll_append, Audience.reversed_reversed]
        rw [Audience.turn_eq]
        unfold Audience.reversed
        rw [List.map_reverse, List.reverse_reverse]
        exact hturn.trans (ih _ _).1

/-- The listener passes on what the bus holds (`Listener.relay`). -/
theorem relay (b : Bus) (l : Listener) (n : Nat) :
    Turns (b, l) ((l.relay b n).2.1, (l.relay b n).2.2) := by
  induction n generalizing b l with
  | zero => exact .refl _
  | succ n ih =>
    rw [Listener.relay]
    split
    · rename_i h
      rw [Bus.receive_empty h]
      exact .refl _
    · rename_i h
      exact .trans (.single (.lagged h) trivial) (ih _ _)
    · rename_i h
      exact .trans (.single (.passed h) trivial) (ih _ _)

/-- **A round** (`Listener.round`) is a course of what the listener and the audience do. -/
theorem round (b : Bus) (l : Listener) : Turns (b, l) (l.round b).2 :=
  (relay b l turnLength).trans (work _ _ _ _).1

/-- **Rounds** (`Listener.rounds`), as in a pause of the platform, are. -/
theorem rounds (b : Bus) (l : Listener) (more : Remainder → Bool) (n : Nat) :
    Turns (b, l) (l.rounds b more n) := by
  induction n generalizing b l with
  | zero => exact .refl _
  | succ n ih =>
    rw [Listener.rounds]
    dsimp only
    split
    · exact (round b l).trans (ih _ _)
    · exact round b l

end Turns

end Troupe
