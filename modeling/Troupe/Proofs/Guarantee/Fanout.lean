import Troupe.Stage.Basic
import Troupe.Table.Lemmas
import Troupe.Proofs.Event.Hearing

/-!
# What each subscriber receives

A book is kept for each subscriber (`Book`): which events were reported to it (`Book.offered`),
which of them its queue took in (`Book.queued`) and why it refused the others (`Book.refusal?`),
which it took into its hands (`Book.taken`, `Book.inHand`), and how it was done with them
(`Book.handled`). Such a book knows the capacity of the queue and what happens to that one
subscriber (`Book.keep`), and nothing of the others, of the bus, or of the channel. What the source
keeps for a subscriber is the sending half of a bounded queue and its worker (`SubscriberSet`,
`emit_arc`).

Whatever happens between a bus and its audience while the listener loses nothing (`Course`), the
listener passes on what is published in the order of the bus (`Course.heard`), the channel of every
subscriber is the one that its book describes (`Course.books`), and what the audience publishes are
the reports that the books give reason for, each exactly once (`Course.said`). An event in a
subscriber's hands is a state of its channel: `Book.Stands` says what a book amounts to, with what
is at hand and what is queued, and each occurrence leads from one such state to the next
(`Book.Stands.took`, `Book.Stands.done`, `Book.Stands.queued_entry`).

Headlines:
* **`Course.fanned_out`**: what each subscriber is offered, takes in and is done with, and what is
  told of it.
* `Stage.listen_turns`: what an operation does with the audience is such a course.
-/

namespace Troupe

/-- What happens to one subscriber: an event is offered to it (`offered`), it takes one from its
queue (`took`), it is done with one (`finished`). -/
inductive Encounter
  /-- An event is reported to it. -/
  | offered (e : Event)
  /-- It takes an event from its queue into its hands. -/
  | took (e : Event)
  /-- It is done with the event in its hands. -/
  | finished (e : Event) (how : Reaction)

namespace Occurrence

/-- What an `Occurrence` is to the subscriber of a number, an `Encounter` or nothing. -/
def at? (i : Nat) : Occurrence → Option Encounter
  | passed e => some (.offered e)
  | took j e => if j = i then some (.took e) else none
  | finished j e how => if j = i then some (.finished e how) else none
  | published _ | elsewhere | lagged _ => none

/-- The event that somebody else publishes (`Occurrence.published`). -/
def published? : Occurrence → Option Event
  | published e => some e
  | _ => none

/-- The event that the listener passes on (`Occurrence.passed`). -/
def passed? : Occurrence → Option Event
  | passed e => some e
  | _ => none

end Occurrence

/-! ## Books -/

/-- How many events the queue of a subscriber holds, as `Channel.offer` has it: at least one. -/
def Subscriber.room (s : Subscriber) : Nat :=
  max s.capacity 1

/-- What is written down of a subscriber after an `Encounter`. -/
inductive Book.Entry
  /-- The event found room in its queue. -/
  | queued (e : Event)
  /-- The event did not, for that reason. -/
  | refused (e : Event) (reason : String)
  /-- It took the event into its hands. -/
  | took (e : Event)
  /-- It handled the event. -/
  | handled (e : Event)
  /-- It panicked while it handled the event. -/
  | panicked (e : Event) (info : String)
  /-- It ended before it handled the event. -/
  | died (e : Event)

/-- All that is written down of a subscriber, in order (`Book.Entry`). -/
abbrev Book := List Book.Entry

namespace Book

/-- The event reported to the subscriber, whether it was `queued` or `refused`. -/
def Entry.offered? : Entry → Option Event
  | queued e | refused e _ => some e
  | _ => none

/-- The event that found room. -/
def Entry.queued? : Entry → Option Event
  | queued e => some e
  | _ => none

/-- The event that was taken from the queue. -/
def Entry.taken? : Entry → Option Event
  | took e => some e
  | _ => none

/-- The event that was handled, with a panic or without. -/
def Entry.handled? : Entry → Option Event
  | handled e | panicked e _ => some e
  | _ => none

/-- Whether the subscriber ended (`ended`). -/
def Entry.isEnd : Entry → Bool
  | died _ => true
  | _ => false

/-- What is to be published about it under the name of the subscriber: that an event found no room
(``Event.overflow``), unless it was itself such a report, and that there was a panic. -/
def Entry.report? (name : String) : Entry → Option Event
  | refused e reason => if e.isOverflow then none else some (.overflow name reason)
  | panicked _ info => some (.panicked name info)
  | _ => none

/-- The events reported to the subscriber (`Entry.offered?`). -/
def offered (b : Book) : List Event :=
  b.filterMap Entry.offered?

/-- The events that found room in its queue (`Entry.queued?`). -/
def queued (b : Book) : List Event :=
  b.filterMap Entry.queued?

/-- The events it took from its queue (`Entry.taken?`). -/
def taken (b : Book) : List Event :=
  b.filterMap Entry.taken?

/-- The events it handled (`Entry.handled?`). -/
def handled (b : Book) : List Event :=
  b.filterMap Entry.handled?

/-- What is to be published about it (`Entry.report?`). -/
def reports (name : String) (b : Book) : List Event :=
  b.filterMap (Entry.report? name)

/-- Whether it ended (`Entry.isEnd`). -/
def isOver (b : Book) : Bool :=
  b.any Entry.isEnd

/-- The events that are still in its queue: those `queued` and not `taken`, unless it `isOver`. -/
def queue (b : Book) : List Event :=
  if b.isOver then [] else b.queued.drop b.taken.length

/-- The event in its hands: `taken` and not yet `handled`, unless it `isOver`. -/
def inHand (b : Book) : Option Event :=
  if b.isOver then none else (b.taken.drop b.handled.length).head?

/-- Why there is no room, if there is none: `"closed"` for one that `isOver`, `"full"` for one whose
`queue` is as long as its capacity. -/
def refusal? (capacity : Nat) (b : Book) : Option String :=
  if b.isOver then some "closed"
  else if capacity ≤ b.queue.length then some "full"
  else none

/-- The `Entry` that is written down of an `Encounter`. -/
def entry (capacity : Nat) (b : Book) : Encounter → Entry
  | .offered e =>
    match b.refusal? capacity with
    | none => .queued e
    | some reason => .refused e reason
  | .took e => .took e
  | .finished e .handled => .handled e
  | .finished e (.panicked info) => .panicked e info
  | .finished e .died => .died e

/-- The book of what happens to a subscriber whose queue has that capacity, `entry` by `entry`. -/
def keep (capacity : Nat) (met : List Encounter) : Book :=
  met.foldl (fun b m => b ++ [b.entry capacity m]) []

/-- The `Channel` of a subscriber with this book. -/
def channel (s : Subscriber) (b : Book) : Channel where
  subscriber := s
  queue := b.queue
  inHand := b.inHand
  isOpen := !b.isOver
  handled := b.handled

/-- The subscriber `handled` the first events that its queue took in (`queued`). Unless it `isOver`,
the next one is in its hands (`inHand`), if any is, and the others wait (`queue`). -/
structure InOrder (b : Book) : Prop where
  handled : b.handled <+: b.queued
  taken : b.isOver = false → b.taken = b.handled ++ b.inHand.toList
  waiting : b.isOver = false → b.queued = b.handled ++ b.inHand.toList ++ b.queue

variable {b : Book} {s : Subscriber} {e : Event} {rest : List Event}

theorem keep_append (capacity : Nat) (met : List Encounter) (m : Encounter) :
    keep capacity (met ++ [m]) =
      keep capacity met ++ [(keep capacity met).entry capacity m] :=
  List.foldl_append

@[simp] theorem queued_append (b : Book) (x : Entry) :
    queued (b ++ [x]) = b.queued ++ x.queued?.toList := by
  cases x <;> simp [queued, Entry.queued?]

@[simp] theorem taken_append (b : Book) (x : Entry) :
    taken (b ++ [x]) = b.taken ++ x.taken?.toList := by
  cases x <;> simp [taken, Entry.taken?]

@[simp] theorem handled_append (b : Book) (x : Entry) :
    handled (b ++ [x]) = b.handled ++ x.handled?.toList := by
  cases x <;> simp [handled, Entry.handled?]

@[simp] theorem isOver_append (b : Book) (x : Entry) :
    isOver (b ++ [x]) = (b.isOver || x.isEnd) := by
  simp [isOver]

theorem queue_of_live (h : b.isOver = false) : b.queue = b.queued.drop b.taken.length := by
  rw [queue, h]
  rfl

theorem inHand_of_live (h : b.isOver = false) :
    b.inHand = (b.taken.drop b.handled.length).head? := by
  rw [inHand, h]
  rfl

theorem live_of_queue (h : b.queue = e :: rest) : b.isOver = false := by
  cases hover : b.isOver with
  | false => rfl
  | true => simp [queue, hover] at h

theorem live_of_inHand (h : b.inHand = some e) : b.isOver = false := by
  cases hover : b.isOver with
  | false => rfl
  | true => simp [inHand, hover] at h

/-- What a book says of a subscriber that goes on: what is in its hands, and what is in its queue.
-/
structure Stands (b : Book) (hand : Option Event) (queue : List Event) : Prop where
  live : b.isOver = false
  taken : b.taken = b.handled ++ hand.toList
  queued : b.queued = b.handled ++ hand.toList ++ queue

variable {hand : Option Event} {queue : List Event}

theorem Stands.inHand_eq (h : b.Stands hand queue) : b.inHand = hand := by
  rw [inHand_of_live h.live, h.taken, List.drop_left]
  cases hand <;> rfl

theorem Stands.queue_eq (h : b.Stands hand queue) : b.queue = queue := by
  rw [queue_of_live h.live, h.queued, h.taken, List.drop_left]

theorem Stands.inOrder (h : b.Stands hand queue) : b.InOrder where
  handled := by
    rw [h.queued, List.append_assoc]
    exact List.prefix_append _ _
  taken _ := by rw [h.inHand_eq, h.taken]
  waiting _ := by rw [h.inHand_eq, h.queue_eq, h.queued]

theorem InOrder.stands (h : b.InOrder) (hlive : b.isOver = false) : b.Stands b.inHand b.queue :=
  ⟨hlive, h.taken hlive, h.waiting hlive⟩

theorem inOrder_of_over (hover : b.isOver = true) (h : b.handled <+: b.queued) : b.InOrder :=
  ⟨h, fun hlive => absurd (hover.symm.trans hlive) nofun,
    fun hlive => absurd (hover.symm.trans hlive) nofun⟩

/-! ### Entries -/

theorem Stands.queued_entry (h : b.Stands hand queue) (e : Event) :
    Stands (b ++ [.queued e]) hand (queue ++ [e]) := by
  refine ⟨?_, ?_, ?_⟩ <;>
    simp [h.live, h.taken, h.queued, Entry.isEnd, Entry.taken?, Entry.handled?, Entry.queued?]

theorem Stands.refused (h : b.Stands hand queue) (e : Event) (reason : String) :
    Stands (b ++ [.refused e reason]) hand queue := by
  refine ⟨?_, ?_, ?_⟩ <;>
    simp [h.live, h.taken, h.queued, Entry.isEnd, Entry.taken?, Entry.handled?, Entry.queued?]

theorem Stands.took (h : b.Stands none (e :: rest)) : Stands (b ++ [.took e]) (some e) rest := by
  refine ⟨?_, ?_, ?_⟩ <;>
    simp [h.live, h.taken, h.queued, Entry.isEnd, Entry.taken?, Entry.handled?, Entry.queued?]

/-- The event in the subscriber's hands is handled (`Entry.handled?`). -/
theorem Stands.done (h : b.Stands (some e) queue) {x : Entry} (hx : x.handled? = some e)
    (htaken : x.taken? = none) (hqueued : x.queued? = none) (hend : x.isEnd = false) :
    Stands (b ++ [x]) none queue := by
  refine ⟨?_, ?_, ?_⟩ <;> simp [h.live, h.taken, h.queued, hx, htaken, hqueued, hend]

/-! ## Channels keep to the book -/

theorem refusal?_channel (s : Subscriber) (b : Book) :
    (b.channel s).refusal? = b.refusal? s.room := by
  unfold Channel.refusal? refusal? channel Channel.capacity Subscriber.room
  cases b.isOver <;> rfl

theorem Stands.channel (h : b.Stands hand queue) (s : Subscriber) :
    b.channel s = ⟨s, queue, hand, true, b.handled⟩ := by
  unfold Book.channel
  rw [h.queue_eq, h.inHand_eq, h.live]
  rfl

/-- A channel takes in an event, or reports it (`Channel.offer`), as it is written down
(`Book.entry`). -/
theorem offer_channel (h : b.InOrder) (s : Subscriber) (e : Event) :
    (b.channel s).offer e =
      (reports s.name [b.entry s.room (.offered e)],
        channel s (b ++ [b.entry s.room (.offered e)])) := by
  unfold Channel.offer entry
  rw [refusal?_channel]
  cases hroom : b.refusal? s.room with
  | none =>
    have hlive : b.isOver = false := by
      cases hover : b.isOver with
      | false => rfl
      | true => simp [refusal?, hover] at hroom
    have hstands := h.stands hlive
    dsimp only
    rw [hstands.channel, (hstands.queued_entry e).channel]
    simp [reports, Entry.report?, Entry.handled?]
  | some reason =>
    have hchannel : channel s (b ++ [.refused e reason]) = b.channel s := by
      simp [channel, queue, inHand, Entry.isEnd, Entry.queued?, Entry.taken?, Entry.handled?]
    dsimp only
    rw [hchannel]
    split <;> simp_all [reports, Entry.report?, channel]

/-- A subscriber takes an event from its channel (`Channel.take`) as it is written down
(`Book.entry`). -/
theorem take_channel (h : b.InOrder) (s : Subscriber) (hhand : b.inHand = none)
    (hq : b.queue = e :: rest) :
    (b.channel s).holding e rest = channel s (b ++ [b.entry s.room (.took e)]) ∧
      InOrder (b ++ [b.entry s.room (.took e)]) := by
  have hstands := h.stands (live_of_queue hq)
  rw [hhand, hq] at hstands
  refine ⟨?_, hstands.took.inOrder⟩
  rw [hstands.channel, entry, hstands.took.channel]
  simp [Channel.holding, Entry.handled?]

/-- A subscriber is done with an event (`Channel.finish`) as it is written down (`Book.entry`). -/
theorem finish_channel (h : b.InOrder) (s : Subscriber) (hhand : b.inHand = some e)
    (how : Reaction) :
    (b.channel s).finish e how =
      (reports s.name [b.entry s.room (.finished e how)],
        channel s (b ++ [b.entry s.room (.finished e how)])) ∧
      InOrder (b ++ [b.entry s.room (.finished e how)]) := by
  have hstands := h.stands (live_of_inHand hhand)
  rw [hhand] at hstands
  rw [hstands.channel]
  cases how with
  | handled =>
    have hdone : Stands (b ++ [.handled e]) none b.queue := hstands.done rfl rfl rfl rfl
    rw [entry, hdone.channel]
    refine ⟨?_, hdone.inOrder⟩
    simp [Channel.finish, reports, Entry.report?, Entry.handled?]
  | panicked info =>
    have hdone : Stands (b ++ [.panicked e info]) none b.queue := hstands.done rfl rfl rfl rfl
    rw [entry, hdone.channel]
    refine ⟨?_, hdone.inOrder⟩
    simp [Channel.finish, reports, Entry.report?, Entry.handled?]
  | died =>
    have hover : isOver (b ++ [.died e]) = true := by simp [Entry.isEnd]
    refine ⟨?_, inOrder_of_over hover ?_⟩
    · simp [Channel.finish, entry, channel, reports, Entry.report?, Entry.isEnd, Entry.handled?,
        queue, inHand]
    · simpa [entry, Entry.handled?, Entry.queued?] using h.handled

theorem InOrder.offered (h : b.InOrder) (capacity : Nat) (e : Event) :
    InOrder (b ++ [b.entry capacity (.offered e)]) := by
  cases hover : b.isOver with
  | true =>
    have hrefused : b.entry capacity (.offered e) = .refused e "closed" := by
      rw [entry, refusal?, hover, if_pos rfl]
    rw [hrefused]
    refine inOrder_of_over (by simp [hover]) ?_
    simpa [Entry.handled?, Entry.queued?] using h.handled
  | false =>
    have hstands := h.stands hover
    rw [entry]
    split
    · exact (hstands.queued_entry e).inOrder
    · exact (hstands.refused e _).inOrder

end Book

/-- The book of the subscriber of a number, kept of a list of occurrences (`Book.keep`,
`Occurrence.at?`). -/
def Subscriber.book (s : Subscriber) (i : Nat) (os : List Occurrence) : Book :=
  .keep s.room (os.filterMap (Occurrence.at? i))

theorem Subscriber.book_append (s : Subscriber) (i : Nat) (os : List Occurrence) (o : Occurrence) :
    s.book i (os ++ [o]) = s.book i os ++
      ((o.at? i).map ((s.book i os).entry s.room)).toList := by
  unfold book
  rw [List.filterMap_append]
  cases ho : o.at? i with
  | none => simp [ho]
  | some m => simp [ho, Book.keep_append]

/-! ## Who said what -/

/-- What one of those who publish has said, if they are named: the subscribers by their numbers, and
nobody for all others. -/
def saidBy (who : Option Nat) (said : List (Option Nat × Event)) : List Event :=
  said.filterMap fun x => if x.1 = who then some x.2 else none

/-- What each of those who publish is to say: the subscribers their `Book.reports`, all others what
they have `published?`. -/
def due (subs : List Subscriber) (os : List Occurrence) : Option Nat → List Event
  | none => os.filterMap Occurrence.published?
  | some i => subs[i]?.elim [] fun s => (s.book i os).reports s.name

/-- What the subscriber of a number is to say about an occurrence (`Book.Entry.report?`). -/
def dueAt (subs : List Subscriber) (os : List Occurrence) (o : Occurrence) (i : Nat) : List Event :=
  subs[i]?.elim [] fun s =>
    Book.reports s.name ((o.at? i).map ((s.book i os).entry s.room)).toList

theorem due_append (subs : List Subscriber) (os : List Occurrence) (o : Occurrence)
    (who : Option Nat) : due subs (os ++ [o]) who = due subs os who ++
      who.elim o.published?.toList (dueAt subs os o) := by
  cases who with
  | none => cases ho : o.published? <;> simp [due, ho]
  | some i => cases hs : subs[i]? <;> simp [due, dueAt, hs, Subscriber.book_append, Book.reports]

@[simp] theorem saidBy_append (who : Option Nat) (said said' : List (Option Nat × Event)) :
    saidBy who (said ++ said') = saidBy who said ++ saidBy who said' :=
  List.filterMap_append

@[simp] theorem saidBy_map (who w : Option Nat) (es : List Event) :
    saidBy who (es.map (w, ·)) = if w = who then es else [] := by
  unfold saidBy
  rw [List.filterMap_map]
  split
  · rename_i h
    have hkeep : (fun x => if x.1 = who then some x.2 else none) ∘ (w, ·) = (some : Event → _) :=
      funext fun _ => if_pos h
    rw [hkeep, List.filterMap_some]
  · rename_i h
    exact List.filterMap_eq_nil_iff.mpr fun e _ => if_neg h

/-- What the channels of an audience have to say, each under its number, as in `Audience.offer`. -/
def eachSays (f : Channel → List Event) (cs : List Channel) : List (Option Nat × Event) :=
  cs.zipIdx.flatMap fun x => (f x.1).map (some x.2, ·)

theorem eachSays_append (f : Channel → List Event) (cs : List Channel) (c : Channel) :
    eachSays f (cs ++ [c]) = eachSays f cs ++ (f c).map (some cs.length, ·) := by
  simp [eachSays, List.zipIdx_append]

theorem eachSays_events (f : Channel → List Event) (cs : List Channel) :
    (eachSays f cs).map Prod.snd = cs.flatMap f := by
  induction cs using List.reverseRecOn with
  | nil => rfl
  | append_singleton cs c ih =>
    rw [eachSays_append, List.map_append, ih, List.flatMap_append]
    simp [Function.comp_def]

theorem saidBy_eachSays (f : Channel → List Event) (cs : List Channel) (who : Option Nat) :
    saidBy who (eachSays f cs) = who.elim [] fun i => cs[i]?.elim [] f := by
  induction cs using List.reverseRecOn with
  | nil => cases who <;> rfl
  | append_singleton cs c ih =>
    rw [eachSays_append, saidBy_append, saidBy_map, ih]
    cases who with
    | none => rfl
    | some i =>
      rw [Option.elim_some, Option.elim_some, List.getElem?_append]
      grind

/-! ## Whatever happens -/

namespace Course

variable {b : Bus} {subs : List Subscriber} {os : List Occurrence} {y : Bus × Listener}

/-- **Channels keep to the books** (`Book.channel`), and the books are in order (`Book.InOrder`). -/
theorem books (h : Course (b.gather subs) os y) (i : Nat) :
    (y.2.audience.channels[i]? = subs[i]?.map fun s => (s.book i os).channel s) ∧
      ∀ s, subs[i]? = some s → (s.book i os).InOrder := by
  induction h with
  | start =>
    have hempty : Book.Stands [] none [] := ⟨rfl, rfl, rfl⟩
    refine ⟨?_, fun s _ => hempty.inOrder⟩
    simp only [Bus.gather, Audience.ofSubscribers, List.getElem?_map]
    rfl
  | @next os y z o _ ho ih =>
    obtain ⟨hchannels, horder⟩ := ih
    -- An occurrence that does not concern the subscriber leaves its channel and its book alone.
    have aside (hz : z.2.audience.channels[i]? = y.2.audience.channels[i]?)
        (hat : o.at? i = none) :
        (z.2.audience.channels[i]? = subs[i]?.map fun s => (s.book i (os ++ [o])).channel s) ∧
          ∀ s, subs[i]? = some s → (s.book i (os ++ [o])).InOrder := by
      simp only [Subscriber.book_append, hat, Option.map_none, Option.toList_none,
        List.append_nil]
      exact ⟨hz.trans hchannels, horder⟩
    -- One that concerns a single subscriber changes its channel as a line in its book says.
    have alone {j : Nat} {c c' : Channel} {m : Encounter}
        (hc : y.2.audience.channels[j]? = some c)
        (hz : z.2.audience.channels = y.2.audience.channels.set j c')
        (hat : o.at? i = if j = i then some m else none)
        (hbook : ∀ s, (s.book j os).InOrder → c = (s.book j os).channel s →
          c' = Book.channel s (s.book j os ++ [(s.book j os).entry s.room m]) ∧
            Book.InOrder (s.book j os ++ [(s.book j os).entry s.room m])) :
        (z.2.audience.channels[i]? = subs[i]?.map fun s => (s.book i (os ++ [o])).channel s) ∧
          ∀ s, subs[i]? = some s → (s.book i (os ++ [o])).InOrder := by
      by_cases hj : j = i
      · subst hj
        obtain ⟨s, hs, hcs⟩ := Option.map_eq_some_iff.mp (hchannels.symm.trans hc)
        have hlt : j < y.2.audience.channels.length := (List.getElem?_eq_some_iff.mp hc).1
        obtain ⟨hchannel, hinOrder⟩ := hbook s (horder s hs) hcs.symm
        simp only [Subscriber.book_append, hat, if_pos, Option.map_some, Option.toList_some, hz,
          List.getElem?_set_self hlt, hs]
        refine ⟨congrArg some hchannel, fun s' hs' => ?_⟩
        cases hs'
        exact hinOrder
      · refine aside ?_ (hat.trans (if_neg hj))
        rw [hz, List.getElem?_set_ne hj]
    cases ho with
    | published => exact aside rfl rfl
    | elsewhere => exact aside rfl rfl
    | lagged => exact aside rfl rfl
    | @passed b b' l e hread =>
      simp only [Subscriber.book_append, Occurrence.at?, Option.map_some, Option.toList_some]
      refine ⟨?_, fun s hs => (horder s hs).offered s.room e⟩
      simp only [Audience.offer, Audience.onEach, List.getElem?_map, hchannels, Option.map_map]
      refine Option.map_congr fun s hs => ?_
      exact congrArg Prod.snd (Book.offer_channel (horder s hs) s e)
    | @took b l j c e rest hc hhand hq =>
      refine alone hc rfl rfl fun s hinOrder hcs => ?_
      subst hcs
      exact Book.take_channel hinOrder s hhand hq
    | @finished b l j c e how hc hhand =>
      refine alone hc rfl rfl fun s hinOrder hcs => ?_
      subst hcs
      obtain ⟨hfinish, hfinished⟩ := Book.finish_channel hinOrder s hhand how
      exact ⟨congrArg Prod.snd hfinish, hfinished⟩

/-- What is published is what everybody has to say (`due`). -/
theorem said (h : Course (b.gather subs) os y) :
    ∃ said, y.1.published.toList = b.published.toList ++ said.map Prod.snd ∧
      ∀ who, saidBy who said = due subs os who := by
  induction h with
  | start =>
    refine ⟨[], (List.append_nil _).symm, fun who => ?_⟩
    cases who with
    | none => rfl
    | some i => cases hs : subs[i]? <;> simp [due, hs] <;> rfl
  | @next os y z o hos ho ih =>
    obtain ⟨said, hsaid, hdue⟩ := ih
    -- It is enough to name who says what in the occurrence.
    have more (now : List (Option Nat × Event))
        (hnow : z.1.published.toList = y.1.published.toList ++ now.map Prod.snd)
        (hby : ∀ who, saidBy who now = who.elim o.published?.toList (dueAt subs os o)) :
        ∃ said, z.1.published.toList = b.published.toList ++ said.map Prod.snd ∧
          ∀ who, saidBy who said = due subs (os ++ [o]) who :=
      ⟨said ++ now, by rw [hnow, hsaid, List.map_append, List.append_assoc],
        fun who => by rw [saidBy_append, hdue, hby, due_append]⟩
    have quiet {i : Nat} (hat : o.at? i = none) : dueAt subs os o i = [] := by
      unfold dueAt
      rw [hat]
      cases subs[i]? <;> rfl
    -- Where no subscriber has anything to say, only somebody else can have published.
    have silent (hnow : z.1.published.toList = y.1.published.toList ++ o.published?.toList)
        (hquiet : ∀ i, dueAt subs os o i = []) :
        ∃ said, z.1.published.toList = b.published.toList ++ said.map Prod.snd ∧
          ∀ who, saidBy who said = due subs (os ++ [o]) who := by
      refine more (o.published?.toList.map (none, ·)) ?_ fun who => ?_
      · rw [hnow, List.map_map]
        exact congrArg _ (List.map_id' _).symm
      · rw [saidBy_map]
        cases who with
        | none => rfl
        | some i => exact (hquiet i).symm
    cases ho with
    | published b l e => exact silent Array.toList_push fun _ => quiet rfl
    | elsewhere hsame =>
      exact silent ((congrArg Array.toList hsame).trans (List.append_nil _).symm) fun _ => quiet rfl
    | @lagged b b' l lost hread =>
      have hsame := b.receive_published l.receiver
      rw [hread] at hsame
      exact silent ((congrArg Array.toList hsame).trans (List.append_nil _).symm) fun _ => quiet rfl
    | @passed b b' l e hread =>
      refine more (eachSays (fun c => (c.offer e).1) l.audience.channels) ?_ fun who => ?_
      · have hsame := b.receive_published l.receiver
        rw [hread] at hsame
        rw [Bus.publishAll_published, hsame, eachSays_events]
        simp only [Audience.offer, Audience.onEach, List.flatMap_map]
      · rw [saidBy_eachSays]
        cases who with
        | none => rfl
        | some i =>
          obtain ⟨hchannel, horder⟩ := books hos i
          rw [Option.elim_some, Option.elim_some, hchannel, dueAt]
          cases hs : subs[i]? with
          | none => rfl
          | some s => exact congrArg Prod.fst (Book.offer_channel (horder s hs) s e)
    | @took b l j c e rest hc hhand hq =>
      -- Taking an event into one's hands is no reason to say anything.
      refine silent (List.append_nil _).symm fun i => ?_
      by_cases hj : j = i
      · unfold dueAt
        rw [Occurrence.at?, if_pos hj]
        cases subs[i]? <;> rfl
      · exact quiet (if_neg hj)
    | @finished b l j c e how hc hhand =>
      refine more ((c.finish e how).1.map (some j, ·)) ?_ fun who => ?_
      · rw [Bus.publishAll_published, List.map_map]
        exact congrArg _ (List.map_id' _).symm
      · rw [saidBy_map]
        split
        · subst who
          obtain ⟨hchannel, horder⟩ := books hos j
          obtain ⟨s, hs, rfl⟩ := Option.map_eq_some_iff.mp (hchannel.symm.trans hc)
          rw [Option.elim_some, dueAt, hs, Option.elim_some, Occurrence.at?, if_pos rfl]
          exact congrArg Prod.fst (Book.finish_channel (horder s hs) s hhand how).1
        · rename_i hwho
          cases who with
          | none => rfl
          | some i => exact (quiet (if_neg fun hij => hwho (congrArg some hij))).symm

/-- **The listener loses nothing**, and passes on (`Occurrence.passed?`) what is published in order,
if it does not fall behind. -/
theorem heard (h : Course (b.gather subs) os y) (hlag : ∀ n, .lagged n ∉ os) :
    y.1.receivers.get? y.2.receiver =
        some (b.published.size + (os.filterMap Occurrence.passed?).length) ∧
      b.published.toList ++ os.filterMap Occurrence.passed? <+: y.1.published.toList := by
  induction h with
  | start =>
    refine ⟨?_, ?_⟩
    · simp [Bus.gather, Bus.subscribe]
    · simp [Bus.gather, Bus.subscribe]
  | @next os y z o hos ho ih =>
    obtain ⟨hseen, hpassed⟩ := ih fun n hn => hlag n (List.mem_append_left _ hn)
    -- Where nothing is passed on, the listener stays where it is, and more may be published.
    have stays (hnone : o.passed? = none)
        (hat : z.1.receivers.get? z.2.receiver = y.1.receivers.get? y.2.receiver)
        (hmore : y.1.published.toList <+: z.1.published.toList) :
        z.1.receivers.get? z.2.receiver = some (b.published.size +
            ((os ++ [o]).filterMap Occurrence.passed?).length) ∧
          b.published.toList ++ (os ++ [o]).filterMap Occurrence.passed? <+:
            z.1.published.toList := by
      rw [List.filterMap_append, List.filterMap_cons_none hnone, List.filterMap_nil,
        List.append_nil]
      exact ⟨hat.trans hseen, hpassed.trans hmore⟩
    cases ho with
    | published b' l e => exact stays rfl rfl ⟨[e], Array.toList_push.symm⟩
    | elsewhere hsame _ hreceiver =>
      exact stays rfl hreceiver (hsame ▸ List.prefix_refl _)
    | lagged => exact absurd (List.mem_append_right _ (List.mem_singleton_self _)) (hlag _)
    | @passed b' b'' l e hread =>
      have hsome : [Occurrence.passed e].filterMap Occurrence.passed? = [e] := rfl
      obtain ⟨seen, hat, hget, rfl⟩ := Bus.receive_event hread
      obtain rfl : seen = _ := Option.some.inj (hat.symm.trans hseen)
      obtain ⟨unread, hunread⟩ := hpassed
      rw [← Array.getElem?_toList, ← hunread, List.getElem?_append_right (by simp)] at hget
      obtain ⟨rest, rfl⟩ : ∃ rest, unread = e :: rest := by
        cases unread with
        | nil => simp at hget
        | cons e' rest => exact ⟨rest, by simp_all⟩
      rw [List.filterMap_append, hsome]
      refine ⟨by simp [Nat.add_assoc], ?_⟩
      rw [Bus.publishAll_published]
      exact .trans ⟨rest, by simpa using hunread⟩ (List.prefix_append _ _)
    | took => exact stays rfl rfl (List.prefix_refl _)
    | @finished b' l j c e how hc hhand =>
      refine stays rfl (congrArg (Table.get? · _) (Bus.publishAll_receivers _ _)) ?_
      rw [Bus.publishAll_published]
      exact List.prefix_append _ _

end Course

/-! ## Fan-out -/

/-- What subscribers that began to listen to a bus (`Bus.gather`) have received, and what became of
it, by their books (`Subscriber.book`). -/
structure FannedOut (b : Bus) (subs : List Subscriber) (os : List Occurrence)
    (y : Bus × Listener) : Prop where
  /-- Everybody has published just what they had to say, and the listener has passed on the first of
  that, in order. -/
  published : ∃ said unread, y.1.published.toList = b.published.toList ++ said.map Prod.snd ∧
    said.map Prod.snd = os.filterMap Occurrence.passed? ++ unread ∧
    ∀ who, saidBy who said = due subs os who
  /-- The channels are those of the subscribers, and as the books say. -/
  channels : ∀ i : Nat, y.2.audience.channels[i]? = subs[i]?.map fun s => (s.book i os).channel s
  /-- Every event that the listener passed on was reported to every subscriber. -/
  offered : ∀ (i : Nat) s, subs[i]? = some s →
    (s.book i os).offered = os.filterMap Occurrence.passed?
  /-- Every subscriber handles the events that its queue took in, and in that order. -/
  inOrder : ∀ (i : Nat) s, subs[i]? = some s → (s.book i os).InOrder
  /-- Among others, and on another bus, a subscriber that meets with the same has the same channel
  and the same to say. -/
  isolated : ∀ {b' : Bus} {subs' : List Subscriber} {os' : List Occurrence}
    {y' : Bus × Listener} {i j : Nat}, Course (b'.gather subs') os' y' → subs[i]? = subs'[j]? →
    os.filterMap (Occurrence.at? i) = os'.filterMap (Occurrence.at? j) →
    y.2.audience.channels[i]? = y'.2.audience.channels[j]? ∧
      due subs os (some i) = due subs' os' (some j)

theorem Book.offered?_entry (capacity : Nat) (b : Book) (m : Encounter) :
    (b.entry capacity m).offered? = match m with
      | .offered e => some e
      | .took _ | .finished _ _ => none := by
  cases m with
  | offered e =>
    rw [entry]
    split <;> rfl
  | took e => rfl
  | finished e how => cases how <;> rfl

theorem Book.offered_keep (capacity i : Nat) (os : List Occurrence) :
    (keep capacity (os.filterMap (Occurrence.at? i))).offered =
      os.filterMap Occurrence.passed? := by
  induction os using List.reverseRecOn with
  | nil => rfl
  | append_singleton os o ih =>
    rw [List.filterMap_append, List.filterMap_append, ← ih]
    cases o with
    | passed e => simp [Occurrence.at?, Occurrence.passed?, keep_append, offered, offered?_entry]
    | took j | finished j =>
      by_cases hj : j = i <;>
        simp [Occurrence.at?, Occurrence.passed?, keep_append, offered, offered?_entry, hj]
    | published | elsewhere | lagged =>
      simp only [List.filterMap_cons, Occurrence.at?, Occurrence.passed?, List.filterMap_nil,
        List.append_nil]

/-- **Every subscriber receives what is published**, in order, as far as its own queue has room, and
handles it in that order; what it misses and its panics are reported, once each; and none of that
depends on the other subscribers. -/
theorem Course.fanned_out {b : Bus} {subs : List Subscriber} {os : List Occurrence}
    {y : Bus × Listener} (h : Course (b.gather subs) os y) (hlag : ∀ n, .lagged n ∉ os) :
    FannedOut b subs os y where
  published := by
    obtain ⟨said, hsaid, hdue⟩ := h.said
    obtain ⟨unread, hunread⟩ := (h.heard hlag).2
    rw [hsaid, List.append_assoc] at hunread
    exact ⟨said, unread, hsaid, (List.append_cancel_left hunread).symm, hdue⟩
  channels i := (h.books i).1
  offered i s _ := Book.offered_keep s.room i os
  inOrder i := (h.books i).2
  isolated h' hsame hmet := by
    rw [(h.books _).1, (h'.books _).1, hsame]
    simp only [due, Subscriber.book, hsame, hmet, and_self]

/-- A subscriber with room for one event misses the second, and panics over the first after a third
was published. -/
theorem Course.fanned_out_full :
    let e := Event.about .actorStarted .root
    let slow : Subscriber := ⟨"slow", 1, fun _ => .handled⟩
    let os := [.published e, .published e, .passed e, .passed e, .took 0 e, .published e,
      .finished 0 e (.panicked "boom")]
    ∃ y, Course ((Bus.ofCapacity 8).gather [slow]) os y ∧ (∀ n, Occurrence.lagged n ∉ os) ∧
      FannedOut (.ofCapacity 8) [slow] os y ∧
      y.1.published.toList = [e, e, .overflow "slow" "full", e, .panicked "slow" "boom"] := by
  intro e slow os
  have hlag : ∀ n, Occurrence.lagged n ∉ os := by simp [os]
  have h := Course.start (x := (Bus.ofCapacity 8).gather [slow])
  have h := (h.next (.published _ _ e)).next (.published _ _ e)
  have h := (h.next (.passed rfl)).next (.passed rfl)
  have h := (h.next (.took _ (i := 0) rfl rfl rfl)).next (.published _ _ e)
  have h := h.next (.finished _ (i := 0) (.panicked "boom") rfl rfl)
  exact ⟨_, h, hlag, h.fanned_out hlag, rfl⟩

/-! ## On a stage -/

namespace Stage

variable {κ : App}

/-- A platform begins (`Stage.new`) with its subscribers gathered (`Bus.gather`). -/
theorem new_gathers (config : Config) (rootTrap : Option κ.Trap) {subs : List Subscriber}
    (hsubs : subs ≠ []) (w : κ.World) :
    ∃ l, (new config rootTrap subs w).listener = some l ∧
      ((new config rootTrap subs w).platform.bus, l) =
        (Platform.new config rootTrap).bus.gather subs := by
  unfold new
  rw [if_neg (by simpa using hsubs)]
  exact ⟨_, rfl, rfl⟩

theorem listen_turns {f : Listener → Bus → Bus × Listener} (hf : ∀ l b, Turns (b, l) (f l b))
    {s : Stage κ} {l : Listener} (h : s.listener = some l) :
    ∃ l', (s.listen f).listener = some l' ∧
      Turns (s.platform.bus, l) ((s.listen f).platform.bus, l') := by
  unfold listen
  rw [h]
  exact ⟨_, rfl, hf l s.platform.bus⟩

/-- What the audience does in a pause of the platform (`Stage.pause`) is one of the things that may
happen (`Turns`). -/
theorem pause_turns {s : Stage κ} {l : Listener} (h : s.listener = some l) :
    ∃ l', s.pause.listener = some l' ∧ Turns (s.platform.bus, l) (s.pause.platform.bus, l') :=
  listen_turns (fun l b => .rounds b l _ _) h

/-- So is what it does until nothing is left (`Stage.settle`). -/
theorem settle_turns {s : Stage κ} {l : Listener} (h : s.listener = some l) :
    ∃ l', s.settle.listener = some l' ∧ Turns (s.platform.bus, l) (s.settle.platform.bus, l') :=
  listen_turns (fun l b => .rounds b l _ _) h

end Stage

end Troupe
