import Mathlib.Data.List.Chain
import Troupe.Proofs.Guarantee.Slots
import Troupe.Proofs.Platform.Turns

/-!
# Everybody has a turn

Addresses that have slots wait in a queue (`Platform.runQueue`, the source's `run_q`), and slots
schedule more slots: for others, and for their own address. That address comes last when its slot
ends (`Flow.drainQueues`, the source's `drain`). So before it runs again all others that waited then
have had their turn, in the order in which they waited, whatever is scheduled, killed, created,
parked and freed in between.

What a step takes from the front of the queue is `served`, what it puts at the end is `enqueued`.
Over any stretch of a platform's life, what has been taken from the queue and what still waits is
what waited and what has queued since (`conserved`), since each step keeps it (`conserved_step`,
from `Platform.Ordered`).

Headline:
* **`Moment.turns_fair`**: all others that waited have had their turn first.
-/

namespace Troupe

variable {κ : App}

open Platform Troupe.Flow

/-! ## Reading off the queue -/

section Step

variable (s t : Stage κ)

/-- Who has a turn from one stage to the next: what has been taken from the `Platform.runQueue`. -/
def served : List Address :=
  s.platform.runQueue.take (s.platform.runQueue.length - t.platform.runQueue.length)

/-- Who queues up from one stage to the next: what has been put to the end of the
`Platform.runQueue`. -/
def enqueued : List Address :=
  t.platform.runQueue.drop s.platform.runQueue.length

end Step

variable {s t : Stage κ} {a b : Address}

theorem served_join (h : s.platform.runQueue <+: t.platform.runQueue) : served s t = [] := by
  unfold served
  rw [Nat.sub_eq_zero_of_le h.length_le, List.take_zero]

theorem served_turn (h : s.platform.runQueue = a :: t.platform.runQueue) : served s t = [a] := by
  unfold served
  rw [h, List.length_cons, Nat.add_sub_cancel_left]
  rfl

/-- Whoever is served has its turn (`Platform.HasTurn`). -/
theorem hasTurn_of_served (h : Ordered s.platform t.platform) (hb : b ∈ served s t) :
    HasTurn s.platform t.platform b := by
  rcases h with hjoin | ⟨a, hturn⟩
  · exact absurd hb (by simp [served_join hjoin])
  · rw [served_turn hturn.first, List.mem_singleton] at hb
    exact hb ▸ hturn

/-- From one stage to the next nobody is lost or jumps the queue (`Platform.Ordered`). -/
theorem conserved_step (h : Ordered s.platform t.platform) :
    s.platform.runQueue ++ enqueued s t = served s t ++ t.platform.runQueue := by
  rcases h with hjoin | ⟨a, hturn⟩
  · rw [served_join hjoin]
    exact List.prefix_iff_eq_append.mp hjoin
  · have hnone : enqueued s t = [] := by
      unfold enqueued
      rw [hturn.first]
      exact List.drop_eq_nil_of_le (Nat.le_succ _)
    rw [served_turn hturn.first, hnone, List.append_nil]
    exact hturn.first

/-- The run queue has been kept in order from each stage to the next (`Platform.Ordered`), the
latest first. -/
def InOrder (h : List (Stage κ)) : Prop :=
  h.IsChain fun t s => Ordered s.platform t.platform

/-- **The queue is first in, first out.** Those who waited, followed by those who have queued since
(`enqueued`), are those who have had a turn, followed by those who wait. -/
theorem conserved {h : List (Stage κ)} (ho : InOrder (t :: h))
    (hlast : (t :: h).getLast? = some s) :
    s.platform.runQueue ++ tally enqueued (t :: h) =
      tally served (t :: h) ++ t.platform.runQueue := by
  induction h generalizing t with
  | nil =>
    obtain rfl : t = s := by simpa using hlast
    exact List.append_nil _
  | cons u h ih =>
    obtain ⟨hstep, hrest⟩ := List.isChain_cons_cons.mp ho
    show s.platform.runQueue ++ (tally enqueued (u :: h) ++ enqueued u t) =
      tally served (u :: h) ++ served u t ++ t.platform.runQueue
    rw [← List.append_assoc, ih hrest (by simpa using hlast), List.append_assoc,
      conserved_step hstep, List.append_assoc]

/-- What came of a life came of some step of it (`tally`). -/
theorem mem_tally {β : Type} {f : Stage κ → Stage κ → List β} {x : β} {h : List (Stage κ)}
    (hx : x ∈ tally f h) : ∃ u v, [v, u] <:+: h ∧ x ∈ f u v := by
  induction h with
  | nil => exact absurd hx List.not_mem_nil
  | cons t h ih =>
    cases h with
    | nil => exact absurd hx List.not_mem_nil
    | cons u h =>
      rcases List.mem_append.mp hx with hx | hx
      · obtain ⟨v, w, hin, hx⟩ := ih hx
        exact ⟨v, w, hin.trans (List.suffix_cons _ _).isInfix, hx⟩
      · exact ⟨u, t, (List.prefix_append [t, u] h).isInfix, hx⟩

/-- What comes before an element, if it is not there yet, is no further. -/
theorem prefix_of_not_mem {l l' r : List Address} (h : l <+: l' ++ a :: r) (ha : a ∉ l) :
    l <+: l' := by
  rcases List.prefix_or_prefix_of_prefix h (List.prefix_append l' (a :: r)) with hle | ⟨k, rfl⟩
  · exact hle
  · cases k with
    | nil => simp
    | cons x k =>
      obtain ⟨rfl, -⟩ := List.cons_prefix_cons.mp ((List.prefix_append_right_inj l').mp h)
      exact absurd (List.mem_append_right l' List.mem_cons_self) ha

namespace Moment

variable {code : Code κ} {V : Event → Prop} {start : κ.World → Prop}
  {mean : Stage κ → Stage κ → Prop} {m m' : Moment κ} {h : List (Stage κ)} {slot ended : Slot κ}

/-! ## From one moment to the next -/

/-- From one moment to the next (`Moment.Next`) there is nested work (`Platform.Nested`), or one
turning (`Platform.Turning`), or one dealing with tasks (`Platform.Dealing`). -/
theorem Reach.work (hr : Reach code m) (hnext : Next code m m') :
    Nested Event.Any m.stage.platform m'.stage.platform ∨
      Turning m.stage.platform m'.stage.platform ∨ Dealing m.stage.platform m'.stage.platform := by
  have hi := hr.ok.inv
  have hpaced := hr.paced
  cases hnext with
  | begin | back => exact Or.inl (.refl _)
  | meanwhile bus => exact Or.inr (Or.inr (.bus bus))
  | @advance _ _ _ s t hstep =>
    obtain ⟨-, hsame | hs⟩ :=
      hstep.strides code.publishes_any (fun _ _ => Inv.outer) hi hr.ok.2 hpaced
    · obtain rfl : t = s := hsame
      exact Or.inl (.refl _)
    · cases hs with
      | work h => exact Or.inl h
      | turn h => exact Or.inr (Or.inl h)
      | start h => exact Or.inr (Or.inl (.begin (h.alone _) h.turn))
      | deal h => exact Or.inr (Or.inr h)

/-- **From one moment to the next** the run queue is kept in order (`Platform.Ordered`). -/
theorem Reach.ordered (hr : Reach code m) (hnext : Next code m m') :
    Ordered m.stage.platform m'.stage.platform := by
  rcases hr.work hnext with h | h | h
  · exact h.queues.ordered
  · exact h.ordered hr.ok.inv
  · exact h.queues.ordered

/-- **At every moment** nobody who is running stands in a queue (`Platform.Apart`). -/
theorem Reach.apart (hr : Reach code m) : m.stage.platform.Apart := by
  obtain ⟨config, trap, subs, w, hlater⟩ := hr
  induction hlater with
  | refl =>
    obtain ⟨bus, -, hbus⟩ := new_platform config trap subs w
    show (Stage.new config trap subs w).platform.Apart
    rw [hbus]
    exact .new config trap
  | @tail m m' hlater hnext ih =>
    have hr : Reach code m := ⟨config, trap, subs, w, hlater⟩
    rcases hr.work hnext with h | h | h
    · exact ih.queues h.queues
    · exact ih.turning h hr.ok.inv
    · exact ih.queues h.queues

/-- When the slot of an address ends, the address comes last in the queue (`Platform.endTurn`), if
at all. -/
theorem Reach.requeues (hr : Reach code m) (hnext : Next code m m')
    (hbefore : m.stage.platform.running.get? a = some slot)
    (hafter : m'.stage.platform.running.get? a = none) :
    a ∉ m.stage.platform.runQueue ∧
      (m'.stage.platform.runQueue = m.stage.platform.runQueue ∨
        m'.stage.platform.runQueue = m.stage.platform.runQueue ++ [a]) := by
  have still (hq : Queues m.stage.platform m'.stage.platform) : False := by
    rw [hq.running] at hafter
    exact absurd (hafter.symm.trans hbefore) (by simp)
  rcases hr.work hnext with h | h | h
  · exact (still h.queues).elim
  · exact h.requeues hr.ok.inv hr.apart hbefore hafter
  · exact (still h.queues).elim

/-! ## Along a life -/

/-- Two stages that follow one another are those of a moment and the next (`Moment.Next`). -/
theorem Past.follows (hp : Past code V start mean m h) (hs : [t, s] <:+: m.stage :: h) :
    ∃ n n', Reach code n ∧ Next code n n' ∧ n.stage = s ∧ n'.stage = t := by
  induction hp with
  | new => exact absurd hs.length_le (by simp)
  | @next m m' h hp hnext _ ih =>
    rcases List.infix_cons_iff.mp hs with hpre | hin
    · obtain ⟨ht, hpre⟩ := List.cons_prefix_cons.mp hpre
      obtain ⟨hs, -⟩ := List.cons_prefix_cons.mp hpre
      exact ⟨m, m', hp.reach, hnext, hs.symm, ht.symm⟩
    · exact ih hin

theorem Past.inOrder (hp : Past code V start mean m h) : InOrder (m.stage :: h) := by
  induction hp with
  | new => exact List.isChain_singleton _
  | next hp hnext _ ih => exact List.isChain_cons_cons.mpr ⟨hp.reach.ordered hnext, ih⟩

/-- What has happened to the run queue since a stage (`conserved`). -/
theorem Past.conserved (hp : Past code V start mean m h) {since before : List (Stage κ)}
    (hlife : m.stage :: h = since ++ t :: before) :
    t.platform.runQueue ++ tally enqueued (since ++ [t]) =
      tally served (since ++ [t]) ++ m.stage.platform.runQueue := by
  have hlater : since ++ [t] <+: m.stage :: h := by
    rw [hlife]
    exact (List.prefix_append_right_inj since).mpr ⟨before, rfl⟩
  obtain ⟨l, hl⟩ : ∃ l, since ++ [t] = m.stage :: l := by
    cases since with
    | nil => exact ⟨[], by rw [(List.cons.inj hlife).1]; rfl⟩
    | cons u since => exact ⟨since ++ [t], by rw [(List.cons.inj hlife).1]; rfl⟩
  rw [hl] at hlater ⊢
  have horder : InOrder (m.stage :: l) := List.IsChain.infix hp.inOrder hlater.isInfix
  refine Troupe.conserved horder ?_
  rw [← hl, List.getLast?_concat]

/-- **Everybody has a turn.** A slot starts only when no error waits for a verdict and none is
running. When the slot of an address has ended, another slot of that address does not start before
all others that waited then have had their turns (`served`), in the order in which they waited; and
whoever has a turn is the first in the queue, and its oldest slot starts, unless it waits for a task
and is parked, or nothing is scheduled for it any more. -/
theorem turns_fair (hp : Past code V start mean m h) (hnext : Next code m m')
    (hidle : m.stage.platform.running.get? a = none)
    (hstarts : m'.stage.platform.running.get? a = some slot) :
    (m.stage.platform.raised = [] ∧ ∀ b, m.stage.platform.running.get? b = none) ∧
    ∀ since t s before ended, m.stage :: h = since ++ t :: s :: before →
      s.platform.running.get? a = some ended → t.platform.running.get? a = none →
        t.platform.runQueue.erase a <+: tally served (since ++ [t]) ∧
        ∀ b ∈ t.platform.runQueue, b ≠ a → ∃ u v, [v, u] <:+: since ++ [t] ∧
          HasTurn u.platform v.platform b := by
  -- where the slot starts its address is the first in the queue
  obtain ⟨_, _, _, hstart⟩ := hp.reach.launch hnext hidle hstarts
  obtain ⟨rest, _, hfirst, -⟩ := turn_slot hstart.turn
  refine ⟨⟨hstart.judged, fun b => by simpa using hstart.alone b⟩,
    fun since t s before ended hlife hrun hend => ?_⟩
  -- where the last one ended it was the last, if it waited at all
  have hpair : [t, s] <:+: m.stage :: h := ⟨since, before, by rw [hlife, List.append_assoc]; rfl⟩
  obtain ⟨n, n', hn, hnext', rfl, rfl⟩ := hp.follows hpair
  obtain ⟨hmem, hqueue⟩ := hn.requeues hnext' hrun hend
  have hothers : n'.stage.platform.runQueue.erase a = n.stage.platform.runQueue ∧
      n.stage.platform.runQueue <+: n'.stage.platform.runQueue := by
    rcases hqueue with hq | hq
    · rw [hq, List.erase_of_not_mem hmem]
      exact ⟨rfl, List.prefix_rfl⟩
    · rw [hq, List.erase_append_right _ hmem, List.erase_cons_head, List.append_nil]
      exact ⟨rfl, List.prefix_append _ _⟩
  have hserved : n'.stage.platform.runQueue.erase a <+:
      tally served (since ++ [n'.stage]) := by
    rw [hothers.1]
    refine prefix_of_not_mem (r := rest) ?_ hmem
    rw [← hfirst, ← hp.conserved hlife]
    exact hothers.2.trans (List.prefix_append _ _)
  refine ⟨hserved, fun b hb hba => ?_⟩
  obtain ⟨u, v, hin, hturn⟩ := mem_tally (hserved.subset ((List.mem_erase_of_ne hba).mpr hb))
  have hlater : since ++ [n'.stage] <:+: m.stage :: h := by
    rw [hlife]
    exact ((List.prefix_append_right_inj since).mpr ⟨_, rfl⟩).isInfix
  obtain ⟨k, k', hk, hnext'', rfl, rfl⟩ := hp.follows (hin.trans hlater)
  exact ⟨_, _, hin, hasTurn_of_served (hk.ordered hnext'') hturn⟩

end Moment

/-! ## An actor that writes to itself -/

namespace Moment

/-- An operation that advances has a longer past (`Flow.Advances`). -/
theorem Past.advances {code : Code κ} {V : Event → Prop} {start : κ.World → Prop}
    {mean : Stage κ → Stage κ → Prop} {h : List (Stage κ)} {α : Type} {x y : Flow κ α × Stage κ}
    (hp : Past code V start mean (amid x.1 x.2) h) (hy : Advances (body code) x y) :
    ∃ since h', Past code V start mean (amid y.1 y.2) h' ∧ y.2 :: h' = since ++ x.2 :: h := by
  induction hy with
  | refl => exact ⟨[], h, hp, rfl⟩
  | tail _ hstep ih =>
    obtain ⟨since, h', hp', hlife⟩ := ih
    exact ⟨_ :: since, _, hp'.next (.advance hstep) trivial, congrArg (_ :: ·) hlife⟩

end Moment

namespace Chatter

open Troupe.Flow

/-- The actor that writes to itself, at `Address.sample`. -/
def speaker : Address := .sample

/-- Its neighbour, at `Address.sampleMate`. -/
def neighbour : Address := .sampleMate

/-- Actors wait for two messages. The `speaker` writes to itself and to its `neighbour` when it is
written to by somebody else. -/
def code : Code App.sample where
  freshId w := ("fresh", w)
  build _ _ w := ((), w)
  init _ w := (.buffered, w)
  stop _ w := w
  judge _ _ w := (.stop, w)
  hook
    | _, .run, _ =>
      .ask (.receive (.any "")) fun _ => .ask (.receive (.any "")) fun _ => .done (.ok ())
    | _, .receive _ env, a =>
      if a = speaker ∧ env.source ≠ speaker then
        .ask (.tell speaker .null) fun _ => .ask (.tell neighbour .null) fun _ => .done (.ok ())
      else .done (.ok ())
    | _, _, _ => .done (.ok ())
  foreign _ _ _ := .done (.ok .nil)
  poll _ w := (.ready (.ok none), w)

/-- An actor of the given name. -/
def template (id : String) : Template App.sample := .mk (some id) () [] none [] []

/-- The stage on which both are there. -/
def spawned : Option (Stage App.sample) :=
  (perform (body code) 20 (Operation.spawn code (template "a")) Moment.sample).bind fun x =>
    (perform (body code) 20 (Operation.spawn code (template "b")) x.2).map Prod.snd

/-- The stage after so many steps of writing to the `speaker` (`Operation.tell`). -/
def told (n : Nat) (s : Stage App.sample) : Stage App.sample :=
  (after (body code) n ((Operation.tell speaker .null : Flow App.sample Bool), s)).2

/-- What there is to see of a stage: who waits for a turn, and who is running. -/
def sight (s : Stage App.sample) : List Address × Bool :=
  (s.platform.runQueue, s.platform.running.contains speaker)

theorem reach_spawned {s : Stage App.sample} (hs : spawned = some s) :
    ∃ h, Moment.Past code Event.Any (fun _ => True) (fun _ _ => True) (.between s) h := by
  obtain ⟨⟨_, s₁⟩, hs₁, hs⟩ := Option.bind_eq_some_iff.mp hs
  obtain ⟨⟨_, s₂⟩, hs₂, rfl⟩ := Option.map_eq_some_iff.mp hs
  have hnew : Moment.Past code Event.Any (fun _ => True) (fun _ _ => True)
      (.between Moment.sample) [] := .new {} none [] trivial
  obtain ⟨_, hfirst⟩ := hnew.perform 20 (.spawn _) (Operation.publishes_any _) hs₁
  exact hfirst.perform 20 (.spawn _) (Operation.publishes_any _) hs₂

/-- The speaker's first slot ends with the 108th step (`told`), and its next one starts with the
156th. -/
theorem seen : (spawned.map fun s =>
    (sight (told 107 s), sight (told 108 s), sight (told 155 s), sight (told 156 s))) =
      some (([neighbour], true), ([neighbour, speaker], false), ([speaker], false),
        ([], true)) := by
  decide +kernel

theorem running_of_sight {s : Stage App.sample} {l : List Address} (h : sight s = (l, true)) :
    ∃ slot, s.platform.running.get? speaker = some slot := by
  have hrun := congrArg Prod.snd h
  rwa [sight, Table.contains_eq, Option.isSome_iff_exists] at hrun

theorem idle_of_sight {s : Stage App.sample} {l : List Address} (h : sight s = (l, false)) :
    s.platform.running.get? speaker = none := by
  have hrun := congrArg Prod.snd h
  simpa [sight] using hrun

/-- **The neighbour comes first.** The speaker has written to itself and to its neighbour; when its
slot ends it waits behind the neighbour (`Platform.runQueue`), which has had its turn when the
speaker's next slot starts. -/
theorem neighbour_first : ∃ (m m' : Moment App.sample) (t s : Stage App.sample)
    (h since before : List (Stage App.sample)) (slot ended : Slot App.sample),
    Moment.Past code Event.Any (fun _ => True) (fun _ _ => True) m h ∧ Moment.Next code m m' ∧
    m.stage.platform.running.get? speaker = none ∧
    m'.stage.platform.running.get? speaker = some slot ∧
    m.stage :: h = since ++ t :: s :: before ∧
    s.platform.running.get? speaker = some ended ∧ t.platform.running.get? speaker = none ∧
    t.platform.runQueue = [neighbour, speaker] ∧ [neighbour] <+: tally served (since ++ [t]) := by
  obtain ⟨s₀, hs₀, hseen⟩ := Option.map_eq_some_iff.mp seen
  obtain ⟨hbusy, hseen⟩ := Prod.mk.inj hseen
  obtain ⟨hended, hseen⟩ := Prod.mk.inj hseen
  obtain ⟨hidle, hstarts⟩ := Prod.mk.inj hseen
  obtain ⟨h₀, hspawned⟩ := reach_spawned hs₀
  let x : Flow App.sample Bool × Stage App.sample := (Operation.tell speaker .null, s₀)
  have hbegun : Moment.Past code Event.Any (fun _ => True) (fun _ _ => True)
      (.amid x.1 x.2) (s₀ :: h₀) := hspawned.next (.begin (.tell _ _)) (Operation.publishes_any _)
  -- the first slot of the speaker ends
  obtain ⟨_, h₁, hfirst, -⟩ := hbegun.advances (advances_after (body code) 107 x)
  have hends : Advance (body code) (after (body code) 107 x) (after (body code) 108 x) := by
    refine advance_after fun he => ?_
    have hsame : sight (told 108 s₀) = sight (told 107 s₀) := congrArg sight he
    exact absurd ((hended.symm.trans hsame).trans hbusy) (by decide)
  -- and the next one is about to start
  obtain ⟨since, h₂, hsecond, hlife⟩ := (hfirst.next (.advance hends) trivial).advances
    (advances_after (body code) 47 (after (body code) 108 x))
  rw [← after_add] at hsecond hlife
  have hnext : Advance (body code) (after (body code) 155 x) (after (body code) 156 x) := by
    refine advance_after fun he => ?_
    have hsame : sight (told 156 s₀) = sight (told 155 s₀) := congrArg sight he
    exact absurd ((hstarts.symm.trans hsame).trans hidle) (by decide)
  obtain ⟨ended, hrun⟩ := running_of_sight hbusy
  obtain ⟨slot, hslot⟩ := running_of_sight hstarts
  have hqueue : (told 108 s₀).platform.runQueue = [neighbour, speaker] := congrArg Prod.fst hended
  obtain ⟨-, hfair⟩ := Moment.turns_fair hsecond (.advance hnext) (idle_of_sight hidle) hslot
  obtain ⟨hserved, -⟩ := hfair since _ _ _ ended hlife hrun (idle_of_sight hended)
  have herase : (told 108 s₀).platform.runQueue.erase speaker = [neighbour] := by
    rw [hqueue]
    decide
  exact ⟨_, _, _, _, h₂, since, h₁, slot, ended, hsecond, .advance hnext, idle_of_sight hidle,
    hslot, hlife, hrun, idle_of_sight hended, hqueue, herase ▸ hserved⟩

end Chatter

end Troupe
