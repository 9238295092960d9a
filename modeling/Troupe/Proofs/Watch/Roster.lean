import Troupe.Proofs.Flow.Strides
import Troupe.Proofs.Watch.Ledger

/-!
# The roster of an incarnation

From the stages of a life it can be read off which slots were scheduled for an incarnation and which
began to run, each in order (`scheduled`, `begun`). `Roster` says how the two hang together: while
the incarnation lives, the slots that were scheduled are those that have begun, followed by those
that still wait (`Platform.slotsOf`); and whether it lives or not, those that have begun are the
first of those that were scheduled.

Slots that only queue are put down in the roster (`Roster.join`), and so is a slot that starts
(`Roster.launch`), which takes a turn while nobody else runs (`Platform.Alone`).

Headline:
* **`Moment.Past.roster`**: at every moment the rosters of all incarnations are kept, and one
  address at most is running a slot.
-/

namespace Troupe

variable {κ : App}

open Platform Troupe.Flow

/-! ## Reading off -/

section Step

variable (a : Address) (g : Nat) (s t : Stage κ)

/-- The slots that are scheduled for an incarnation from one stage to the next (`Platform.slotsOf`).
-/
def enlisted : List (Slot κ) :=
  (t.platform.slotsOf a g).drop (s.platform.slotsOf a g).length

/-- The slot of an incarnation that begins to run from one stage to the next (`Platform.running`).
-/
def launched : List (Slot κ) :=
  match s.platform.running.get? a, t.platform.running.get? a with
  | none, some slot => if slot.generation = g then [slot] else []
  | _, _ => []

end Step

/-- The slots that were scheduled for an incarnation, in order (`enlisted`). -/
def scheduled (a : Address) (g : Nat) : List (Stage κ) → List (Slot κ) :=
  tally (enlisted a g)

/-- The slots of an incarnation that began to run, in order (`launched`). -/
def begun (a : Address) (g : Nat) : List (Stage κ) → List (Slot κ) :=
  tally (launched a g)

/-- The roster of an incarnation: what was `scheduled`, what has `begun`, and what still waits. -/
structure Roster (a : Address) (g : Nat) (h : List (Stage κ)) (s : Stage κ) : Prop where
  balance : s.platform.isCurrent a g = true →
    scheduled a g (s :: h) = begun a g (s :: h) ++ s.platform.slotsOf a g
  behind : begun a g (s :: h) <+: scheduled a g (s :: h)
  unborn : s.platform.nextGeneration ≤ g → scheduled a g (s :: h) = []
  /-- The slot that is running was the last to begin. -/
  latest : ∀ slot, s.platform.running.get? a = some slot → slot.generation = g →
    ∃ before, begun a g (s :: h) = before ++ [slot]

/-- One address at most is running a slot (`Platform.running`). -/
def Platform.Alone (p : Platform κ) : Prop :=
  ∀ a b x y, p.running.get? a = some x → p.running.get? b = some y → a = b

variable {a b : Address} {g : Nat} {s t : Stage κ} {h : List (Stage κ)} {slot : Slot κ}

theorem scheduled_next :
    scheduled a g (t :: s :: h) = scheduled a g (s :: h) ++ enlisted a g s t := rfl

theorem begun_next : begun a g (t :: s :: h) = begun a g (s :: h) ++ launched a g s t := rfl

/-- What is scheduled (`Platform.schedule`) is enlisted. -/
theorem enlisted_schedule {w : Work κ} (ht : t.platform = s.platform.schedule a g w) :
    enlisted a g s t = [⟨g, w⟩] := by
  unfold enlisted
  rw [ht, slotsOf_schedule, if_pos ⟨rfl, rfl⟩]
  exact List.drop_left

/-- What came of a life (`tally`) does not go away. -/
theorem tally_prefix {β : Type} (f : Stage κ → Stage κ → List β) (since : List (Stage κ))
    (s : Stage κ) (h : List (Stage κ)) : tally f (s :: h) <+: tally f (since ++ s :: h) := by
  induction since with
  | nil => exact List.prefix_rfl
  | cons t since ih =>
    have hnext : tally f (since ++ s :: h) <+: tally f (t :: (since ++ s :: h)) := by
      cases since with
      | nil => exact List.prefix_append _ _
      | cons u since => exact List.prefix_append _ _
    exact ih.trans hnext

theorem mem_launched : slot ∈ launched a g s t ↔ s.platform.running.get? a = none ∧
    t.platform.running.get? a = some slot ∧ slot.generation = g := by
  unfold launched
  split
  · rename_i slot' hs ht
    rw [hs, ht]
    by_cases hg : slot'.generation = g
    · rw [if_pos hg, List.mem_singleton]
      constructor
      · rintro rfl
        exact ⟨rfl, rfl, hg⟩
      · rintro ⟨-, he, -⟩
        exact (Option.some.inj he).symm
    · rw [if_neg hg]
      refine ⟨fun hm => absurd hm List.not_mem_nil, ?_⟩
      rintro ⟨-, he, hg'⟩
      exact absurd (Option.some.inj he ▸ hg') hg
  · rename_i hno
    refine ⟨fun hm => absurd hm List.not_mem_nil, ?_⟩
    rintro ⟨hs, ht, -⟩
    exact (hno slot hs ht).elim

/-- In the beginning nobody runs. -/
theorem Moment.running_new (config : Config) (trap : Option κ.Trap) (subs : List Subscriber)
    (w : κ.World) (a : Address) :
    (Stage.new config trap subs w).platform.running.get? a = none := by
  obtain ⟨_, -, hbus⟩ := new_platform config trap subs w
  rw [hbus]
  rfl

/-! ## Keeping a roster -/

namespace Roster

/-- **Slots that queue** are put down (`enlisted`). -/
theorem join (hr : Roster a g h s) (hj : Joined s.platform t.platform) (hi : s.platform.Inv)
    (hi' : t.platform.Inv) : Roster a g (s :: h) t := by
  have hnone : launched a g s t = [] := by
    rw [List.eq_nil_iff_forall_not_mem]
    intro slot hm
    obtain ⟨hs, ht, -⟩ := mem_launched.mp hm
    exact absurd (hs.symm.trans (hj.running a slot ht)) (by simp)
  have hbegun : begun a g (t :: s :: h) = begun a g (s :: h) := by
    rw [begun_next, hnone, List.append_nil]
  have hgone (hcur : t.platform.isCurrent a g = false) : enlisted a g s t = [] := by
    unfold enlisted
    rw [hi'.queues.slotsOf_gone hcur, List.drop_nil]
  refine ⟨fun hcur' => ?_, ?_, fun hold => ?_, fun slot hrun hg => ?_⟩
  · rw [scheduled_next, hbegun]
    by_cases hcur : s.platform.isCurrent a g = true
    · have hjoin := List.prefix_iff_eq_append.mp (hj.slots a g hcur hcur')
      unfold enlisted
      rw [hr.balance hcur, List.append_assoc, hjoin]
    · -- the incarnation has just come
      have hnew : s.platform.nextGeneration ≤ g :=
        Nat.not_lt.mp fun hlt => hcur (hj.later.isCurrent hlt hcur')
      have hempty := hr.unborn hnew
      have hbefore : begun a g (s :: h) = [] := List.prefix_nil.mp (hempty ▸ hr.behind)
      unfold enlisted
      rw [hempty, hbefore, hi.queues.slotsOf_gone (Bool.not_eq_true _ ▸ hcur)]
      rfl
  · rw [scheduled_next, hbegun]
    exact hr.behind.trans (List.prefix_append _ _)
  · have hcur : t.platform.isCurrent a g = false := by
      rw [← Bool.not_eq_true]
      exact fun hcur => absurd (hi'.table.lt_next hcur) (Nat.not_lt.mpr hold)
    rw [scheduled_next, hr.unborn (Nat.le_trans hj.later.next hold), hgone hcur]
    rfl
  · rw [hbegun]
    exact hr.latest slot (hj.running a slot hrun) hg

/-- **A slot that starts** is put down (`launched`). -/
theorem launch (hr : Roster a g h s) (hi : s.platform.Inv)
    (halone : ∀ a, s.platform.running.contains a = false)
    (hturn : s.platform.turn = .slot b slot t.platform) : Roster a g (s :: h) t := by
  have hquiet : s.platform.running.get? a = none := by
    simpa using halone a
  have hbegin : Turning s.platform t.platform := .begin (halone b) hturn
  have hslots := slotsOf_begin (a := a) (g := g) hturn
  have hrun : t.platform.running.get? a = if a = b then some slot else none := by
    obtain ⟨_, _, -, -, -, ht⟩ := turn_slot hturn
    rw [ht, Table.get?_insert, hquiet]
  have hlaunched : launched a g s t = if a = b ∧ slot.generation = g then [slot] else [] := by
    unfold launched
    rw [hquiet, hrun]
    by_cases hab : a = b
    · simp [hab]
    · simp [hab]
  rw [← hlaunched] at hslots
  have hnone : enlisted a g s t = [] := by
    unfold enlisted
    rw [hslots]
    exact List.drop_eq_nil_of_le (by simp)
  have hscheduled : scheduled a g (t :: s :: h) = scheduled a g (s :: h) := by
    rw [scheduled_next, hnone, List.append_nil]
  have hbalance (hcur : s.platform.isCurrent a g = true) :
      scheduled a g (s :: h) = begun a g (t :: s :: h) ++ t.platform.slotsOf a g := by
    rw [hr.balance hcur, hslots, begun_next, List.append_assoc]
  have hcurrent : t.platform.isCurrent a g = s.platform.isCurrent a g := by
    refine isCurrent_congr ?_
    rw [generation?, context?_turning hbegin]
    rfl
  refine ⟨fun hcur => ?_, ?_, fun hold => ?_, fun slot' hslot' hg => ?_⟩
  · rw [hscheduled, hbalance (hcurrent ▸ hcur)]
  · rw [hscheduled]
    by_cases hcur : s.platform.isCurrent a g = true
    · rw [hbalance hcur]
      exact List.prefix_append _ _
    · -- a slot that starts belongs to an incarnation that is there
      have hempty := hi.queues.slotsOf_gone (Bool.not_eq_true _ ▸ hcur)
      rw [hslots, List.append_eq_nil_iff] at hempty
      rw [begun_next, hempty.1, List.append_nil]
      exact hr.behind
  · rw [hscheduled]
    exact hr.unborn (Nat.le_trans hbegin.later.next hold)
  · have hmem : slot' ∈ launched a g s t := mem_launched.mpr ⟨hquiet, hslot', hg⟩
    rw [hlaunched] at hmem
    rw [begun_next, hlaunched]
    split at hmem
    · rename_i hif
      obtain rfl := List.mem_singleton.mp hmem
      exact ⟨_, by rw [if_pos hif]⟩
    · exact absurd hmem List.not_mem_nil

/-- In the beginning nothing is scheduled, and nobody runs. -/
theorem new (config : Config) (trap : Option κ.Trap) (subs : List Subscriber) (w : κ.World)
    (a : Address) (g : Nat) : Roster a g [] (.new config trap subs w) := by
  obtain ⟨bus, -, hbus⟩ := Moment.new_platform config trap subs w
  have hidle := Moment.running_new config trap subs w a
  refine ⟨fun _ => ?_, List.prefix_rfl, fun _ => rfl, fun slot hslot => ?_⟩
  · rw [hbus]
    rfl
  · exact absurd (hidle.symm.trans hslot) (by simp)

end Roster

namespace Platform

variable {p q : Platform κ}

theorem Alone.join (hp : p.Alone) (hj : Joined p q) : q.Alone :=
  fun a b x y hx hy => hp a b x y (hj.running a x hx) (hj.running b y hy)

/-- Who takes a turn while nobody runs (`Platform.turn`) is running alone. -/
theorem Alone.launch (halone : ∀ a, p.running.contains a = false)
    (hturn : p.turn = .slot b slot q) : q.Alone := by
  have honly (a : Address) (x : Slot κ) (hx : q.running.get? a = some x) : a = b := by
    obtain ⟨_, _, -, -, -, rfl⟩ := turn_slot hturn
    rcases Table.get?_insert_eq_some.mp hx with ⟨hab, -⟩ | ⟨-, hx⟩
    · exact hab
    · have hnone := halone a
      rw [Table.contains_eq, hx] at hnone
      exact absurd hnone (by simp)
  exact fun a b x y hx hy => (honly a x hx).trans (honly b y hy).symm

end Platform

/-! ## At every moment -/

namespace Moment

variable {code : Code κ} {V : Event → Prop} {start : κ.World → Prop}
  {mean : Stage κ → Stage κ → Prop} {m : Moment κ}

/-- **Rosters are kept** (`Roster`), and one address at most is running a slot (`Platform.Alone`).
-/
theorem Past.roster (hp : Past code V start mean m h) :
    (∀ a g, Roster a g h m.stage) ∧ m.stage.platform.Alone := by
  induction hp with
  | new config trap subs =>
    refine ⟨Roster.new config trap subs _, fun a b x y hx => ?_⟩
    exact absurd ((running_new config trap subs _ a).symm.trans hx) (by simp)
  | @next m m' h hp hnext _ ih =>
    obtain ⟨hroster, halone⟩ := ih
    have hi := hp.reach.ok.inv
    have hi' := (hp.reach.later (.single hnext)).ok.inv
    rcases hp.reach.stride hnext with hj | ⟨b, slot, _, _, _, hstart⟩
    · exact ⟨fun a g => (hroster a g).join hj hi hi', halone.join hj⟩
    · exact ⟨fun a g => (hroster a g).launch hi hstart.alone hstart.turn,
        .launch hstart.alone hstart.turn⟩

end Moment

end Troupe
