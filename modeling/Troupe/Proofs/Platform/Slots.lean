import Troupe.Proofs.Platform.Invariant

/-!
# The slots of an incarnation

`slotsOf` are the slots of an incarnation that wait for their turn, in order. One of two things
happens to them when something is done to a platform. Most work lets no slot start, and puts new
slots behind those that wait (`Joined`). A turn takes the oldest slot of an address and nothing
else.

An incarnation takes its slots with it when it goes (`QueueInv.slotsOf_gone`), and generations do
not come back (`Later`), so what is said of slots from one platform to the next carries over to
longer ways (`Joined.trans`).

Headlines:
* **`slotsOf_schedule`**: scheduling puts a slot behind the others.
* **`Nested.joined`**, **`Turning.joined`**: nested work starts no slot, and working off queues
  starts none unless somebody runs afterwards who did not run before.
* **`slotsOf_begin`**: a turn takes the oldest slot of its address, and no other.
-/

namespace Troupe.Platform

variable {κ : App} {p q r : Platform κ} {a b : Address} {g l : Nat} {s : Slot κ} {V : Event → Prop}

/-- The slots of an incarnation that wait (`Platform.pending`), in order. -/
def slotsOf (p : Platform κ) (a : Address) (g : Nat) : List (Slot κ) :=
  ((p.pending.get? a).getD []).filter fun s => s.generation == g

/-- An incarnation that was not there (`isCurrent`) has no slots. -/
theorem QueueInv.slotsOf_gone (h : p.QueueInv) (hg : p.isCurrent a g = false) :
    p.slotsOf a g = [] := by
  unfold slotsOf
  rw [List.filter_eq_nil_iff]
  intro s hs hsg
  cases hp : p.pending.get? a with
  | none => exact absurd hs (by simp [hp])
  | some slots =>
    have hcur := h.current a slots hp s (by simpa [hp] using hs)
    rw [beq_iff_eq.mp hsg] at hcur
    exact absurd (hcur.symm.trans hg) (by simp)

theorem slotsOf_congr (h : q.pending = p.pending) : q.slotsOf a g = p.slotsOf a g := by
  unfold slotsOf
  rw [h]

/-- **Scheduling** (`schedule`) puts a slot behind the others. -/
theorem slotsOf_schedule (w : Work κ) : (p.schedule b l w).slotsOf a g =
    p.slotsOf a g ++ if a = b ∧ l = g then [⟨l, w⟩] else [] := by
  obtain ⟨_, _, _, hq⟩ := schedule_eq p b l w
  rw [hq]
  unfold slotsOf
  dsimp only
  by_cases hab : a = b
  · subst hab
    rw [Table.get?_insert, if_pos rfl, Option.getD_some, List.filter_append]
    by_cases hl : l = g
    · simp [hl]
    · simp [hl]
  · rw [Table.get?_insert, if_neg hab, if_neg fun h => hab h.1, List.append_nil]

theorem slotsOf_scheduleMail (b : Address) :
    p.slotsOf a g <+: (p.scheduleMail b).slotsOf a g := by
  unfold scheduleMail
  split
  · exact List.prefix_rfl
  · dsimp only
    split
    · exact List.prefix_rfl
    · rw [slotsOf_schedule]
      exact List.prefix_append _ _

/-- **A turn** (`turn`) takes the oldest slot of its address, and no other. -/
theorem slotsOf_begin (ht : p.turn = .slot b s q) :
    p.slotsOf a g = (if a = b ∧ s.generation = g then [s] else []) ++ q.slotsOf a g := by
  obtain ⟨_, left, -, -, hp, rfl⟩ := turn_slot ht
  unfold slotsOf
  dsimp only
  by_cases hab : a = b
  · subst hab
    have hleft : ((if left.isEmpty then p.pending.erase a
        else p.pending.insert a left).get? a).getD [] = left := by
      split
      · rename_i hnone
        rw [Table.get?_erase, if_pos rfl, List.isEmpty_iff.mp hnone]
        rfl
      · rw [Table.get?_insert, if_pos rfl]
        rfl
    rw [hleft, hp, Option.getD_some, List.filter_cons]
    by_cases hg : s.generation = g
    · simp [hg]
    · simp [hg]
  · have hsame : (if left.isEmpty then p.pending.erase b
        else p.pending.insert b left).get? a = p.pending.get? a := by
      split
      · rw [Table.get?_erase, if_neg hab]
      · rw [Table.get?_insert, if_neg hab]
    rw [hsame, if_neg fun h => hab h.1]
    rfl

/-! ## Work that starts no slot -/

/-- Whoever lives at `q` with a generation that was handed out before `p` lived at `p`. -/
theorem Later.isCurrent (h : Later p q) (hg : g < p.nextGeneration)
    (hq : q.isCurrent a g = true) : p.isCurrent a g = true := by
  obtain ⟨c, hc, rfl⟩ := isCurrent_iff.mp hq
  obtain ⟨d, hd, hid⟩ := identity?_eq_some.mp
    (h.old a c.identity (identity?_eq_some.mpr ⟨c, hc, rfl⟩) hg)
  exact isCurrent_iff.mpr ⟨d, hd, congrArg Identity.generation hid⟩

theorem TableInv.lt_next (h : p.TableInv) (hg : p.isCurrent a g = true) :
    g < p.nextGeneration := by
  obtain ⟨c, hc, rfl⟩ := isCurrent_iff.mp hg
  exact h.fresh a c hc

/-- No slot starts, and slots of an incarnation that stays only queue behind the others (`slotsOf`).
-/
structure Joined (p q : Platform κ) : Prop where
  later : Later p q
  running : ∀ a s, q.running.get? a = some s → p.running.get? a = some s
  slots : ∀ a g, p.isCurrent a g = true → q.isCurrent a g = true →
    p.slotsOf a g <+: q.slotsOf a g

theorem Joined.trans (h : Joined p q) (h' : Joined q r) (hp : p.TableInv) : Joined p r where
  later := h.later.trans h'.later
  running a s hs := h.running a s (h'.running a s hs)
  slots a g hcur hcur' := by
    have hold := Nat.lt_of_lt_of_le (hp.lt_next hcur) h.later.next
    have hmid := h'.later.isCurrent hold hcur'
    exact (h.slots a g hcur hmid).trans (h'.slots a g hmid hcur')

/-- A change of anything but slots. -/
theorem Joined.of_pending (hl : Later p q) (hr : q.running = p.running)
    (hp : q.pending = p.pending) : Joined p q :=
  ⟨hl, fun _ _ hs => hr ▸ hs, fun _ _ _ _ => (slotsOf_congr hp).symm ▸ List.prefix_rfl⟩

theorem Joined.refl (p : Platform κ) : Joined p p := .of_pending (.refl p) rfl rfl

/-- Slots that queue behind the others (`slotsOf`). -/
theorem Step.slots (hs : Step p q) (hq : q.isCurrent a g = true) :
    p.slotsOf a g <+: q.slotsOf a g := by
  have same (h : q.pending = p.pending) : p.slotsOf a g <+: q.slotsOf a g :=
    (slotsOf_congr h).symm ▸ List.prefix_rfl
  cases hs with
  | publish | raise | fail | stop | reroute | enrol | takeMail | backlog | returnActor | register =>
    exact same rfl
  | join group b =>
    obtain ⟨_, _, h, -⟩ := putMember_eq p group b
    exact same (by rw [h])
  | @dismiss b _ =>
    -- whoever goes is not there afterwards
    have hab : a ≠ b := by
      rintro rfl
      obtain ⟨c, hc, -⟩ := isCurrent_iff.mp hq
      exact (context?_dismiss_eq_some.mp hc).1 rfl
    have hkept : (p.dismiss b).slotsOf a g = p.slotsOf a g := by
      obtain ⟨_, _, h, -⟩ := dismiss_eq p b
      rw [h]
      unfold slotsOf
      dsimp only
      rw [Table.get?_erase, if_neg hab]
    exact hkept.symm ▸ List.prefix_rfl
  | mail b env => exact slotsOf_scheduleMail (p := p.putMail b env) b
  | arm b t => exact slotsOf_scheduleMail (p := p.modifyContext b _) b
  | look b => exact slotsOf_scheduleMail b
  | takeMatch ht =>
    obtain ⟨_, _, _, _, _, _, _, _, _, rfl⟩ := takeMatch_eq ht
    exact same rfl
  | @returnMachine m _ _ =>
    obtain ⟨_, _, _, h⟩ :=
      enqueue_eq (p.modifyContext m.address fun c => { c with machine := some m }) m.address
    exact same (by rw [h]; rfl)

theorem Change.joined (h : Change V p q) : Joined p q := by
  have hlater := h.later
  cases h with
  | step h => exact ⟨hlater, fun _ _ hs => h.running ▸ hs, fun _ _ _ hq => h.slots hq⟩
  | loan h => exact .of_pending hlater h.running (by cases h <;> rfl)
  | announce h =>
    cases h
    exact .of_pending hlater rfl rfl

/-- **Nested work** (`Nested`) starts no slot. -/
theorem Nested.joined (h : Nested V p q) (hi : p.Inv) : Joined p q := by
  induction h with
  | refl => exact .refl p
  | tail _ h ih => exact ih.trans h.joined hi.table

/-- **Turning** (`Turning`) starts no slot, if nobody runs afterwards who did not run before. -/
theorem Turning.joined (ht : Turning p q)
    (hrun : ∀ a s, q.running.get? a = some s → p.running.get? a = some s) : Joined p q := by
  have same (h : q.pending = p.pending) : Joined p q :=
    ⟨ht.later, hrun, fun _ _ _ _ => (slotsOf_congr h).symm ▸ List.prefix_rfl⟩
  have hlater := ht.later
  cases ht with
  | judge | hear => exact same rfl
  | skip ht =>
    obtain ⟨_, _, _, ⟨-, rfl⟩ | ⟨-, rfl⟩⟩ := turn_skipped ht
    · exact same rfl
    · exact same rfl
  | @begin b s _ hb ht =>
    obtain ⟨_, _, _, _, _, rfl⟩ := turn_slot ht
    have hs := hrun b s (by rw [Table.get?_insert, if_pos rfl])
    rw [Table.contains_eq, hs] at hb
    exact absurd hb (by simp)
  | @finish b _ =>
    obtain ⟨_, _, _, h⟩ := endTurn_eq p b
    exact same (by rw [h])
  | schedule script _ =>
    refine ⟨hlater, hrun, fun a g _ _ => ?_⟩
    rw [slotsOf_schedule]
    exact List.prefix_append _ _
  | part group b =>
    obtain ⟨_, h⟩ := removeMember_eq p group b
    exact same (by rw [h])

theorem Dealing.joined (h : Dealing p q) : Joined p q := by
  obtain ⟨_, _, _, _, _, _, rfl⟩ := h.eq
  exact .of_pending (.of_eq (fun _ => rfl) rfl) rfl rfl

end Troupe.Platform
