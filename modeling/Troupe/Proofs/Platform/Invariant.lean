import Troupe.Proofs.Platform.Awake
import Troupe.Proofs.Platform.Queues
import Troupe.Proofs.Platform.Table
import Troupe.Proofs.Platform.Tasks

/-!
# The invariant of the platform

`Inv` puts together what holds of a platform at every moment:

* its table is in order (`TableInv`): who lives where, and in which groups;
* the machines that are in their contexts belong there and are at rest (`MachineInv`,
  `Machine.AtRest`);
* its queues are in order (`QueueInv`) and its tasks are (`TaskInv`);
* at most one task is in hand (`Unpolled`), between being polled and being settled;
* nobody sleeps through mail (`AwakeBut`), except where a slot is running.

It holds in the middle of a hook as well as between operations. All that is done to a platform is of
a few kinds (`Step`, `Loan`, `Turning`, `Dealing`), and each part of the invariant is kept by each
kind; `Nested`, `Rounds` and `Outer` are any number of them.

`Quiet` holds only between activities: no slot is running, and no actor and no machine is lent.

Headlines:
* **`Inv.nested`**, **`Inv.outer`**: all work keeps the invariant.
* `Quiet.repaid`: work that gives back what it took leaves a quiet platform quiet.
* `Inv.awake_of_quiet`: nobody sleeps through mail while no slot is running.
-/

namespace Troupe.Platform

variable {κ : App} {p q : Platform κ} {a b : Address} {g : Nat} {V : Event → Prop}

/-! ## Machines -/

/-- Machines at hand are at rest (`Machine.AtRest`). -/
def MachineInv (p : Platform κ) : Prop :=
  ∀ a c m, p.context? a = some c → c.machine = some m → m.AtRest a c.generation

theorem MachineInv.of_contexts (h : p.MachineInv) (hc : ∀ a c m, q.context? a = some c →
    c.machine = some m → ∃ c₀, p.context? a = some c₀ ∧ c₀.generation = c.generation ∧
      c₀.machine = some m) : q.MachineInv := by
  intro a c m hq hm
  obtain ⟨c₀, hc₀, hg, hm₀⟩ := hc a c m hq hm
  exact hg ▸ h a c₀ m hc₀ hm₀

theorem MachineInv.congr (h : p.MachineInv) (hc : ∀ a, q.context? a = p.context? a) :
    q.MachineInv :=
  h.of_contexts fun a c _ hq hm => ⟨c, hc a ▸ hq, rfl, hm⟩

theorem MachineInv.modifyContext (h : p.MachineInv) {f : Context κ → Context κ}
    (hf : ∀ c, (f c).generation = c.generation ∧ ∀ m, (f c).machine = some m → c.machine = some m) :
    (p.modifyContext a f).MachineInv := by
  refine h.of_contexts fun b c m hq hm => ?_
  rw [context?_modifyContext] at hq
  by_cases hb : b = a
  · rw [if_pos hb] at hq
    obtain ⟨c₀, hc₀, rfl⟩ := Option.map_eq_some_iff.mp hq
    exact ⟨c₀, hb ▸ hc₀, (hf c₀).1.symm, (hf c₀).2 m hm⟩
  · rw [if_neg hb] at hq
    exact ⟨c, hq, rfl, hm⟩

theorem frameLimit_pos (c : Config) : 0 < c.frameLimit := by
  unfold Config.frameLimit
  split
  · decide
  · omega

theorem MachineInv.step (hs : Step p q) (h : p.MachineInv) : q.MachineInv := by
  cases hs with
  | publish | raise | fail | stop | reroute | register => exact h.congr fun _ => rfl
  | join group a => exact h.congr fun _ => context?_putMember group
  | @enrol b actor bh t _ _ _ _ _ =>
    intro a c m hc hm
    rcases context?_enrol_eq_some.mp hc with ⟨rfl, rfl⟩ | ⟨-, hc⟩
    · obtain rfl := Option.some.inj hm
      exact ⟨rfl, rfl, rfl, frameLimit_pos _, Machine.sound_new _ _ _⟩
    · exact h a c m hc hm
  | dismiss =>
    refine h.of_contexts fun a c m hc hm => ?_
    exact ⟨c, (context?_dismiss_eq_some.mp hc).2, rfl, hm⟩
  | mail a env =>
    have hm : (p.putMail a env).MachineInv := h.modifyContext fun _ => ⟨rfl, fun _ hm => hm⟩
    exact hm.congr fun _ => context?_scheduleMail
  | arm a t =>
    have hm : (p.modifyContext a fun c =>
        { c with receivers := ⟨t, false⟩ :: c.receivers }).MachineInv :=
      h.modifyContext fun _ => ⟨rfl, fun _ hm => hm⟩
    exact hm.congr fun _ => context?_scheduleMail
  | look a => exact h.congr fun _ => context?_scheduleMail
  | takeMatch ht =>
    obtain ⟨_, _, _, _, _, _, _, _, _, rfl⟩ := takeMatch_eq ht
    exact h.modifyContext fun _ => ⟨rfl, fun _ hm => hm⟩
  | takeMail | backlog | returnActor => exact h.modifyContext fun _ => ⟨rfl, fun _ hm => hm⟩
  | @returnMachine m hrest hcur =>
    intro a c m' hc hm
    rw [context?_enqueue, context?_modifyContext] at hc
    by_cases ha : a = m.address
    · rw [if_pos ha] at hc
      obtain ⟨c₀, hc₀, rfl⟩ := Option.map_eq_some_iff.mp hc
      obtain rfl := Option.some.inj hm
      obtain ⟨d, hd, hg⟩ := isCurrent_iff.mp hcur
      obtain rfl := Option.some.inj (hd.symm.trans hc₀)
      exact ⟨ha.symm, hg.symm, hrest.frames, hrest.room, hrest.sound⟩
    · rw [if_neg ha] at hc
      exact h a c m' hc hm

theorem MachineInv.loan (hl : Loan p q) (h : p.MachineInv) : q.MachineInv := by
  cases hl with
  | actor => exact h.modifyContext fun _ => ⟨rfl, fun _ hm => hm⟩
  | machine => exact h.modifyContext fun _ => ⟨rfl, fun _ hm => absurd hm (by simp)⟩

theorem context?_turning (ht : Turning p q) : q.context? a = p.context? a := by
  cases ht with
  | judge | hear => rfl
  | skip ht =>
    obtain ⟨_, _, _, ⟨-, rfl⟩ | ⟨-, rfl⟩⟩ := turn_skipped ht
    · rfl
    · rfl
  | begin _ ht =>
    obtain ⟨_, _, _, _, _, rfl⟩ := turn_slot ht
    rfl
  | @finish b _ =>
    obtain ⟨_, _, _, he⟩ := endTurn_eq p b
    rw [he]
    rfl
  | schedule s _ => exact context?_schedule (.script s)
  | part group b =>
    obtain ⟨_, he⟩ := removeMember_eq p group b
    rw [he]
    rfl

theorem context?_dealing (hd : Dealing p q) : q.context? a = p.context? a := by
  obtain ⟨_, _, _, _, _, _, rfl⟩ := hd.eq
  rfl

/-! ## Who is running -/

theorem Step.running (hs : Step p q) : q.running = p.running := by
  cases hs with
  | publish | raise | fail | stop | reroute | enrol | takeMail | backlog | returnActor | register =>
    rfl
  | join group a =>
    obtain ⟨_, _, hq, -⟩ := putMember_eq p group a
    rw [hq]
  | @dismiss a _ =>
    obtain ⟨_, _, hq, -⟩ := dismiss_eq p a
    rw [hq]
  | mail a env =>
    obtain ⟨_, _, _, _, hq⟩ := scheduleMail_eq (p.putMail a env) a
    rw [hq]
    rfl
  | arm a t =>
    obtain ⟨_, _, _, _, hq⟩ := scheduleMail_eq
      (p.modifyContext a fun c => { c with receivers := ⟨t, false⟩ :: c.receivers }) a
    rw [armReceiver, hq]
    rfl
  | look a =>
    obtain ⟨_, _, _, _, hq⟩ := scheduleMail_eq p a
    rw [hq]
  | takeMatch ht =>
    obtain ⟨_, _, _, _, _, _, _, _, _, rfl⟩ := takeMatch_eq ht
    rfl
  | @returnMachine m _ _ =>
    obtain ⟨_, _, _, hq⟩ :=
      enqueue_eq (p.modifyContext m.address fun c => { c with machine := some m }) m.address
    rw [hq]
    rfl

theorem Loan.running (hl : Loan p q) : q.running = p.running := by
  cases hl <;> rfl

theorem Nested.running (h : Nested V p q) : q.running = p.running :=
  h.keeps (P := fun r => r.running = p.running) (fun _ _ hs hr => hs.running.trans hr)
    (fun _ _ hl hr => hl.running.trans hr) (fun _ _ hr => hr) rfl

/-! ## All together -/

/-- What holds of a platform at every moment: `TableInv`, `MachineInv`, `QueueInv`, `TaskInv`,
`Unpolled` and `AwakeBut`. -/
structure Inv (p : Platform κ) : Prop where
  table : p.TableInv
  machines : p.MachineInv
  queues : p.QueueInv
  tasks : p.TaskInv
  /-- All unsettled tasks are asked, but for one in hand. -/
  hand : ∃ hand, p.Unpolled hand
  awake : ∀ a, p.AwakeBut a (p.attended a)

theorem Inv.new (config : Config) (trap : Option κ.Trap) : (Platform.new config trap).Inv where
  table := .new config trap
  machines _ _ _ h := nomatch h
  queues := .new config trap
  tasks := .new config trap
  hand := ⟨none, .new config trap⟩
  awake _ _ h := nomatch h

theorem Inv.step (hs : Step p q) (h : p.Inv) : q.Inv where
  table := h.table.step hs
  machines := h.machines.step hs
  queues := h.queues.step hs
  tasks := h.tasks.step hs
  hand := h.hand.imp fun _ => Unpolled.step hs
  awake a := attended_congr hs.running ▸ AwakeBut.step hs (h.awake a)

theorem Inv.loan (hl : Loan p q) (h : p.Inv) : q.Inv where
  table := h.table.loan hl
  machines := h.machines.loan hl
  queues := h.queues.loan hl
  tasks := h.tasks.loan hl
  hand := h.hand.imp fun _ => hl.records.unpolled
  awake a := attended_congr hl.running ▸ AwakeBut.loan hl (h.awake a)

theorem Inv.turning (ht : Turning p q) (h : p.Inv) : q.Inv where
  table := h.table.turning ht
  machines := h.machines.congr fun _ => context?_turning ht
  queues := h.queues.turning ht
  tasks := h.tasks.turning ht
  hand := h.hand.imp fun _ => ht.records.unpolled
  awake a := AwakeBut.turning ht (h.awake a)

theorem Inv.dealing (hd : Dealing p q) (h : p.Inv) : q.Inv where
  table := h.table.dealing hd
  machines := h.machines.congr fun _ => context?_dealing hd
  queues := h.queues.dealing hd
  tasks := h.tasks.dealing hd
  hand := h.hand.elim fun _ => Unpolled.dealing hd h.tasks
  awake a := by
    obtain ⟨_, _, _, _, _, _, rfl⟩ := hd.eq
    exact (h.awake a).congr rfl rfl

/-- **Nested work keeps the invariant.** (`Nested`) -/
theorem Inv.nested (hpq : Nested V p q) (h : p.Inv) : q.Inv :=
  hpq.keeps (fun _ _ => Inv.step) (fun _ _ => Inv.loan) (fun _ bus => Inv.dealing (.bus bus)) h

theorem Inv.rounds (hpq : Rounds V p q) (h : p.Inv) : q.Inv :=
  hpq.keeps (fun _ _ => Inv.nested) (fun _ _ => Inv.turning) h

/-- **All work keeps the invariant.** (`Outer`) -/
theorem Inv.outer (hpq : Outer V p q) (h : p.Inv) : q.Inv :=
  hpq.keeps (fun _ _ => Inv.rounds) (fun _ _ => Inv.dealing) h

/-! ## Between activities -/

/-- No slot is running, and nothing is lent (`ActorLent`, `MachineLent`). -/
structure Quiet (p : Platform κ) : Prop where
  running : ∀ a, p.running.contains a = false
  actor : ∀ a g, ¬ p.ActorLent a g
  machine : ∀ a g, ¬ p.MachineLent a g

theorem Quiet.new (config : Config) (trap : Option κ.Trap) : (Platform.new config trap).Quiet where
  running _ := rfl
  actor := by
    rintro a g ⟨c, hc, -⟩
    exact nomatch hc
  machine := by
    rintro a g ⟨c, hc, -⟩
    exact nomatch hc

theorem Quiet.repaid (h : p.Quiet) (hr : Repaid p q) (hrun : q.running = p.running) : q.Quiet where
  running a := by rw [hrun]; exact h.running a
  actor a g hl := h.actor a g (hr.actor a g hl)
  machine a g hl := h.machine a g (hr.machine a g hl)

/-- Nobody sleeps through mail (`Awake`) at an address that is not running. -/
theorem Inv.awake_of_idle (h : p.Inv) (hrun : p.running.contains a = false) : p.Awake a := by
  have ha := h.awake a
  rw [attended_of_not_running hrun] at ha
  exact ha

/-- Nobody sleeps through mail while no slot is running (`Quiet`). -/
theorem Inv.awake_of_quiet (h : p.Inv) (hq : p.Quiet) (a : Address) : p.Awake a :=
  h.awake_of_idle (hq.running a)

end Troupe.Platform
