import Troupe.Proofs.Watch.Occasions

/-!
# Who takes from a mailbox

As long as an incarnation is there, its mailbox gets shorter only because a receiver takes a message
(`takeMatch`, for `take_match`), because one is dropped (`discardMail`, for `discard_head`), or
because the actor's script takes one (`takeMail`, for `dequeue`): these are the cases of `Takes`.
Each is a move of its own (`Move`), and in particular a received message is told of in the very step
in which it leaves the mailbox.

`Drawn` says so of a whole life, stage by stage, and it is kept track of (`Track.takes`): tending to
actors takes nothing, and neither does anything that happens between operations (`outlook_takes`).

Headline:
* **`Move.takes`**: a move that takes something from a mailbox is one of the three.

Mail that goes together with its incarnation is not taken by anybody, and is not spoken of here.
-/

namespace Troupe

variable {κ : App}

open Platform

/-- The head of a mailbox is taken: by a receiver, to be dropped, or by the actor's script. -/
inductive Takes (a : Address) (s : Stage κ) : Stage κ → Prop
  | received {hit : Match} {p : Platform κ} : s.platform.takeMatch a = some (hit, p) →
      Takes a s { s with platform := p.publish (.received a hit.tag hit.envelope) }
  | dropped : Takes a s (s.edit (·.discardMail a))
  | dequeued : Takes a s { s with platform := (s.platform.takeMail a).2 }

/-- Whatever left a mailbox was taken in a step of its own. -/
def Drawn (a : Address) (g : Nat) (h : List (Stage κ)) : Prop :=
  h.IsChain fun t s => went a g s t .mail ≠ [] → Takes a s t

section

variable {code : Code κ} {V : Event → Prop} {same : κ.World → κ.World → Prop} {s t : Stage κ}
  {p q : Platform κ} {a b : Address} {g : Nat} {w : Way} {x y : Option (Due κ)}
  {h : List (Stage κ)}

/-- Nothing is taken from where no less waits than before. -/
theorem went_of_le (hle : (s.platform.waiting a g w).length ≤ (t.platform.waiting a g w).length) :
    went a g s t w = [] := by
  unfold went
  rw [Nat.sub_eq_zero_of_le hle, List.take_zero]
  exact ite_self _

theorem waiting_congr (hc : q.context? a = p.context? a) :
    q.waiting a g w = p.waiting a g w := by
  unfold Platform.waiting
  rw [hc]

/-- Where a change of a context leaves what waits, or adds to it, no less waits than before. -/
theorem length_waiting_le {f : Context κ → Context κ} (hg : ∀ c, (f c).generation = c.generation)
    (hf : b = a → ∀ c, (c.waiting w).length ≤ ((f c).waiting w).length) :
    (p.waiting a g w).length ≤ ((p.modifyContext b f).waiting a g w).length := by
  unfold Platform.waiting
  cases hc : p.context? a with
  | none => exact Nat.zero_le _
  | some c =>
    rcases context?_changed (f := f) b hc with ⟨hba, hd⟩ | ⟨-, hd⟩
    · rw [hd]
      dsimp only
      rw [hg]
      split
      · exact hf hba c
      · exact Nat.le_refl _
    · rw [hd]

/-- Beside the actors, nothing happens to what waits for them. -/
theorem Platform.Beside.waiting (hb : Beside V p q) : q.waiting a g w = p.waiting a g w := by
  unfold Platform.waiting
  cases hc : p.context? a with
  | none =>
    cases hd : q.context? a with
    | none => rfl
    | some d =>
      obtain ⟨c, hc', -⟩ := hb.context hd
      exact absurd (hc.symm.trans hc') (by simp)
  | some c =>
    obtain ⟨d, hd, hlike⟩ := hb.context' hc
    rw [hd]
    dsimp only
    rw [hlike.generation, hlike.waiting]

/-- **A move** that takes something from a mailbox is one of the three. -/
theorem Move.takes (hm : Move code V same x s y t) (hwent : went a g s t .mail ≠ []) :
    Takes a s t := by
  have changed {b : Address} {f : Context κ → Context κ}
      (ht : t.platform.waiting a g .mail = (s.platform.modifyContext b f).waiting a g .mail)
      (hg : ∀ c, (f c).generation = c.generation)
      (hf : b = a → ∀ c, (c.waiting .mail).length ≤ ((f c).waiting .mail).length) :
      Takes a s t :=
    (hwent (went_of_le (ht ▸ length_waiting_le hg hf))).elim
  cases hm with
  | beside hb => exact (hwent (went_stay hb.waiting)).elim
  | accept | gone => exact (hwent (went_stay rfl)).elim
  | @mail b env =>
    refine changed (f := fun c => c.mapMailbox (· ++ [env])) (waiting_congr context?_scheduleMail)
      (fun _ => rfl) fun _ c => ?_
    unfold Context.mapMailbox Context.waiting
    cases c.mailbox <;> simp
  | hand | out | back => exact changed rfl (fun _ => rfl) fun _ _ => Nat.le_refl _
  | takeBacklog _ htake =>
    obtain ⟨_, _, -, -, -, rfl⟩ := takeBacklog_some htake
    exact changed rfl (fun _ => rfl) fun _ _ => Nat.le_refl _
  | takeMail b =>
    by_cases hba : b = a
    · exact hba ▸ .dequeued
    · exact changed rfl (fun _ => rfl) fun h => absurd h hba
  | discard b =>
    by_cases hba : b = a
    · exact hba ▸ .dropped
    · have hdrop : Aloof V (s.platform.takeMail b).2 _ := discardMail_aloof s.platform b
      exact changed hdrop.waiting (fun _ => rfl) fun h => absurd h hba
  | @takeMatch b hit p _ _ _ _ htake =>
    by_cases hba : b = a
    · exact hba ▸ .received htake
    · obtain ⟨_, _, _, _, -, -, -, -, -, rfl⟩ := takeMatch_eq htake
      exact changed rfl (fun _ => rfl) fun h => absurd h hba

/-! ## Keeping track -/

/-- **Who takes from mailboxes** is kept track of. -/
def Track.takes (code : Code κ) (V : Event → Prop) : Track code V where
  same _ _ := True
  holds _ h s := ∀ a g, Drawn a g (s :: h)
  kept _ _ := True
  same_refl _ := trivial
  same_trans _ _ _ _ _ := trivial
  kept_refl _ := trivial
  kept_trans _ _ := trivial
  freshId _ := trivial
  judge _ _ _ := trivial
  poll _ _ := trivial
  move hm _ hd := ⟨fun a g => .cons_cons hm.takes (hd a g), trivial⟩
  tend ht _ hi hd :=
    ⟨fun a g => .cons_cons (fun hwent => absurd (ht.went hi) hwent) (hd a g), trivial⟩

open Troupe.Flow in
theorem upheld_takes (hpub : code.Publishes V) : Upheld (Track.takes code V) :=
  .of_any hpub (fun _ _ => trivial) (fun _ _ _ _ _ _ hd => hd) fun _ _ _ _ _ _ hd => hd

open Moment in
/-- Nothing is taken between operations. -/
theorem outlook_takes (code : Code κ) {V : Event → Prop} {start : κ.World → Prop}
    {mean : Stage κ → Stage κ → Prop} (hmean : ∀ s t, mean s t →
      s.platform.bus.Grown (fun e => e.isReport = true ∨ V e) t.platform.bus) :
    Outlook (Track.takes code V) start mean fun _ => True :=
  .of_beside (fun _ _ _ _ _ => ⟨fun _ _ => .singleton _, trivial⟩)
    (fun s t hst => ⟨trivial, hmean s t hst⟩) fun _ _ _ _ => trivial

end

end Troupe
