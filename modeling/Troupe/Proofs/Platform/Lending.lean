import Troupe.Proofs.Platform.Step

/-!
# Lending

While an actor's code runs the actor is out of its context (`ActorLent`), and while a machine is in
use the machine is (`MachineLent`). `Clean V p q` says that the way from `p` to `q` was nested work
that gave back whatever it took. What is taken out for some clean work is put back afterwards
(`checkin_instance`, `checkin_runtime`), unless its incarnation has gone; either way nothing more is
missing than before.

`Lent` is what the two have in common, so that taking out and putting back are argued about once:
`Lent.of_taken`, `Lent.of_returned`, `Lent.not_gone`.

Headlines:
* **`actor_clean`**, **`machine_clean`**: what is lent comes back, or its incarnation has gone.
* **`Clean.idle`**: whoever was at hand is at hand after clean work, and so is whoever is new.
-/

namespace Troupe.Platform

variable {κ : App} {p q r : Platform κ} {a b : Address} {g : Nat} {c : Context κ} {m : Machine κ}
  {f : Context κ → Context κ} {P : Context κ → Prop} {V : Event → Prop}

/-- Nested work (`Nested`) that leaves nothing lent (`Repaid`). -/
structure Clean (V : Event → Prop) (p q : Platform κ) : Prop where
  nested : Nested V p q
  repaid : Repaid p q

theorem Clean.refl (p : Platform κ) : Clean V p p := ⟨.refl p, .refl p⟩

theorem Clean.trans (h : Clean V p q) (h' : Clean V q r) : Clean V p r :=
  ⟨h.nested.trans h'.nested, h.repaid.trans h'.repaid⟩

theorem Step.clean (h : Step p q) : Clean V p q := ⟨h.nested, h.repaid⟩

theorem Announce.clean (h : Announce V p q) : Clean V p q := by
  refine ⟨h.nested, ?_⟩
  cases h
  exact .of_eq fun _ => rfl

theorem Upkeep.clean (h : Upkeep p q) : Clean V p q := ⟨h.nested, h.repaid⟩

theorem discardMail_clean (p : Platform κ) (a : Address) : Clean V p (p.discardMail a) := by
  have htake : Clean V p (p.takeMail a).2 := (Step.takeMail a).clean
  unfold discardMail
  split
  · rename_i h
    rw [h] at htake
    exact htake.trans (Step.publish rfl).clean
  · rename_i h
    rw [h] at htake
    exact htake

/-- **Whoever was at hand is at hand afterwards** (`Context.isIdle`), and so is whoever is new. -/
theorem Clean.idle (h : Clean V p q) (hp : ∀ c, p.context? a = some c → c.isIdle = true)
    (hc : q.context? a = some c) : c.isIdle = true := by
  have hactor : c.actor ≠ none := by
    intro hnone
    obtain ⟨d, hd, -, hd'⟩ := h.repaid.actor a c.generation ⟨c, hc, rfl, hnone⟩
    exact absurd (hp d hd) (by simp [Context.isIdle, hd'])
  have hmachine : c.machine ≠ none := by
    intro hnone
    obtain ⟨d, hd, -, hd'⟩ := h.repaid.machine a c.generation ⟨c, hc, rfl, hnone⟩
    exact absurd (hp d hd) (by simp [Context.isIdle, hd'])
  rw [Context.isIdle, Bool.and_eq_true]
  exact ⟨Option.isSome_iff_ne_none.mpr hactor, Option.isSome_iff_ne_none.mpr hmachine⟩

/-! ## Taking out and putting back -/

/-- Something holds of an incarnation's context: what `ActorLent` and `MachineLent` have in common.
-/
def Lent (p : Platform κ) (P : Context κ → Prop) (a : Address) (g : Nat) : Prop :=
  ∃ c, p.context? a = some c ∧ c.generation = g ∧ P c

/-- Who lacks something (`Lent`) after a change of contexts. -/
theorem lent_modifyContext (h : (p.modifyContext a f).Lent P b g)
    (hf : ∀ c, (f c).generation = c.generation) :
    p.Lent (fun c => P (if b = a then f c else c)) b g := by
  obtain ⟨c', hc', hg, hn⟩ := h
  rw [context?_modifyContext_eq] at hc'
  obtain ⟨c, hc, rfl⟩ := Option.map_eq_some_iff.mp hc'
  refine ⟨c, hc, ?_, hn⟩
  split at hg
  · exact (hf c).symm.trans hg
  · exact hg

/-- A change of other things. -/
theorem Lent.of_kept (h : (p.modifyContext a f).Lent P b g)
    (hf : ∀ c, (f c).generation = c.generation) (hP : ∀ c, P (f c) → P c) : p.Lent P b g := by
  obtain ⟨c, hc, hg, hn⟩ := lent_modifyContext h hf
  refine ⟨c, hc, hg, ?_⟩
  split at hn
  · exact hP c hn
  · exact hn

/-- What is lent after taking something out was lent before, or it is what was taken out (`Lent`).
-/
theorem Lent.of_taken (h : (p.modifyContext a f).Lent P b g) (hc : p.context? a = some c)
    (hf : ∀ c, (f c).generation = c.generation) : p.Lent P b g ∨ (b = a ∧ g = c.generation) := by
  obtain ⟨d, hd, hg, hn⟩ := lent_modifyContext h hf
  by_cases hb : b = a
  · obtain rfl := hb
    obtain rfl := Option.some.inj (hd.symm.trans hc)
    exact Or.inr ⟨rfl, hg.symm⟩
  · rw [if_neg hb] at hn
    exact Or.inl ⟨d, hd, hg, hn⟩

/-- What is lent after putting something back is lent by others. -/
theorem Lent.of_returned (h : (p.modifyContext a f).Lent P b g)
    (hf : ∀ c, (f c).generation = c.generation) (hP : ∀ c, ¬ P (f c)) : b ≠ a ∧ p.Lent P b g := by
  obtain ⟨d, hd, hg, hn⟩ := lent_modifyContext h hf
  by_cases hb : b = a
  · rw [if_pos hb] at hn
    exact absurd hn (hP d)
  · rw [if_neg hb] at hn
    exact ⟨hb, d, hd, hg, hn⟩

/-- An incarnation that has gone (`Platform.isCurrent`) lacks nothing. -/
theorem Lent.not_gone {g' : Nat} (h : p.Lent P b g) (hgone : p.isCurrent a g' = false) :
    ¬ (b = a ∧ g = g') := by
  rintro ⟨rfl, rfl⟩
  obtain ⟨d, hd, hg, -⟩ := h
  have hcur : p.isCurrent b g = true := isCurrent_iff.mpr ⟨d, hd, hg⟩
  exact absurd (hcur.symm.trans hgone) (by simp)

/-- **An actor that is lent comes back** (`Context.actor`), or its incarnation has gone. -/
theorem actor_clean (hc : p.context? a = some c)
    (h : Clean V (p.modifyContext a fun c => { c with actor := none }) q) (actor : κ.Actor) :
    (q.isCurrent a c.generation = true →
      Clean V p (q.modifyContext a fun c => { c with actor := some actor })) ∧
    (q.isCurrent a c.generation = false → Clean V p q) := by
  have hloan : Nested V p q := (Loan.actor a).nested.trans h.nested
  have hactor (b : Address) (g : Nat) (hl : q.ActorLent b g) :
      p.ActorLent b g ∨ (b = a ∧ g = c.generation) :=
    Lent.of_taken (h.repaid.actor b g hl) hc fun _ => rfl
  have hmachine (b : Address) (g : Nat) (hl : q.MachineLent b g) : p.MachineLent b g :=
    Lent.of_kept (h.repaid.machine b g hl) (fun _ => rfl) fun _ hn => hn
  constructor
  · intro _
    have hstep : Step q (q.modifyContext a fun c => { c with actor := some actor }) :=
      .returnActor a actor
    refine ⟨hloan.trans hstep.nested, fun b g hl => ?_, fun b g hl => ?_⟩
    · obtain ⟨hb, hl⟩ := Lent.of_returned hl (fun _ => rfl) fun _ => by simp
      exact (hactor b g hl).resolve_right fun hba => hb hba.1
    · exact hmachine b g (hstep.repaid.machine b g hl)
  · intro hgone
    exact ⟨hloan, fun b g hl => (hactor b g hl).resolve_right (Lent.not_gone hl hgone), hmachine⟩

/-- **A machine that is lent comes back** (`Context.machine`), or its incarnation has gone. -/
theorem machine_clean (hc : p.context? a = some c)
    (h : Clean V (p.modifyContext a fun c => { c with machine := none }) q)
    (hm : m.AtRest a c.generation) :
    (q.isCurrent a c.generation = true →
      Step q ((q.modifyContext a fun c => { c with machine := some m }).enqueue a) ∧
      Clean V p ((q.modifyContext a fun c => { c with machine := some m }).enqueue a)) ∧
    (q.isCurrent a c.generation = false → Clean V p q) := by
  have hloan : Nested V p q := (Loan.machine a).nested.trans h.nested
  have hactor (b : Address) (g : Nat) (hl : q.ActorLent b g) : p.ActorLent b g :=
    Lent.of_kept (h.repaid.actor b g hl) (fun _ => rfl) fun _ hn => hn
  have hmachine (b : Address) (g : Nat) (hl : q.MachineLent b g) :
      p.MachineLent b g ∨ (b = a ∧ g = c.generation) :=
    Lent.of_taken (h.repaid.machine b g hl) hc fun _ => rfl
  constructor
  · intro hcur
    have hstep : Step q
        ((q.modifyContext a fun c => { c with machine := some m }).enqueue a) := by
      have hr : Step q _ := .returnMachine ⟨rfl, rfl, hm.frames, hm.room, hm.sound⟩
        (by rw [hm.address, hm.generation]; exact hcur)
      rwa [hm.address] at hr
    refine ⟨hstep, hloan.trans hstep.nested, fun b g hl => ?_, fun b g hl => ?_⟩
    · exact hactor b g (hstep.repaid.actor b g hl)
    · have hl' : (q.modifyContext a fun c => { c with machine := some m }).MachineLent b g := by
        obtain ⟨d, hd, hdg⟩ := hl
        exact ⟨d, context?_enqueue ▸ hd, hdg⟩
      obtain ⟨hb, hl'⟩ := Lent.of_returned hl' (fun _ => rfl) fun _ => by simp
      exact (hmachine b g hl').resolve_right fun hba => hb hba.1
  · intro hgone
    exact ⟨hloan, hactor, fun b g hl => (hmachine b g hl).resolve_right (Lent.not_gone hl hgone)⟩

/-- Where no machine is at hand, none can be taken (`Loan`). -/
theorem loan_clean (h : ∀ c, p.context? a = some c → c.machine = none) :
    Clean V p (p.modifyContext a fun c => { c with machine := none }) := by
  refine ⟨(Loan.machine a).nested, fun b g hl => Lent.of_kept hl (fun _ => rfl) fun _ hn => hn,
    fun b g hl => ?_⟩
  obtain ⟨d, hd, hg, hn⟩ := lent_modifyContext hl fun _ => rfl
  by_cases hb : b = a
  · exact ⟨d, hd, hg, h d (hb ▸ hd)⟩
  · rw [if_neg hb] at hn
    exact ⟨d, hd, hg, hn⟩

end Troupe.Platform
