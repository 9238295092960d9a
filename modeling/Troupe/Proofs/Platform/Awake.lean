import Troupe.Proofs.Platform.Step

/-!
# Mail that is waited for

`Awake p a` says that mail which an armed receiver waits for is not forgotten: a slot for it is
waiting (`HasMailSlot`). That is what `scheduleMail` (`schedule_notify`) is for, which does nothing
where a slot is waiting already. `AwakeBut p a (some g)` lets one incarnation off, the one whose
mail is being looked after.

Every step and every loan keeps it, with any incarnation let off (`AwakeBut.nested`). Taking a slot
for mail is what lets an incarnation off, and looking for mail anew takes it back. An incarnation
that has gone need not be let off (`AwakeBut.awake_of_gone`).

Headlines:
* **`awake_scheduleMail`**: where mail and a receiver are, a slot is waiting after a look for mail.
* **`AwakeBut.begin`**: taking a slot lets off the incarnation whose mail it looks after, and nobody
  else.
* **`AwakeBut.turning`**: working off queues lets off whoever is attended to (`attended`), and
  nobody else.
-/

namespace Troupe.Platform

variable {κ : App} {p q : Platform κ} {a b : Address} {g : Nat} {but : Option Nat}

theorem AwakeBut.mono (h : p.AwakeBut a but)
    (hc : ∀ c', q.context? a = some c' → c'.hasMail = true → c'.receivers ≠ [] →
      ∃ c, p.context? a = some c ∧ c.generation = c'.generation ∧ c.hasMail = true ∧
        c.receivers ≠ [])
    (hs : ∀ g, p.HasMailSlot a g → q.HasMailSlot a g) : q.AwakeBut a but := by
  intro c' hc' hg hm hr
  obtain ⟨c, hc, hgen, hm, hr⟩ := hc c' hc' hm hr
  rw [← hgen] at hg ⊢
  exact hs _ (h c hc hg hm hr)

theorem AwakeBut.congr (h : p.AwakeBut a but) (hc : q.context? a = p.context? a)
    (hs : q.pending.get? a = p.pending.get? a) : q.AwakeBut a but := by
  refine h.mono (fun c hq hm hr => ⟨c, hc ▸ hq, rfl, hm, hr⟩) fun g hg => ?_
  unfold HasMailSlot
  rw [hs]
  exact hg

theorem AwakeBut.of_awake (h : p.Awake a) : p.AwakeBut a but :=
  fun c hc _ hm hr => h c hc (by simp) hm hr

/-- An incarnation that has gone (`Platform.isCurrent`) need not be let off. -/
theorem AwakeBut.awake_of_gone (h : p.AwakeBut a (some g)) (hg : p.isCurrent a g = false) :
    p.Awake a := by
  intro c hc _ hm hr
  refine h c hc (fun he => ?_) hm hr
  have hcur : p.isCurrent a g = true := isCurrent_iff.mpr ⟨c, hc, Option.some.inj he⟩
  exact absurd (hcur.symm.trans hg) (by simp)

/-- Nothing is waited for (`Platform.Awake`) where there is no mail or no receiver. -/
theorem awake_of_idle (h : ∀ c, p.context? a = some c → c.hasMail = false ∨ c.receivers = []) :
    p.Awake a := by
  intro c hc _ hm hr
  rcases h c hc with hno | hno
  · exact absurd (hm.symm.trans hno) (by simp)
  · exact absurd hno hr

/-! ## Steps and loans -/

/-- A change of a context that brings no mail and arms no receiver (`Context.hasMail`). -/
theorem AwakeBut.modifyContext (h : p.AwakeBut a but) {f : Context κ → Context κ}
    (hf : ∀ c, p.context? b = some c → (f c).generation = c.generation ∧
      ((f c).hasMail = true → c.hasMail = true) ∧ ((f c).receivers ≠ [] → c.receivers ≠ [])) :
    (p.modifyContext b f).AwakeBut a but := by
  refine h.mono (fun c' hc' hm hr => ?_) fun _ hg => hg
  rw [context?_modifyContext] at hc'
  by_cases hab : a = b
  · rw [if_pos hab] at hc'
    obtain ⟨c, hc, rfl⟩ := Option.map_eq_some_iff.mp hc'
    obtain ⟨hgen, hmail, hrec⟩ := hf c hc
    exact ⟨c, hab ▸ hc, hgen.symm, hmail hm, hrec hr⟩
  · rw [if_neg hab] at hc'
    exact ⟨c', hc', rfl, hm, hr⟩

theorem hasMailSlot_schedule {g' : Nat} (w : Work κ) (h : p.HasMailSlot a g) :
    (p.schedule b g' w).HasMailSlot a g := by
  obtain ⟨slots, hs, s, hm, hg, hw⟩ := h
  obtain ⟨_, _, _, hq⟩ := schedule_eq p b g' w
  unfold HasMailSlot
  rw [hq]
  show ∃ slots, (p.pending.insert b _).get? a = some slots ∧ _
  rw [Table.get?_insert]
  by_cases hab : a = b
  · refine ⟨_, if_pos hab, s, ?_, hg, hw⟩
    rw [← hab, hs]
    exact List.mem_append_left _ hm
  · exact ⟨slots, (if_neg hab).trans hs, s, hm, hg, hw⟩

theorem hasMailSlot_scheduleMail (h : p.HasMailSlot a g) : (p.scheduleMail b).HasMailSlot a g := by
  unfold scheduleMail
  split
  · exact h
  · dsimp only
    split
    · exact h
    · exact hasMailSlot_schedule .mail h

theorem AwakeBut.schedule (h : p.AwakeBut a but) (w : Work κ) :
    (p.schedule b g w).AwakeBut a but :=
  h.mono (fun c hc hm hr => ⟨c, context?_schedule w ▸ hc, rfl, hm, hr⟩)
    fun _ => hasMailSlot_schedule w

/-- **Looking for mail finds it** (`Platform.scheduleMail`): where mail and a receiver are, a slot
is waiting afterwards. -/
theorem awake_scheduleMail (p : Platform κ) (a : Address) : (p.scheduleMail a).Awake a := by
  intro c hc _ hm hr
  rw [context?_scheduleMail] at hc
  unfold scheduleMail
  rw [hc]
  dsimp only
  split
  · rename_i hno
    -- there is mail and a receiver, so a slot is waiting already
    rw [hm, Bool.not_true, Bool.false_or, Bool.or_eq_true, List.isEmpty_iff] at hno
    have hwait := hno.resolve_left hr
    rw [Option.any_eq_true] at hwait
    obtain ⟨slots, hs, hany⟩ := hwait
    obtain ⟨s, hmem, hs'⟩ := List.any_eq_true.mp hany
    rw [Bool.and_eq_true, beq_iff_eq] at hs'
    exact ⟨slots, hs, s, hmem, hs'⟩
  · obtain ⟨_, _, _, hq⟩ := schedule_eq p a c.generation .mail
    unfold HasMailSlot
    rw [hq]
    show ∃ slots, (p.pending.insert a _).get? a = some slots ∧ _
    rw [Table.get?_insert, if_pos rfl]
    exact ⟨_, rfl, ⟨c.generation, .mail⟩, by simp, rfl, rfl⟩

/-- Whatever was done to a context, looking for its mail (`Platform.scheduleMail`) puts it in order.
-/
theorem AwakeBut.look (hq : a ≠ b → q.AwakeBut a but) : (q.scheduleMail b).AwakeBut a but := by
  by_cases hab : a = b
  · rw [hab]
    exact .of_awake (awake_scheduleMail q b)
  · exact (hq hab).mono (fun c hc hm hr => ⟨c, context?_scheduleMail ▸ hc, rfl, hm, hr⟩)
      fun _ => hasMailSlot_scheduleMail

theorem hasMail_tail {c : Context κ} (h : (c.mapMailbox List.tail).hasMail = true) :
    c.hasMail = true := by
  unfold Context.hasMail Context.mapMailbox at h
  unfold Context.hasMail
  cases hm : c.mailbox with
  | none => exact absurd h (by simp [hm])
  | some box =>
    cases box with
    | nil => exact absurd h (by simp [hm])
    | cons env box => rfl

theorem AwakeBut.step (hs : Step p q) (h : p.AwakeBut a but) : q.AwakeBut a but := by
  cases hs with
  | publish | raise | fail | stop | reroute | register => exact h.congr rfl rfl
  | join group b =>
    obtain ⟨_, _, hq, -⟩ := putMember_eq p group b
    rw [hq]
    exact h.congr rfl rfl
  | @enrol b actor bh t _ _ _ _ _ =>
    refine h.mono (fun c hc hm hr => ?_) fun _ hg => hg
    rcases context?_enrol_eq_some.mp hc with ⟨-, rfl⟩ | ⟨-, hc⟩
    · -- a new mailbox is empty
      refine absurd hm ?_
      unfold Context.hasMail Context.new
      cases bh.flags.buffered <;> simp
    · exact ⟨c, hc, rfl, hm, hr⟩
  | @dismiss b _ =>
    intro c hc hg hm hr
    obtain ⟨hab, hc⟩ := context?_dismiss_eq_some.mp hc
    obtain ⟨slots, hs, hslot⟩ := h c hc hg hm hr
    obtain ⟨_, _, hq, -⟩ := dismiss_eq p b
    rw [hq]
    exact ⟨slots, Table.get?_erase_eq_some.mpr ⟨hab, hs⟩, hslot⟩
  | mail b env =>
    refine .look fun hab => h.congr ?_ rfl
    rw [putMail, context?_modifyContext, if_neg hab]
  | arm b t =>
    refine .look fun hab => h.congr ?_ rfl
    rw [context?_modifyContext, if_neg hab]
  | look b => exact .look fun _ => h
  | takeMatch ht =>
    obtain ⟨c, receiver, rest, box, hc, hr, hb, _, _, rfl⟩ := takeMatch_eq ht
    refine h.modifyContext fun d hd => ⟨rfl, hasMail_tail, fun _ => ?_⟩
    obtain rfl := Option.some.inj (hc.symm.trans hd)
    rw [hr]
    exact List.cons_ne_nil _ _
  | takeMail b => exact h.modifyContext fun c _ => ⟨rfl, hasMail_tail, id⟩
  | backlog b f => exact h.modifyContext fun c _ => ⟨rfl, id, id⟩
  | returnActor b actor => exact h.modifyContext fun c _ => ⟨rfl, id, id⟩
  | @returnMachine m _ _ =>
    have hm : (p.modifyContext m.address fun c => { c with machine := some m }).AwakeBut a but :=
      h.modifyContext fun c _ => ⟨rfl, id, id⟩
    refine hm.congr context?_enqueue ?_
    obtain ⟨_, _, _, hq⟩ :=
      enqueue_eq (p.modifyContext m.address fun c => { c with machine := some m }) m.address
    rw [hq]

theorem AwakeBut.loan (hl : Loan p q) (h : p.AwakeBut a but) : q.AwakeBut a but := by
  cases hl <;> exact h.modifyContext fun c _ => ⟨rfl, id, id⟩

theorem AwakeBut.nested {V : Event → Prop} (hpq : Nested V p q) (h : p.AwakeBut a but) :
    q.AwakeBut a but :=
  hpq.keeps (fun _ _ => AwakeBut.step) (fun _ _ => AwakeBut.loan) (fun _ _ h => h.congr rfl rfl) h

/-! ## Turns -/

/-- Who has begun a turn (`Platform.turn`) has a slot less; the others have what they had. -/
theorem hasMailSlot_begin {s : Slot κ} (ht : p.turn = .slot b s q) (h : p.HasMailSlot a g) :
    q.HasMailSlot a g ∨ (a = b ∧ s.generation = g ∧ s.work.isMail = true) := by
  obtain ⟨rest, left, -, -, hp, rfl⟩ := turn_slot ht
  obtain ⟨slots, hs, t, hm, hg, hw⟩ := h
  by_cases hab : a = b
  · obtain rfl := hab
    obtain rfl := Option.some.inj (hp.symm.trans hs)
    rcases List.mem_cons.mp hm with rfl | hm
    · exact Or.inr ⟨rfl, hg, hw⟩
    · refine Or.inl ⟨left, ?_, t, hm, hg, hw⟩
      have hne : ¬ left.isEmpty = true := by
        rw [List.isEmpty_iff]
        rintro rfl
        exact absurd hm List.not_mem_nil
      show (if left.isEmpty = true then _ else _ : Table Address (List (Slot κ))).get? a = some left
      rw [if_neg hne, Table.get?_insert, if_pos rfl]
  · refine Or.inl ⟨slots, ?_, t, hm, hg, hw⟩
    show (if left.isEmpty = true then _ else _ : Table Address (List (Slot κ))).get? a = some slots
    by_cases he : left.isEmpty = true
    · rw [if_pos he, Table.get?_erase, if_neg hab]
      exact hs
    · rw [if_neg he, Table.get?_insert, if_neg hab]
      exact hs

/-- **Taking a slot** lets off the incarnation whose mail it looks after (`excused`), and
nobody else. -/
theorem AwakeBut.begin {s : Slot κ} (ht : p.turn = .slot b s q) (h : p.Awake b) :
    q.AwakeBut b (excused s) := by
  intro c hc hg hm hr
  have hcp : p.context? b = some c := by
    obtain ⟨_, _, _, _, _, rfl⟩ := turn_slot ht
    exact hc
  refine (hasMailSlot_begin ht (h c hcp (by simp) hm hr)).resolve_right ?_
  rintro ⟨-, hsg, hw⟩
  unfold excused at hg
  rw [if_pos hw, hsg] at hg
  exact hg rfl

theorem AwakeBut.begin_other {s : Slot κ} (ht : p.turn = .slot b s q) (hab : a ≠ b)
    (h : p.AwakeBut a but) : q.AwakeBut a but := by
  have hc : q.context? a = p.context? a := by
    obtain ⟨_, _, _, _, _, rfl⟩ := turn_slot ht
    rfl
  refine h.mono (fun c hq hm hr => ⟨c, hc ▸ hq, rfl, hm, hr⟩) fun g hg => ?_
  exact (hasMailSlot_begin ht hg).resolve_right fun hb => hab hb.1

theorem attended_of_not_running (h : p.running.contains a = false) : p.attended a = none := by
  rw [Table.contains_eq, Option.isSome_eq_false_iff, Option.isNone_iff_eq_none] at h
  unfold attended
  rw [h]
  rfl

theorem attended_congr (h : q.running = p.running) : q.attended a = p.attended a := by
  unfold attended
  rw [h]

/-- **Turning** lets off whoever is attended to (`Platform.attended`), and nobody else. -/
theorem AwakeBut.turning (ht : Turning p q) (h : p.AwakeBut a (p.attended a)) :
    q.AwakeBut a (q.attended a) := by
  cases ht with
  | judge | hear => exact h.congr rfl rfl
  | skip ht =>
    obtain ⟨_, _, _, ⟨-, rfl⟩ | ⟨-, rfl⟩⟩ := turn_skipped ht
    · exact h.congr rfl rfl
    · exact h.congr rfl rfl
  | @begin b s _ hb ht =>
    have hrun : q.running = p.running.insert b s := by
      obtain ⟨_, _, _, _, _, rfl⟩ := turn_slot ht
      rfl
    by_cases hab : a = b
    · obtain rfl := hab
      rw [attended_of_not_running hb] at h
      have hs : q.attended a = excused s := by
        unfold attended
        rw [hrun, Table.get?_insert, if_pos rfl]
        rfl
      rw [hs]
      exact .begin ht h
    · have hs : q.attended a = p.attended a := by
        unfold attended
        rw [hrun, Table.get?_insert, if_neg hab]
      rw [hs]
      exact .begin_other ht hab h
  | @finish b hb =>
    obtain ⟨_, _, _, he⟩ := endTurn_eq p b
    rw [he]
    by_cases hab : a = b
    · exact .of_awake (AwakeBut.congr (hab ▸ hb) rfl rfl)
    · have hs : (p.running.erase b).get? a = p.running.get? a := by
        rw [Table.get?_erase, if_neg hab]
      unfold attended at h ⊢
      rw [hs]
      exact h.congr rfl rfl
  | @schedule b g s _ =>
    have hs := AwakeBut.schedule (b := b) (g := g) h (.script s)
    obtain ⟨_, _, _, he⟩ := schedule_eq p b g (.script s)
    rwa [attended_congr (p := p) (by rw [he])]
  | part group b =>
    obtain ⟨_, he⟩ := removeMember_eq p group b
    rw [he]
    exact h.congr rfl rfl

end Troupe.Platform
