import Troupe.Proofs.Watch.Diary

/-!
# The lives of actors

Every actor leads an orderly life (`Life`): it is built and gets its first call, and then acts on
one occasion after the other until it gets its last call. While it is not acting it stands at its
address (`Platform.stand`), or is in hand for a moment, to act next or to be put back
(`Due.inHand`). The incarnation for which an actor acts is always the same, and nobody else acts for
it.

What is known is kept by each thing that is done with an actor, one lemma for each: `Life.takeOut`,
`Life.putBack`, `Life.begin`, `Life.finish`, `Life.install`, `Life.goAway`, `Life.lastCall`. What a
change of the stage is for the actors (`Shift`) is one of these things, or nothing.

What is asked of numbers and addresses comes first, with `stand` as a mere function: who stands
where after one address has changed (`stand_update`, `stand_changed`), that incarnations there are
old (`known_put`), and that nobody stands in two places (`alone_put`). Stages come in with
`Stage.Lives`, and hooks with `Lives.noted`.

Headlines:
* **`Move.shift`**, **`Tend.shift`**: what a move and what tending to actors is for them.
* **`Stage.Lives.shift`**: so every change keeps lives in order.
* **`Stage.Lives.acting`**: when the code of an actor has run that began for an incarnation, it is
  still acting, and for that incarnation.
-/

namespace Troupe

variable {κ : App}

open Platform Diary

/-! ## Where actors stand -/

/-- The `Context.generation`, and the `Context.actor` if it is at hand. -/
def Context.stand (c : Context κ) : Nat × Option κ.Actor :=
  (c.generation, c.actor)

/-- Who stands at an address (`Context.stand`). -/
def Platform.stand (p : Platform κ) (a : Address) : Option (Nat × Option κ.Actor) :=
  (p.context? a).map Context.stand

/-- The incarnation for which an actor is in hand, and its number (`App.recorded`). -/
def Due.inHand : Option (Due κ.recorded) → Option (Address × Nat × Nat)
  | some (.opening a g _ actor) => some (a, g, actor.2)
  | some (.closing a g _ actor) => some (a, g, actor.2)
  | some (.arrival _ _) | some (.hook _ _ _) | some (.parting _ _) | none => none

/-- Whoever is removed next (`Due.Leaves`) is not in hand. -/
theorem Due.Leaves.inHand {a : Address} {g : Nat} {y : Option (Due κ.recorded)}
    (h : Due.Leaves a g y) : Due.inHand y = none := by
  cases h <;> rfl

theorem Due.Done.inHand {p : Platform κ.recorded} {x : Option (Due κ.recorded)}
    (h : Due.Done p x) : Due.inHand x = none := by
  cases h <;> rfl

/-- What is known of numbered actors that stand at addresses, of a `Diary`, and of the next
generation. -/
structure Life (stand : Address → Option (Nat × Option κ.recorded.Actor)) (d : Diary) (next : Nat)
    (x : Option (Due κ.recorded)) : Prop where
  numbered : ∀ e ∈ d, e.serial < d.length
  orderly : ∀ n, ∃ p, d.phase n = some p ∧ p ≠ .built
  /-- Actors that stand at an address are idle, and belong there. -/
  home : ∀ a g actor, stand a = some (g, some actor) →
    d.phase actor.2 = some .idle ∧ d.Ties actor.2 a g
  /-- No actor stands at two addresses. -/
  alone : ∀ a b g l actor actor', stand a = some (g, some actor) → stand b = some (l, some actor') →
    actor.2 = actor'.2 → a = b
  /-- Idle actors stand at an address, or are in hand. -/
  placed : ∀ n, d.phase n = some .idle →
    (∃ a g actor, stand a = some (g, some actor) ∧ actor.2 = n) ∨
      ∃ a g, Due.inHand x = some (a, g, n)
  /-- An actor that is not at its address is acting, or in hand. -/
  out : ∀ a g, stand a = some (g, none) → (∃ n, d.phase n = some .acting ∧ d.Acted n a g) ∨
    ∃ n, Due.inHand x = some (a, g, n)
  tied : ∀ n a g, d.Acted n a g → d.Ties n a g
  old : ∀ n a g, d.Acted n a g → g < next
  known : ∀ a v, stand a = some v → v.1 < next
  /-- The actor in hand is idle, stands nowhere and belongs to its incarnation. -/
  hand : ∀ a g n, Due.inHand x = some (a, g, n) → d.phase n = some .idle ∧ g < next ∧ d.Ties n a g ∧
    ∀ b l actor, stand b = some (l, some actor) → actor.2 ≠ n
  opening : ∀ a g hook actor, x = some (.opening a g hook actor) → stand a = some (g, none)

namespace Life

variable {stand : Address → Option (Nat × Option κ.recorded.Actor)} {d : Diary} {next : Nat}
  {x y : Option (Due κ.recorded)} {a b : Address} {g l : Nat} {actor : κ.recorded.Actor}
  {hook : Hook}

/-- What is due is something else, with the same actor in hand (`Due.inHand`). -/
theorem recast (h : Life stand d next x) (hxy : Due.inHand y = Due.inHand x)
    (hopen : ∀ a g hook actor, y = some (.opening a g hook actor) → stand a = some (g, none)) :
    Life stand d next y where
  numbered := h.numbered
  orderly := h.orderly
  home := h.home
  alone := h.alone
  placed n hn := hxy ▸ h.placed n hn
  out a g ho := hxy ▸ h.out a g ho
  tied := h.tied
  old := h.old
  known := h.known
  hand a g n he := h.hand a g n (hxy ▸ he)
  opening := hopen

/-- Whoever has been put back may be removed next (`Due.Leaves`). -/
theorem part (h : Life stand d next none) (hy : Due.Leaves a g y) : Life stand d next y := by
  refine h.recast hy.inHand fun _ _ _ _ he => ?_
  cases hy <;> exact absurd he (by simp)

/-- If nobody is in hand, nothing need be due (`Due.Done`). -/
theorem calm {p : Platform κ.recorded} (h : Life stand d next x) (hx : Due.Done p x) :
    Life stand d next none :=
  h.recast hx.inHand.symm fun _ _ _ _ he => absurd he (by simp)

/-- Who stands at an address after a change at one (`Function.update`). -/
theorem stand_update {β : Type} {stand : Address → Option β} {a b : Address} {o v : Option β}
    (h : Function.update stand a o b = v) : (b = a ∧ o = v) ∨ (b ≠ a ∧ stand b = v) := by
  by_cases hab : b = a
  · subst hab
    rw [Function.update_self] at h
    exact Or.inl ⟨rfl, h⟩
  · rw [Function.update_of_ne hab] at h
    exact Or.inr ⟨hab, h⟩

/-- Who stood elsewhere still stands there. -/
theorem stand_elsewhere {β : Type} {stand : Address → Option β} {a b : Address} {o : Option β}
    {v : β} (hb : stand b = some v) (ha : stand a ≠ some v) :
    Function.update stand a o b = some v := by
  rw [Function.update_of_ne]
  · exact hb
  · rintro rfl
    exact ha hb

theorem stands_inj {actor actor' : κ.recorded.Actor}
    (h : some (g, some actor) = some (l, some actor')) : g = l ∧ actor = actor' :=
  ⟨congrArg Prod.fst (Option.some.inj h),
    Option.some.inj (congrArg Prod.snd (Option.some.inj h))⟩

/-- Whoever stands somewhere once an address has been left has stood there before. -/
theorem stand_emptied (hb : Function.update stand a (some (g, none)) b = some (l, some actor)) :
    b ≠ a ∧ stand b = some (l, some actor) :=
  (stand_update hb).resolve_left fun h => absurd h.2 (by simp)

/-- Whoever stands somewhere once another address has been left. -/
theorem stand_left {v : Nat × Option κ.recorded.Actor}
    (hb : Function.update stand a none b = some v) : stand b = some v :=
  ((stand_update hb).resolve_left fun h => absurd h.2 (by simp)).2

/-- Whose incarnations are there if an actor came to its address or left it. -/
theorem stand_changed {o o' o'' : Option κ.recorded.Actor} (ha : stand a = some (g, o))
    (hb : Function.update stand a (some (g, o')) b = some (l, o'')) :
    ∃ o, stand b = some (l, o) := by
  rcases stand_update hb with ⟨rfl, hl⟩ | ⟨-, hb⟩
  · obtain ⟨rfl, -⟩ := Prod.mk.inj (Option.some.inj hl)
    exact ⟨o, ha⟩
  · exact ⟨o'', hb⟩

/-- Incarnations that are there are old (`Life.known`), also the one that has come to an address. -/
theorem known_put (h : Life stand d next x) {v : Nat × Option κ.recorded.Actor} {next' : Nat}
    (hv : v.1 < next') (hnext : next ≤ next') (b : Address) (w : Nat × Option κ.recorded.Actor)
    (hb : Function.update stand a (some v) b = some w) : w.1 < next' := by
  rcases stand_update hb with ⟨-, hvw⟩ | ⟨-, hb⟩
  · exact Option.some.inj hvw ▸ hv
  · exact Nat.lt_of_lt_of_le (h.known b w hb) hnext

/-- An actor that has stood nowhere comes to an address, and stands only there (`Life.alone`). -/
theorem alone_put (h : Life stand d next x)
    (hnowhere : ∀ b l actor', stand b = some (l, some actor') → actor'.2 ≠ actor.2)
    (b c : Address) (l k : Nat) (actor' actor'' : κ.recorded.Actor)
    (hb : Function.update stand a (some (g, some actor)) b = some (l, some actor'))
    (hc : Function.update stand a (some (g, some actor)) c = some (k, some actor''))
    (hn : actor'.2 = actor''.2) : b = c := by
  rcases stand_update hb with ⟨hba, hl⟩ | ⟨-, hb⟩
  · obtain ⟨-, rfl⟩ := stands_inj hl
    rcases stand_update hc with ⟨hca, -⟩ | ⟨-, hc⟩
    · exact hba.trans hca.symm
    · exact absurd hn.symm (hnowhere c k actor'' hc)
  · rcases stand_update hc with ⟨-, hl⟩ | ⟨-, hc⟩
    · obtain ⟨-, rfl⟩ := stands_inj hl
      exact absurd hn (hnowhere b l actor' hb)
    · exact h.alone b c l k actor' actor'' hb hc hn

/-- An idle actor that is not the one in hand stands at an address (`Life.placed`). -/
theorem placed_other (h : Life stand d next x) {n k : Nat} (hx : Due.inHand x = some (a, g, k))
    (hn : d.phase n = some .idle) (hne : n ≠ k) :
    ∃ b l actor, stand b = some (l, some actor) ∧ actor.2 = n :=
  (h.placed n hn).resolve_right fun ⟨_, _, he⟩ =>
    hne (Prod.mk.inj (Prod.mk.inj (Option.some.inj (he.symm.trans hx))).2).2

/-- The actor is taken out: it is in hand (`Due.inHand`), and nobody stands at its address. -/
theorem takeOut (h : Life stand d next x) (hx : Due.inHand x = none)
    (ha : stand a = some (g, some actor)) (hook : Hook) :
    Life (Function.update stand a (some (g, none))) d next
      (some (.opening a g hook actor)) := by
  obtain ⟨hidle, hties⟩ := h.home a g actor ha
  have hg : g < next := h.known a _ ha
  refine ⟨h.numbered, h.orderly, ?home, ?alone, ?placed, ?out, h.tied, h.old,
    h.known_put hg (Nat.le_refl _), ?hand, ?opening⟩
  case home => exact fun b l actor' hb => h.home b l actor' (stand_emptied hb).2
  case alone =>
    exact fun b c l k actor' actor'' hb hc =>
      h.alone b c l k actor' actor'' (stand_emptied hb).2 (stand_emptied hc).2
  case placed =>
    intro n hn
    rcases h.placed n hn with ⟨b, l, actor', hb, rfl⟩ | ⟨_, _, he⟩
    · by_cases hab : b = a
      · subst hab
        obtain ⟨-, rfl⟩ := stands_inj (ha.symm.trans hb)
        exact Or.inr ⟨b, g, rfl⟩
      · exact Or.inl ⟨b, l, actor', (Function.update_of_ne hab _ _).trans hb, rfl⟩
    · exact absurd (hx.symm.trans he) (by simp)
  case out =>
    intro b l hb
    rcases stand_update hb with ⟨rfl, hl⟩ | ⟨-, hb⟩
    · obtain ⟨rfl, -⟩ := Prod.mk.inj (Option.some.inj hl)
      exact Or.inr ⟨actor.2, rfl⟩
    · exact (h.out b l hb).imp id fun ⟨_, he⟩ => absurd (hx.symm.trans he) (by simp)
  case hand =>
    intro b l n he
    obtain ⟨rfl, rfl, rfl⟩ : a = b ∧ g = l ∧ actor.2 = n := by simpa [Due.inHand] using he
    refine ⟨hidle, hg, hties, fun b l actor' hb hn => ?_⟩
    obtain ⟨hab, hb⟩ := stand_emptied hb
    exact hab (h.alone b a l g actor' actor hb ha hn)
  case opening =>
    intro b l hook' actor' he
    obtain ⟨rfl, rfl, -, -⟩ : a = b ∧ g = l ∧ hook = hook' ∧ actor = actor' := by simpa using he
    exact Function.update_self _ _ _

/-- The actor is put back, and stands at its address again. -/
theorem putBack (h : Life stand d next (some (.closing a g hook actor)))
    (ha : stand a = some (g, none)) :
    Life (Function.update stand a (some (g, some actor))) d next none := by
  obtain ⟨hidle, hg, hties, hnowhere⟩ := h.hand a g actor.2 rfl
  refine ⟨h.numbered, h.orderly, ?home, h.alone_put hnowhere, ?placed, ?out, h.tied, h.old,
    h.known_put hg (Nat.le_refl _), ?hand, ?opening⟩
  case home =>
    intro b l actor' hb
    rcases stand_update hb with ⟨rfl, hl⟩ | ⟨-, hb⟩
    · obtain ⟨rfl, rfl⟩ := stands_inj hl
      exact ⟨hidle, hties⟩
    · exact h.home b l actor' hb
  case placed =>
    intro n hn
    left
    by_cases hactor : n = actor.2
    · exact ⟨a, g, actor, Function.update_self _ _ _, hactor.symm⟩
    · obtain ⟨b, l, actor', hb, hn⟩ := h.placed_other rfl hn hactor
      exact ⟨b, l, actor', stand_elsewhere hb (by simp [ha]), hn⟩
  case out =>
    intro b l hb
    rcases stand_update hb with ⟨rfl, hl⟩ | ⟨hab, hb⟩
    · exact absurd hl (by simp)
    · refine (h.out b l hb).imp id fun ⟨n, he⟩ => ?_
      exact absurd (Prod.mk.inj (Option.some.inj he)).1.symm hab
  case hand => exact fun b l n he => absurd he (by simp [Due.inHand])
  case opening => exact fun b l hook actor he => absurd he (by simp)

/-! ## Entries -/

theorem lt_length (h : Life stand d next x) {n : Nat} (hn : d.phase n ≠ some .unborn) :
    n < d.length := by
  obtain ⟨e, he, rfl⟩ := mem_of_phase hn
  exact h.numbered e he

/-- An entry about an actor that has been noted before keeps numbers (`Life.numbered`). -/
theorem numbered_cons (h : Life stand d next x) {n : Nat} (deed : Deed)
    (hn : d.phase n ≠ some .unborn) : ∀ e ∈ (⟨n, deed⟩ :: d : Diary), e.serial < d.length + 1 := by
  intro e he
  rcases List.mem_cons.mp he with rfl | he
  · exact Nat.lt_succ_of_lt (h.lt_length hn)
  · exact Nat.lt_succ_of_lt (h.numbered e he)

/-- An entry that fits the story of an actor (`Phase.next`) keeps stories in order (`Life.orderly`).
-/
theorem orderly_cons (h : Life stand d next x) {n : Nat} {deed : Deed} {p q : Phase}
    (hp : d.phase n = some p) (hq : p.next deed = some q) (hb : q ≠ .built) (k : Nat) :
    ∃ p, Diary.phase (⟨n, deed⟩ :: d) k = some p ∧ p ≠ .built := by
  by_cases hk : n = k
  · subst hk
    exact ⟨q, (phase_cons hp).trans hq, hb⟩
  · rw [phase_other hk]
    exact h.orderly k

/-- An actor that is not as far as the one that an entry is about. -/
theorem phase_kept {n k : Nat} {p q : Phase} (hn : d.phase n = some p) (hk : d.phase k = some q)
    (hpq : p ≠ q) (deed : Deed) : Diary.phase (⟨n, deed⟩ :: d) k = some q := by
  rw [phase_other]
  · exact hk
  · rintro rfl
    exact hpq (Option.some.inj (hn.symm.trans hk))

/-- The actor in hand gets its last call (`Deed.stopped`). -/
theorem lastCall (h : Life stand d next (some (.closing a g hook actor)))
    (ha : ∀ o, stand a ≠ some (g, o)) :
    Life stand (⟨actor.2, .stopped⟩ :: d) next none := by
  obtain ⟨hidle, -, -, hnowhere⟩ := h.hand a g actor.2 rfl
  have hplain (n : Nat) (b : Address) (l : Nat)
      (hn : Diary.Acted (⟨actor.2, .stopped⟩ :: d) n b l) : d.Acted n b l :=
    acted_of_cons (by simp) hn
  refine ⟨h.numbered_cons _ (by simp [hidle]), h.orderly_cons hidle rfl (by simp), ?home, h.alone,
    ?placed, ?out, ?tied, ?old, h.known, ?hand, ?opening⟩
  case home =>
    intro b l actor' hb
    rw [phase_other (Ne.symm (hnowhere b l actor' hb))]
    exact (h.home b l actor' hb).imp id fun hties => hties.congr hplain
  case placed =>
    intro n hn
    obtain ⟨-, hretired⟩ | ⟨hne, hn⟩ := phase_cons_eq_some hidle hn
    · exact absurd hretired (by simp [Phase.next])
    · exact Or.inl (h.placed_other rfl hn hne)
  case out =>
    intro b l hb
    rcases h.out b l hb with ⟨n, hn, hacted⟩ | ⟨n, he⟩
    · exact Or.inl ⟨n, phase_kept hidle hn (by simp) _, hacted.cons⟩
    · obtain ⟨rfl, rfl, -⟩ : a = b ∧ g = l ∧ actor.2 = n := by simpa [Due.inHand] using he
      exact absurd hb (ha none)
  case tied => exact fun n b l hn => (h.tied n b l (hplain n b l hn)).congr hplain
  case old => exact fun n b l hn => h.old n b l (hplain n b l hn)
  case hand => exact fun b l n he => absurd he (by simp [Due.inHand])
  case opening => exact fun b l hook actor he => absurd he (by simp)

/-- The code of the actor begins to run (`Deed.began`). -/
theorem begin (h : Life stand d next (some (.opening a g hook actor))) :
    Life stand (⟨actor.2, .began hook a g⟩ :: d) next none := by
  obtain ⟨hidle, hold, hties, hnowhere⟩ := h.hand a g actor.2 rfl
  have hout := h.opening a g hook actor rfl
  have hacted {n : Nat} {b : Address} {l : Nat}
      (hn : Diary.Acted (⟨actor.2, .began hook a g⟩ :: d) n b l) :
      (n = actor.2 ∧ b = a ∧ l = g) ∨ d.Acted n b l := by
    rcases acted_cons.mp hn with ⟨rfl, hook', he⟩ | hn
    · obtain ⟨-, rfl, rfl⟩ := Deed.began.inj he
      exact Or.inl ⟨rfl, rfl, rfl⟩
    · exact Or.inr hn
  -- whoever belongs to another incarnation, and is another actor, still does
  have hother {n : Nat} {b : Address} {l : Nat} (h : d.Ties n b l)
      (hne : actor.2 = n ↔ a = b ∧ g = l) : Diary.Ties (⟨actor.2, .began hook a g⟩ :: d) n b l := by
    intro k c j hk
    rcases hacted hk with ⟨rfl, rfl, rfl⟩ | hk
    · exact hne
    · exact h k c j hk
  refine ⟨h.numbered_cons _ (by simp [hidle]), h.orderly_cons hidle rfl (by simp), ?home, h.alone,
    ?placed, ?out, ?tied, ?old, h.known, ?hand, ?opening⟩
  case home =>
    intro b l actor' hb
    have hne := Ne.symm (hnowhere b l actor' hb)
    rw [phase_other hne]
    refine (h.home b l actor' hb).imp id fun hties => hother hties ⟨fun he => absurd he hne, ?_⟩
    rintro ⟨rfl, rfl⟩
    exact absurd (hout.symm.trans hb) (by simp)
  case placed =>
    intro n hn
    obtain ⟨-, hacting⟩ | ⟨hne, hn⟩ := phase_cons_eq_some hidle hn
    · exact absurd hacting (by simp [Phase.next])
    · exact Or.inl (h.placed_other rfl hn hne)
  case out =>
    intro b l hb
    left
    rcases h.out b l hb with ⟨n, hn, hacted⟩ | ⟨n, he⟩
    · exact ⟨n, phase_kept hidle hn (by simp) _, hacted.cons⟩
    · obtain ⟨rfl, rfl, -⟩ : a = b ∧ g = l ∧ actor.2 = n := by simpa [Due.inHand] using he
      exact ⟨actor.2, phase_cons hidle, acted_cons.mpr (Or.inl ⟨rfl, hook, rfl⟩)⟩
  case tied =>
    intro n b l hn
    rcases hacted hn with ⟨rfl, rfl, rfl⟩ | hn
    · exact hother hties ⟨fun _ => ⟨rfl, rfl⟩, fun _ => rfl⟩
    · have hiff := hties n b l hn
      exact hother (h.tied n b l hn) ⟨fun he => (hiff.mp he.symm).imp Eq.symm Eq.symm,
        fun he => (hiff.mpr ⟨he.1.symm, he.2.symm⟩).symm⟩
  case old =>
    intro n b l hn
    rcases hacted hn with ⟨-, -, rfl⟩ | hn
    · exact hold
    · exact h.old n b l hn
  case hand => exact fun b l n he => absurd he (by simp [Due.inHand])
  case opening => exact fun b l hook actor he => absurd he (by simp)

/-- The code of the actor has run (`Deed.ended`). -/
theorem finish (h : Life stand d next none) (hacting : d.phase actor.2 = some .acting)
    (hacted : d.Acted actor.2 a g) :
    Life stand (⟨actor.2, .ended⟩ :: d) next (some (.closing a g hook actor)) := by
  have hplain (n : Nat) (b : Address) (l : Nat)
      (hn : Diary.Acted (⟨actor.2, .ended⟩ :: d) n b l) : d.Acted n b l :=
    acted_of_cons (by simp) hn
  -- an actor that is acting stands nowhere
  have hnowhere (b : Address) (l : Nat) (actor' : κ.recorded.Actor)
      (hb : stand b = some (l, some actor')) : actor'.2 ≠ actor.2 := by
    intro he
    have hidle := (h.home b l actor' hb).1
    rw [he, hacting] at hidle
    exact absurd hidle (by simp)
  refine ⟨h.numbered_cons _ (by simp [hacting]), h.orderly_cons hacting rfl (by simp), ?home,
    h.alone, ?placed, ?out, ?tied, ?old, h.known, ?hand, ?opening⟩
  case home =>
    intro b l actor' hb
    rw [phase_other (Ne.symm (hnowhere b l actor' hb))]
    exact (h.home b l actor' hb).imp id fun hties => hties.congr hplain
  case placed =>
    intro n hn
    obtain ⟨rfl, -⟩ | ⟨-, hn⟩ := phase_cons_eq_some hacting hn
    · exact Or.inr ⟨a, g, rfl⟩
    · exact (h.placed n hn).imp id fun ⟨b, l, he⟩ => absurd he (by simp [Due.inHand])
  case out =>
    intro b l hb
    rcases h.out b l hb with ⟨n, hn, hacted'⟩ | ⟨n, he⟩
    · by_cases hne : actor.2 = n
      · subst hne
        obtain ⟨rfl, rfl⟩ := (h.tied _ a g hacted _ b l hacted').mp rfl
        exact Or.inr ⟨_, rfl⟩
      · exact Or.inl ⟨n, (phase_other hne).trans hn, hacted'.cons⟩
    · exact absurd he (by simp [Due.inHand])
  case tied => exact fun n b l hn => (h.tied n b l (hplain n b l hn)).congr hplain
  case old => exact fun n b l hn => h.old n b l (hplain n b l hn)
  case hand =>
    intro b l n he
    obtain ⟨rfl, rfl, rfl⟩ : a = b ∧ g = l ∧ actor.2 = n := by simpa [Due.inHand] using he
    exact ⟨phase_cons hacting, h.old _ a g hacted, (h.tied _ a g hacted).congr hplain, hnowhere⟩
  case opening => exact fun b l hook actor he => absurd he (by simp)

/-! ## Coming and going -/

/-- A number that has not been given to an actor has no `Diary.phase`. -/
theorem unborn (h : Life stand d next x) : d.phase d.length = some .unborn := by
  by_contra hn
  exact absurd (h.lt_length hn) (Nat.lt_irrefl _)

/-- Nobody of that number has acted (`Diary.Acted`). -/
theorem not_acted (h : Life stand d next x) : ¬ d.Acted d.length a g := by
  rintro ⟨hook, hmem⟩
  obtain ⟨e, he, hserial⟩ := mem_of_deed hmem
  exact absurd (hserial ▸ h.numbered e he) (Nat.lt_irrefl _)

/-- How far an actor is that was just built (`Diary.phase`). -/
theorem phase_newcomer (h : Life stand d next x) :
    Diary.phase (⟨d.length, .init⟩ :: ⟨d.length, .built⟩ :: d) d.length = some .idle :=
  have hbuilt : Diary.phase (⟨d.length, .built⟩ :: d) d.length = some .built := phase_cons h.unborn
  phase_cons hbuilt

/-- An actor of another number is as far as it was. -/
theorem phase_others {n : Nat} (hn : n ≠ d.length) :
    Diary.phase (⟨d.length, .init⟩ :: ⟨d.length, .built⟩ :: d) n = d.phase n :=
  (phase_other hn.symm).trans (phase_other hn.symm)

theorem ne_length (h : Life stand d next x) {n : Nat} {p : Phase} (hn : d.phase n = some p)
    (hp : p ≠ .unborn) : n ≠ d.length := by
  rintro rfl
  exact hp (Option.some.inj (hn.symm.trans h.unborn))

/-- An actor is built (`Deed.built`), gets its first call and stands at its address. -/
theorem install (h : Life stand d next none) (ha : stand a = none) (z : κ.Actor) :
    Life (Function.update stand a (some (next, some (z, d.length))))
      (⟨d.length, .init⟩ :: ⟨d.length, .built⟩ :: d) (next + 1) none := by
  have hidle := h.phase_newcomer
  have hplain (n : Nat) (b : Address) (l : Nat)
      (hn : Diary.Acted (⟨d.length, .init⟩ :: ⟨d.length, .built⟩ :: d) n b l) : d.Acted n b l :=
    acted_of_cons (by simp) (acted_of_cons (by simp) hn)
  have hborn (b : Address) (l : Nat) (actor : κ.recorded.Actor)
      (hb : stand b = some (l, some actor)) : actor.2 ≠ d.length :=
    h.ne_length (h.home b l actor hb).1 (by simp)
  refine ⟨?numbered, ?orderly, ?home, h.alone_put hborn, ?placed, ?out, ?tied, ?old,
    h.known_put (Nat.lt_succ_self _) (Nat.le_succ _), ?hand, ?opening⟩
  case numbered =>
    intro e he
    have hlow : e.serial ≤ d.length := by
      rcases List.mem_cons.mp he with rfl | he
      · exact Nat.le_refl _
      · rcases List.mem_cons.mp he with rfl | he
        · exact Nat.le_refl _
        · exact Nat.le_of_lt (h.numbered e he)
    exact Nat.lt_succ_of_le (Nat.le_succ_of_le hlow)
  case orderly =>
    intro n
    by_cases hn : n = d.length
    · exact ⟨.idle, by rw [hn, hidle], by simp⟩
    · rw [phase_others hn]
      exact h.orderly n
  case home =>
    intro b l actor hb
    rcases stand_update hb with ⟨rfl, hl⟩ | ⟨-, hb⟩
    · obtain ⟨rfl, rfl⟩ := stands_inj hl
      refine ⟨hidle, fun n c j hn => ⟨?_, ?_⟩⟩
      · rintro rfl
        exact absurd (hplain _ c j hn) h.not_acted
      · rintro ⟨rfl, rfl⟩
        exact absurd (h.old n c j (hplain n c j hn)) (Nat.lt_irrefl _)
    · rw [phase_others (hborn b l actor hb)]
      exact (h.home b l actor hb).imp id fun hties => hties.congr hplain
  case placed =>
    intro n hn
    left
    by_cases hlen : n = d.length
    · exact ⟨a, next, (z, d.length), Function.update_self _ _ _, hlen.symm⟩
    · rw [phase_others hlen] at hn
      rcases h.placed n hn with ⟨b, l, actor, hb, rfl⟩ | ⟨_, _, he⟩
      · exact ⟨b, l, actor, stand_elsewhere hb (by simp [ha]), rfl⟩
      · exact absurd he (by simp [Due.inHand])
  case out =>
    intro b l hb
    rcases stand_update hb with ⟨-, hl⟩ | ⟨-, hb⟩
    · exact absurd hl (by simp)
    · refine (h.out b l hb).imp ?_ fun ⟨n, he⟩ => absurd he (by simp [Due.inHand])
      rintro ⟨n, hn, hacted⟩
      exact ⟨n, (phase_others (h.ne_length hn (by simp))).trans hn, hacted.cons.cons⟩
  case tied => exact fun n b l hn => (h.tied n b l (hplain n b l hn)).congr hplain
  case old => exact fun n b l hn => Nat.lt_succ_of_lt (h.old n b l (hplain n b l hn))
  case hand => exact fun b l n he => absurd he (by simp [Due.inHand])
  case opening => exact fun b l hook actor he => absurd he (by simp)

theorem steady_install (h : Life stand d next x) :
    d.Steady (⟨d.length, .init⟩ :: ⟨d.length, .built⟩ :: d) := by
  have hbuilt : Diary.phase (⟨d.length, .built⟩ :: d) d.length = some .built := phase_cons h.unborn
  refine Steady.trans (.cons ?_ ?_) (.cons ?_ ?_)
  · simp [h.unborn]
  · simp [hbuilt]
  · simp [hbuilt]
  · simp [phase_cons hbuilt, Phase.next]

/-- An entry between two occasions leaves whoever is acting (`Diary.Steady`). -/
theorem steady_stop {n : Nat} (hidle : d.phase n = some .idle) :
    d.Steady (⟨n, .stopped⟩ :: d) := by
  refine .cons ?_ ?_
  · simp [hidle]
  · simp [phase_cons hidle, Phase.next]

/-- An address is left by an actor that is not at hand. -/
theorem leave (h : Life stand d next x) (ha : stand a = some (g, none))
    (hopen : ∀ a g hook actor, x ≠ some (.opening a g hook actor)) :
    Life (Function.update stand a none) d next x := by
  refine ⟨h.numbered, h.orderly, ?home, ?alone, ?placed, ?out, h.tied, h.old, ?known, ?hand,
    ?opening⟩
  case home => exact fun b l actor hb => h.home b l actor (stand_left hb)
  case alone =>
    exact fun b c l k actor actor' hb hc =>
      h.alone b c l k actor actor' (stand_left hb) (stand_left hc)
  case placed =>
    exact fun n hn => (h.placed n hn).imp
      (fun ⟨b, l, actor, hb, hn⟩ => ⟨b, l, actor, stand_elsewhere hb (by simp [ha]), hn⟩) id
  case out => exact fun b l hb => h.out b l (stand_left hb)
  case known => exact fun b v hb => h.known b v (stand_left hb)
  case hand =>
    intro b l n he
    obtain ⟨hidle, hg, hties, hnowhere⟩ := h.hand b l n he
    exact ⟨hidle, hg, hties, fun c k actor hc => hnowhere c k actor (stand_left hc)⟩
  case opening => exact fun b l hook actor he => absurd he (hopen b l hook actor)

/-- An actor that stands at its address gets its last call and leaves. -/
theorem goAway (h : Life stand d next none) (ha : stand a = some (g, some actor)) :
    Life (Function.update stand a none) (⟨actor.2, .stopped⟩ :: d) next none := by
  -- as if it were taken out and its incarnation removed before it is put back
  have hclosing : Life (Function.update stand a (some (g, none))) d next
      (some (.closing a g .run actor)) :=
    (h.takeOut rfl ha .run).recast rfl fun _ _ _ _ he => absurd he (by simp)
  have hleft := hclosing.leave (Function.update_self _ _ _) fun _ _ _ _ => by simp
  rw [Function.update_idem] at hleft
  refine hleft.lastCall fun o => ?_
  rw [Function.update_self]
  simp

end Life

/-! ## Changes of the stage -/

namespace Platform

variable {p q : Platform κ} {V : Event → Prop} {a : Address} {g : Nat} {c : Context κ}

theorem stand_eq (hc : p.context? a = some c) : p.stand a = some (c.generation, c.actor) :=
  congrArg (Option.map Context.stand) hc

theorem stand_eq_none (hc : p.context? a = none) : p.stand a = none :=
  congrArg (Option.map Context.stand) hc

theorem generation?_of_stand {o : Option κ.Actor} (h : p.stand a = some (g, o)) :
    p.generation? a = some g := by
  obtain ⟨c, hc, hstand⟩ := Option.map_eq_some_iff.mp h
  exact (congrArg (Option.map Context.generation) hc).trans
    (congrArg some (congrArg Prod.fst hstand))

/-- An incarnation is there (`Platform.isCurrent`) if somebody stands for it, or nobody does for the
moment. -/
theorem isCurrent_iff_stand : p.isCurrent a g = true ↔ ∃ o, p.stand a = some (g, o) := by
  rw [isCurrent_iff]
  constructor
  · rintro ⟨c, hc, rfl⟩
    exact ⟨c.actor, stand_eq hc⟩
  · rintro ⟨o, ho⟩
    obtain ⟨c, hc, hstand⟩ := Option.map_eq_some_iff.mp ho
    exact ⟨c, hc, congrArg Prod.fst hstand⟩

theorem stand_congr (h : ∀ a, q.context? a = p.context? a) : q.stand = p.stand :=
  funext fun a => congrArg (Option.map Context.stand) (h a)

theorem Beside.stand (h : Beside V p q) : q.stand = p.stand := by
  funext a
  have hface (o : Option (Context κ)) : o.map Context.stand =
      (o.map Context.face).map Context.stand := by
    rw [Option.map_map]
    rfl
  unfold Platform.stand
  rw [hface, h.faces a, ← hface]

theorem stand_modifyContext (f : Context κ → Context κ) (hc : p.context? a = some c) :
    (p.modifyContext a f).stand = Function.update p.stand a (some (f c).stand) := by
  funext b
  unfold Platform.stand
  rw [context?_modifyContext]
  by_cases hb : b = a
  · subst hb
    rw [if_pos rfl, hc, Function.update_self]
    rfl
  · rw [if_neg hb, Function.update_of_ne hb]

/-- A change of a context that leaves everybody where they are (`Platform.stand`). -/
theorem stand_kept {f : Context κ → Context κ} (hf : ∀ c, (f c).stand = c.stand) :
    (p.modifyContext a f).stand = p.stand := by
  funext b
  unfold Platform.stand
  rw [context?_modifyContext_eq, Option.map_map]
  refine congrFun (congrArg Option.map (funext fun c => ?_)) _
  dsimp only [Function.comp]
  split
  · exact hf c
  · rfl

theorem context?_update {o : Option (Context κ)}
    (h : ∀ b, q.context? b = if b = a then o else p.context? b) :
    q.stand = Function.update p.stand a (o.map Context.stand) := by
  funext b
  unfold Platform.stand
  rw [h b]
  by_cases hb : b = a
  · subst hb
    rw [if_pos rfl, Function.update_self]
  · rw [if_neg hb, Function.update_of_ne hb]

end Platform

section

variable {code : Code κ.recorded} {V : Event → Prop} {s t : Stage κ.recorded}
  {x y : Option (Due κ.recorded)}

/-- What a change of the stage is for the actors (`Platform.stand`). -/
inductive Shift (x : Option (Due κ.recorded)) (s : Stage κ.recorded) (y : Option (Due κ.recorded))
    (t : Stage κ.recorded) : Prop
  /-- Everybody stays where they are, and nobody is in hand who was not. -/
  | stay : t.platform.stand = s.platform.stand →
      t.platform.nextGeneration = s.platform.nextGeneration → SameDiary s.world t.world →
        Due.inHand y = Due.inHand x →
          (∀ a g hook actor, y = some (.opening a g hook actor) → x = y) → Shift x s y t
  | out (a : Address) (g : Nat) (hook : Hook) (actor : κ.recorded.Actor) :
      s.platform.stand a = some (g, some actor) → Due.inHand x = none →
        y = some (.opening a g hook actor) →
          t.platform.stand = Function.update s.platform.stand a (some (g, none)) →
            t.platform.nextGeneration = s.platform.nextGeneration → SameDiary s.world t.world →
              Shift x s y t
  | back (a : Address) (g : Nat) (hook : Hook) (actor : κ.recorded.Actor) :
      s.platform.stand a = some (g, none) → x = some (.closing a g hook actor) → Due.Leaves a g y →
        t.platform.stand = Function.update s.platform.stand a (some (g, some actor)) →
          t.platform.nextGeneration = s.platform.nextGeneration → SameDiary s.world t.world →
            Shift x s y t
  /-- An actor in hand whose incarnation has gone gets its last call. -/
  | gone (a : Address) (g : Nat) (hook : Hook) (actor : κ.recorded.Actor) :
      s.platform.isCurrent a g = false → x = some (.closing a g hook actor) → Due.Leaves a g y →
        t.platform.stand = s.platform.stand →
          t.platform.nextGeneration = s.platform.nextGeneration →
            t.world.2 = ⟨actor.2, .stopped⟩ :: s.world.2 → Shift x s y t
  | install (a : Address) (z : κ.Actor) : s.platform.stand a = none → x = none → y = none →
      t.platform.stand = Function.update s.platform.stand a
        (some (s.platform.nextGeneration, some (z, s.world.2.length))) →
          t.platform.nextGeneration = s.platform.nextGeneration + 1 →
            t.world.2 = ⟨s.world.2.length, .init⟩ :: ⟨s.world.2.length, .built⟩ :: s.world.2 →
              Shift x s y t
  /-- An address is left by an actor that is not at hand. -/
  | leave (a : Address) (g : Nat) : s.platform.stand a = some (g, none) → x = none → y = none →
      t.platform.stand = Function.update s.platform.stand a none →
        t.platform.nextGeneration = s.platform.nextGeneration → SameDiary s.world t.world →
          Shift x s y t
  /-- An actor at hand gets its last call and leaves. -/
  | goAway (a : Address) (g : Nat) (actor : κ.recorded.Actor) :
      s.platform.stand a = some (g, some actor) → x = none → y = none →
        t.platform.stand = Function.update s.platform.stand a none →
          t.platform.nextGeneration = s.platform.nextGeneration →
            t.world.2 = ⟨actor.2, .stopped⟩ :: s.world.2 → Shift x s y t

/-- **What a move is for the actors** (`Move`, `Shift`). -/
theorem Move.shift (hm : Move code.recorded V SameDiary x s y t) : Shift x s y t := by
  have hnext := hm.generations.1
  cases hm with
  | beside hb hsame => exact .stay hb.stand hnext hsame rfl fun _ _ _ _ _ => rfl
  | accept hc =>
    exact .stay (stand_congr fun _ => rfl) hnext rfl rfl fun _ _ _ _ he => absurd he (by simp)
  | @mail a env c s hc hb =>
    have hlook : Aloof Event.Any (s.platform.putMail a env) _ := .look _ a
    exact .stay (hlook.stand.trans (stand_kept fun _ => rfl)) hnext rfl rfl
      fun _ _ _ _ he => absurd he (by simp)
  | hand hc hb =>
    exact .stay (stand_kept fun _ => rfl) hnext rfl rfl fun _ _ _ _ he => absurd he (by simp)
  | takeMail a =>
    exact .stay (stand_kept fun _ => rfl) hnext rfl rfl fun _ _ _ _ he => absurd he (by simp)
  | discard a =>
    have hdrop := discardMail_aloof (V := Event.Any) s.platform a
    exact .stay (hdrop.stand.trans (stand_kept fun _ => rfl)) hnext rfl rfl
      fun _ _ _ _ he => absurd he (by simp)
  | takeMatch hc _ htake =>
    obtain ⟨_, _, _, _, -, -, -, -, -, rfl⟩ := takeMatch_eq htake
    exact .stay (stand_kept fun _ => rfl) hnext rfl rfl fun _ _ _ _ he => absurd he (by simp)
  | takeBacklog hc htake =>
    obtain ⟨_, _, -, -, -, rfl⟩ := takeBacklog_some htake
    exact .stay (stand_kept fun _ => rfl) hnext rfl rfl fun _ _ _ _ he => absurd he (by simp)
  | @out a c actor hook x s hc hactor hx =>
    have hnobody : Due.inHand x = none := by
      rcases hx with rfl | ⟨rfl, -⟩
      · rfl
      · rfl
    exact .out a c.generation hook actor (hactor ▸ stand_eq hc) hnobody rfl
      (stand_modifyContext _ hc) hnext rfl
  | @back a c hook actor s hc hnone =>
    exact .back a c.generation hook actor (hnone ▸ stand_eq hc) rfl (Due.leaves_afterwards c a hook)
      (stand_modifyContext _ hc) hnext rfl
  | @gone a g hook actor y s hgone hleaves =>
    exact .gone a g hook actor hgone rfl hleaves rfl hnext rfl

open Stage in
/-- **What tending to actors is for them** (`Tend`, `Shift`). -/
theorem Tend.shift (ht : Tend code.recorded SameDiary s t) : Shift none s none t := by
  cases ht with
  | think hsame => exact .stay rfl rfl hsame rfl fun _ _ _ _ _ => rfl
  | @install a tmpl htable hfree =>
    obtain ⟨_, _, heq, -⟩ := install_eq code.recorded a tmpl s
    refine .install a (code.build tmpl.factory tmpl.args s.world).1.1 (stand_eq_none hfree) rfl rfl
      (context?_update fun b => context?_install code.recorded (b := b) a tmpl s)
      (nextGeneration_install code.recorded a tmpl s) ?_
    rw [heq]
    rfl
  | remove a =>
    have hnext := nextGeneration_remove code.recorded a s
    have hstand := context?_update fun b => context?_remove code.recorded (b := b) a s
    cases hc : s.platform.context? a with
    | none =>
      rw [remove_none code.recorded hc]
      exact .stay rfl rfl rfl rfl fun _ _ _ _ _ => rfl
    | some c =>
      cases hactor : c.actor with
      | none =>
        refine .leave a c.generation (hactor ▸ stand_eq hc) rfl rfl hstand hnext ?_
        rw [remove_some code.recorded hc, hactor]
        rfl
      | some actor =>
        refine .goAway a c.generation actor (hactor ▸ stand_eq hc) rfl rfl hstand hnext ?_
        rw [remove_some code.recorded hc, hactor]
        rfl

/-! ## Lives on a stage -/

namespace Stage

/-- What is known of the actors on a stage: a `Life` of those that stand there. -/
def Lives (x : Option (Due κ.recorded)) (s : Stage κ.recorded) : Prop :=
  Life s.platform.stand s.world.2 s.platform.nextGeneration x

/-- **Every change** (`Shift`) keeps lives in order. -/
theorem Lives.shift (hs : Shift x s y t) (h : s.Lives x) :
    t.Lives y ∧ s.world.2.Steady t.world.2 := by
  unfold Lives
  cases hs with
  | stay hstand hnext hsame hxy hopen =>
    rw [hstand, hnext, hsame]
    refine ⟨Life.recast h hxy fun a g hook actor hy => ?_, .refl _⟩
    exact Life.opening h a g hook actor ((hopen a g hook actor hy).trans hy)
  | out a g hook actor ha hx hy hstand hnext hsame =>
    rw [hstand, hnext, hsame, hy]
    exact ⟨Life.takeOut h hx ha hook, .refl _⟩
  | back a g hook actor ha hx hy hstand hnext hsame =>
    rw [hstand, hnext, hsame]
    exact ⟨(Life.putBack (hx ▸ h) ha).part hy, .refl _⟩
  | gone a g hook actor hgone hx hy hstand hnext hdiary =>
    have hclosing : s.Lives (some (.closing a g hook actor)) := hx ▸ h
    rw [hstand, hnext, hdiary]
    have hidle := (Life.hand hclosing a g actor.2 rfl).1
    refine ⟨(Life.lastCall hclosing fun o ho => ?_).part hy, Life.steady_stop hidle⟩
    exact absurd (hgone.symm.trans (isCurrent_iff_stand.mpr ⟨o, ho⟩)) (by simp)
  | install a z ha hx hy hstand hnext hdiary =>
    rw [hstand, hnext, hdiary, hy]
    exact ⟨Life.install (hx ▸ h) ha z, Life.steady_install h⟩
  | leave a g ha hx hy hstand hnext hsame =>
    rw [hstand, hnext, hsame, hy]
    exact ⟨Life.leave (hx ▸ h) ha fun _ _ _ _ => by simp, .refl _⟩
  | goAway a g actor ha hx hy hstand hnext hdiary =>
    rw [hstand, hnext, hdiary, hy]
    exact ⟨Life.goAway (hx ▸ h) ha, Life.steady_stop (Life.home h a _ actor ha).1⟩

/-- What is noted when the code of an actor begins to run (`Stage.note`). -/
theorem Lives.noted {a : Address} {g : Nat} {hook : Hook} {actor : κ.recorded.Actor}
    (h : s.Lives (some (.opening a g hook actor))) :
    s.note actor.2 (.began hook a ((s.platform.generation? a).getD 0)) =
      s.note actor.2 (.began hook a g) := by
  rw [generation?_of_stand (Life.opening h a g hook actor rfl)]
  rfl

/-- **When the code of an actor has run** that began for an incarnation, it is still acting, and for
that incarnation. -/
theorem Lives.acting {a : Address} {g : Nat} {hook : Hook} {actor : κ.recorded.Actor}
    (h : s.Lives (some (.opening a g hook actor)))
    (hsteady : (s.note actor.2 (.began hook a g)).world.2.Steady t.world.2) :
    t.world.2.phase actor.2 = some .acting ∧ t.world.2.Acted actor.2 a g ∧
      s.world.2.Steady (t.note actor.2 .ended).world.2 := by
  have hidle := (Life.hand h a g actor.2 rfl).1
  have hbegun : Diary.phase (⟨actor.2, .began hook a g⟩ :: s.world.2) actor.2 = some .acting :=
    phase_cons hidle
  have hdeeds := hsteady actor.2 (Or.inl hbegun)
  have hacting : t.world.2.phase actor.2 = some .acting := (phase_congr hdeeds).trans hbegun
  refine ⟨hacting, ⟨hook, ?_⟩, hsteady.around (by simp [hidle]) ?_⟩
  · rw [hdeeds]
    exact deeds_own ▸ List.mem_cons_self
  · simp [phase_cons hacting, Phase.next]

end Stage

/-- In the beginning (`Stage.new`) there is no actor. -/
theorem lives_new (config : Config) (trap : Option κ.recorded.Trap) (subs : List Subscriber)
    (w : κ.recorded.World) (hw : w.2 = []) : (Stage.new config trap subs w).Lives none := by
  have hstand : (Stage.new config trap subs w).platform.stand = fun _ => none :=
    funext fun a => stand_eq_none (Moment.context?_new config trap subs w a)
  unfold Stage.Lives
  rw [hstand, Moment.new_world, hw]
  exact
    { numbered := fun _ he => absurd he List.not_mem_nil
      orderly := fun _ => ⟨.unborn, rfl, by simp⟩
      home := fun _ _ _ ho => absurd ho (by simp)
      alone := fun _ _ _ _ _ _ ho => absurd ho (by simp)
      placed := fun _ hn => absurd hn (by simp [Diary.phase, Diary.deeds, Diary.phaseOf])
      out := fun _ _ ho => absurd ho (by simp)
      tied := fun _ _ _ ⟨_, ho⟩ => absurd ho List.not_mem_nil
      old := fun _ _ _ ⟨_, ho⟩ => absurd ho List.not_mem_nil
      known := fun _ _ ho => absurd ho (by simp)
      hand := fun _ _ _ he => absurd he (by simp [Due.inHand])
      opening := fun _ _ _ _ he => absurd he (by simp) }

end

end Troupe
