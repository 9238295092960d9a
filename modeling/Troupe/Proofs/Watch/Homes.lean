import Troupe.Proofs.Watch.Lives

/-!
# Where actors belong

Each actor belongs to one incarnation, from the moment it is built on. Nothing on the stage says so
while it is out, but it can be said once for a whole life of the platform (`Homes`): whoever stands
at an address, is in hand or has acted belongs to the incarnation for which it does, no two actors
belong to one, and an incarnation that has gone does not come back, and its actor does not begin to
act any more (`Since`). Together with what is known of lives (`Life`) this is a `Story`, and is kept
track of.

An actor begins to act (`Deed.onset`) only while its incarnation is there (`Stage.hosts`). Building
one gives the new number a home that is nobody else's (`Homes.install`, `apart_update`), and nothing
else moves anybody (`Homes.since_of_stand`, `Homes.since_install`).

Headlines:
* **`Homes.shift`**: every change leaves everybody where they belong.
* **`Story.next`**, `Story.begin`, `Story.finish`: the story goes on.
* **`Track.lives`**, `upheld_lives`: application code that keeps a diary keeps lives in order.
-/

namespace Troupe

variable {κ : App}

open Platform Diary

/-- The occasion on which an actor begins to act (`Deed.began`). -/
def Deed.onset : Deed → Option Hook
  | .began hook _ _ => some hook
  | .built | .init | .ended | .stopped => none

/-- The occasions on which an actor has begun to act (`Deed.onset`), the latest first. -/
def Diary.onsets (d : Diary) (n : Nat) : List Hook :=
  (d.deeds n).filterMap Deed.onset

/-- Each actor belongs to an incarnation of its own (`Stage.hosts`). -/
structure Homes (home : Nat → Address × Nat) (x : Option (Due κ.recorded)) (s : Stage κ.recorded) :
    Prop where
  stands : ∀ a g actor, s.platform.stand a = some (g, some actor) → home actor.2 = (a, g)
  acts : ∀ n a g, s.world.2.Acted n a g → home n = (a, g)
  hand : ∀ a g n, Due.inHand x = some (a, g, n) → home n = (a, g)
  old : ∀ n, s.world.2.deeds n ≠ [] → (home n).2 < s.platform.nextGeneration
  apart : ∀ n k, s.world.2.deeds n ≠ [] → s.world.2.deeds k ≠ [] → home n = home k → n = k

/-- Whether the incarnation to which an actor belongs is there (`Platform.isCurrent`). -/
def Stage.hosts (s : Stage κ.recorded) (home : Nat → Address × Nat) (n : Nat) : Bool :=
  s.platform.isCurrent (home n).1 (home n).2

/-- Nobody has moved since an earlier stage, and nobody whose incarnation had gone (`Stage.hosts`)
has begun to act (`Diary.onsets`). -/
structure Since (home : Nat → Address × Nat) (s t : Stage κ.recorded) : Prop where
  stands : ∀ a g actor, s.platform.stand a = some (g, some actor) →
    s.world.2.deeds actor.2 ≠ [] ∧ home actor.2 = (a, g)
  noted : ∀ n, s.world.2.deeds n ≠ [] → t.world.2.deeds n ≠ []
  gone : ∀ n, s.world.2.deeds n ≠ [] → s.hosts home n = false →
    t.hosts home n = false ∧ t.world.2.onsets n = s.world.2.onsets n

section

variable {home home' : Nat → Address × Nat} {s t u : Stage κ.recorded}
  {x y : Option (Due κ.recorded)} {d : Diary} {n k : Nat} {deed : Deed}

/-! ## Diaries -/

theorem onsets_cons : Diary.onsets (⟨k, deed⟩ :: d) n =
    if k = n then deed.onset.toList ++ d.onsets n else d.onsets n := by
  unfold Diary.onsets
  rw [deeds_cons]
  split
  · rw [List.filterMap_cons]
    cases deed.onset <;> rfl
  · rfl

/-- An entry of another kind than that an actor begins to act (`Deed.onset`). -/
theorem onsets_plain (hd : deed.onset = none) : Diary.onsets (⟨k, deed⟩ :: d) n = d.onsets n := by
  rw [onsets_cons, hd]
  exact ite_self _

theorem noted_cons (hn : d.deeds n ≠ []) : Diary.deeds (⟨k, deed⟩ :: d) n ≠ [] := by
  rw [deeds_cons]
  split
  · exact List.cons_ne_nil _ _
  · exact hn

theorem noted_of_cons (hn : Diary.deeds (⟨k, deed⟩ :: d) n ≠ []) (hk : d.deeds k ≠ []) :
    d.deeds n ≠ [] := by
  by_cases h : k = n
  · exact h ▸ hk
  · exact deeds_other h ▸ hn

theorem noted_of_phase {p : Phase} (hn : d.phase n = some p) (hp : p ≠ .unborn) :
    d.deeds n ≠ [] := by
  intro hnil
  unfold Diary.phase at hn
  rw [hnil] at hn
  exact hp (Option.some.inj hn).symm

theorem noted_of_acted {a : Address} {g : Nat} (hn : d.Acted n a g) : d.deeds n ≠ [] :=
  let ⟨_, hmem⟩ := hn
  List.ne_nil_of_mem hmem

/-! ## From stage to stage -/

theorem Since.trans (h : Since home s t) (h' : Since home t u) : Since home s u where
  stands := h.stands
  noted n hn := h'.noted n (h.noted n hn)
  gone n hn hgone := by
    obtain ⟨hgone', hsame⟩ := h.gone n hn hgone
    obtain ⟨hgone'', hsame'⟩ := h'.gone n (h.noted n hn) hgone'
    exact ⟨hgone'', hsame'.trans hsame⟩

/-- Where actors belong that are built later does not matter. -/
theorem Since.congr (h : Since home s t) (hhome : ∀ n, s.world.2.deeds n ≠ [] → home' n = home n) :
    Since home' s t where
  stands a g actor ha := by
    obtain ⟨hn, hbelongs⟩ := h.stands a g actor ha
    exact ⟨hn, (hhome _ hn).trans hbelongs⟩
  noted := h.noted
  gone n hn hgone := by
    unfold Stage.hosts at hgone ⊢
    rw [hhome n hn] at hgone ⊢
    exact h.gone n hn hgone

theorem Homes.noted_stand (hl : s.Lives x) {a : Address} {g : Nat} {actor : κ.recorded.Actor}
    (ha : s.platform.stand a = some (g, some actor)) : s.world.2.deeds actor.2 ≠ [] :=
  noted_of_phase (Life.home hl a g actor ha).1 (by simp)

/-- A change that takes nobody back who had gone (`Since`). -/
theorem Homes.since (hh : Homes home x s) (hl : s.Lives x)
    (hnoted : ∀ n, s.world.2.deeds n ≠ [] → t.world.2.deeds n ≠ [])
    (hgone : ∀ n, s.world.2.deeds n ≠ [] → s.hosts home n = false →
      t.hosts home n = false ∧ t.world.2.onsets n = s.world.2.onsets n) : Since home s t where
  stands a g actor ha := ⟨Homes.noted_stand hl ha, hh.stands a g actor ha⟩
  noted := hnoted
  gone := hgone

/-- Who is there, if everybody was there before at the same address (`Platform.stand`). -/
theorem hosts_of_stand (hstand : ∀ a g o, t.platform.stand a = some (g, o) →
    ∃ o, s.platform.stand a = some (g, o)) (hn : s.hosts home n = false) :
    t.hosts home n = false := by
  unfold Stage.hosts at hn ⊢
  rw [← Bool.not_eq_true] at hn ⊢
  rw [isCurrent_iff_stand] at hn ⊢
  exact fun ⟨o, ho⟩ => hn (hstand _ _ o ho)

/-- Everybody stays (`Platform.stand`), also in the diary, but for entries about actors that do not
begin to act. -/
theorem Homes.since_of_stand (hh : Homes home x s) (hl : s.Lives x)
    (hstand : ∀ a g o, t.platform.stand a = some (g, o) → ∃ o, s.platform.stand a = some (g, o))
    (hdiary : SameDiary s.world t.world ∨ ∃ k deed, deed.onset = none ∧
      t.world.2 = ⟨k, deed⟩ :: s.world.2) : Since home s t := by
  refine hh.since hl (fun n hn => ?_) fun n _ hgone => ⟨hosts_of_stand hstand hgone, ?_⟩
  · rcases hdiary with hsame | ⟨k, deed, -, hcons⟩
    · rw [hsame]
      exact hn
    · rw [hcons]
      exact noted_cons hn
  · rcases hdiary with hsame | ⟨k, deed, hdeed, hcons⟩
    · rw [hsame]
    · rw [hcons, onsets_plain hdeed]

theorem Homes.refl (hh : Homes home x s) (hl : s.Lives x) : Since home s s :=
  hh.since_of_stand hl (fun _ _ o ho => ⟨o, ho⟩) (Or.inl rfl)

/-! ## What happens to actors -/

/-- What is due is something else, and everybody stays. -/
theorem Homes.stay (hh : Homes home x s) (hstand : t.platform.stand = s.platform.stand)
    (hnext : t.platform.nextGeneration = s.platform.nextGeneration)
    (hsame : SameDiary s.world t.world)
    (hxy : Due.inHand y = Due.inHand x) : Homes home y t where
  stands := hstand ▸ hh.stands
  acts := hsame ▸ hh.acts
  hand := hxy ▸ hh.hand
  old := hnext ▸ hsame ▸ hh.old
  apart := hsame ▸ hh.apart

/-- An entry about an actor that has been noted. -/
theorem Homes.cons (hh : Homes home x s) (hk : s.world.2.deeds k ≠ [])
    (hstand : ∀ a g actor, t.platform.stand a = some (g, some actor) →
      s.platform.stand a = some (g, some actor))
    (hnext : t.platform.nextGeneration = s.platform.nextGeneration)
    (hdiary : t.world.2 = ⟨k, deed⟩ :: s.world.2)
    (hacts : ∀ hook a g, deed = .began hook a g → home k = (a, g))
    (hhand : ∀ a g n, Due.inHand y = some (a, g, n) → home n = (a, g)) : Homes home y t where
  stands a g actor ha := hh.stands a g actor (hstand a g actor ha)
  acts n a g hn := by
    rw [hdiary] at hn
    rcases acted_cons.mp hn with ⟨rfl, hook, he⟩ | hn
    · exact hacts hook a g he
    · exact hh.acts n a g hn
  hand := hhand
  old n hn := hnext ▸ hh.old n (noted_of_cons (hdiary ▸ hn) hk)
  apart n j hn hj := hh.apart n j (noted_of_cons (hdiary ▸ hn) hk) (noted_of_cons (hdiary ▸ hj) hk)

/-- Where two actors belong that are not the same, if one comes to a place that is nobody else's. -/
theorem apart_update {P : Nat → Prop} {v : Address × Nat}
    (hapart : ∀ n k, P n → P k → home n = home k → n = k) (hfree : ∀ n, P n → home n ≠ v) {m : Nat}
    (hn : n ≠ m → P n) (hk : k ≠ m → P k)
    (h : Function.update home m v n = Function.update home m v k) : n = k := by
  by_cases hn' : n = m
  · by_cases hk' : k = m
    · exact hn'.trans hk'.symm
    · rw [hn', Function.update_self, Function.update_of_ne hk'] at h
      exact absurd h.symm (hfree k (hk hk'))
  · by_cases hk' : k = m
    · rw [hk', Function.update_self, Function.update_of_ne hn'] at h
      exact absurd h (hfree n (hn hn'))
    · rw [Function.update_of_ne hn', Function.update_of_ne hk'] at h
      exact hapart n k (hn hn') (hk hk') h

theorem noted_ne_length (hl : s.Lives x) (hn : s.world.2.deeds n ≠ []) : n ≠ s.world.2.length := by
  rintro rfl
  obtain ⟨deed, rest, hd⟩ := List.exists_cons_of_ne_nil hn
  obtain ⟨e, he, hserial⟩ := mem_of_deed (hd ▸ List.mem_cons_self)
  exact absurd (hserial ▸ Life.numbered hl e he) (Nat.lt_irrefl _)

section Install

variable {a : Address} {z : κ.Actor}

/-- An actor is built (`Deed.built`) for an incarnation that is new, and belongs to it. -/
theorem Homes.install (hh : Homes home none s) (hl : s.Lives none)
    (hstand : t.platform.stand = Function.update s.platform.stand a
      (some (s.platform.nextGeneration, some (z, s.world.2.length))))
    (hnext : t.platform.nextGeneration = s.platform.nextGeneration + 1)
    (hdiary : t.world.2 = ⟨s.world.2.length, .init⟩ :: ⟨s.world.2.length, .built⟩ :: s.world.2) :
    Homes (Function.update home s.world.2.length (a, s.platform.nextGeneration)) none t := by
  have hkept (n : Nat) (hn : s.world.2.deeds n ≠ []) :
      Function.update home s.world.2.length (a, s.platform.nextGeneration) n = home n :=
    Function.update_of_ne (noted_ne_length hl hn) _ _
  have hnoted {n : Nat} (hn : t.world.2.deeds n ≠ []) (hne : n ≠ s.world.2.length) :
      s.world.2.deeds n ≠ [] := by
    rw [hdiary, deeds_other hne.symm, deeds_other hne.symm] at hn
    exact hn
  refine ⟨?stands, ?acts, fun _ _ _ he => absurd he (by simp [Due.inHand]), ?old, ?apart⟩
  case stands =>
    intro b g actor hb
    rw [hstand] at hb
    rcases Life.stand_update hb with ⟨rfl, hv⟩ | ⟨-, hb⟩
    · obtain ⟨rfl, rfl⟩ := Life.stands_inj hv
      exact Function.update_self _ _ _
    · exact (hkept _ (Homes.noted_stand hl hb)).trans (hh.stands b g actor hb)
  case acts =>
    intro n b g hn
    rw [hdiary] at hn
    have hacted : s.world.2.Acted n b g := acted_of_cons (by simp) (acted_of_cons (by simp) hn)
    exact (hkept n (noted_of_acted hacted)).trans (hh.acts n b g hacted)
  case old =>
    intro n hn
    rw [hnext]
    by_cases hne : n = s.world.2.length
    · rw [hne, Function.update_self]
      exact Nat.lt_succ_self _
    · rw [Function.update_of_ne hne]
      exact Nat.lt_succ_of_lt (hh.old n (hnoted hn hne))
  case apart =>
    intro n k hn hk hnk
    refine apart_update hh.apart (fun j hj he => ?_) (hnoted hn) (hnoted hk) hnk
    -- the new incarnation is nobody else's
    have hlow := hh.old j hj
    rw [he] at hlow
    exact absurd hlow (Nat.lt_irrefl _)

/-- Nobody else has moved when an actor was built. -/
theorem Homes.since_install (hh : Homes home none s) (hl : s.Lives none)
    (hstand : t.platform.stand = Function.update s.platform.stand a
      (some (s.platform.nextGeneration, some (z, s.world.2.length))))
    (hdiary : t.world.2 = ⟨s.world.2.length, .init⟩ :: ⟨s.world.2.length, .built⟩ :: s.world.2) :
    Since home s t := by
  refine hh.since hl (fun n hn => ?_) fun n hn hgone => ⟨?_, ?_⟩
  · rw [hdiary]
    exact noted_cons (noted_cons hn)
  · unfold Stage.hosts at hgone ⊢
    rw [← Bool.not_eq_true, isCurrent_iff_stand] at hgone ⊢
    rintro ⟨o, ho⟩
    rw [hstand] at ho
    rcases Life.stand_update ho with ⟨-, hv⟩ | ⟨-, ho⟩
    · have hlow := hh.old n hn
      rw [← (Prod.mk.inj (Option.some.inj hv)).1] at hlow
      exact absurd hlow (Nat.lt_irrefl _)
    · exact hgone ⟨o, ho⟩
  · rw [hdiary, onsets_plain rfl, onsets_plain rfl]

end Install

/-- **Every change** (`Shift`) leaves everybody where they belong. -/
theorem Homes.shift (hh : Homes home x s) (hs : Shift x s y t) (hl : s.Lives x) :
    ∃ home', Homes home' y t ∧ Since home' s t ∧
      ∀ n, s.world.2.deeds n ≠ [] → home' n = home n := by
  cases hs with
  | stay hstand hnext hsame hxy _ =>
    exact ⟨home, hh.stay hstand hnext hsame hxy,
      hh.since_of_stand hl (fun _ _ o ho => ⟨o, hstand ▸ ho⟩) (Or.inl hsame), fun _ _ => rfl⟩
  | out a g hook actor ha hx hy hstand hnext hsame =>
    have hsince : Since home s t :=
      hh.since_of_stand hl (fun _ _ _ ho => Life.stand_changed ha (hstand ▸ ho)) (Or.inl hsame)
    refine ⟨home, ⟨fun b l actor' hb => ?_, hsame ▸ hh.acts, fun b l n he => ?_,
      hnext ▸ hsame ▸ hh.old, hsame ▸ hh.apart⟩, hsince, fun _ _ => rfl⟩
    · exact hh.stands b l actor' (Life.stand_emptied (hstand ▸ hb)).2
    · obtain ⟨rfl, rfl, rfl⟩ : a = b ∧ g = l ∧ actor.2 = n := by simpa [hy, Due.inHand] using he
      exact hh.stands a g actor ha
  | back a g hook actor ha hx hy hstand hnext hsame =>
    have hsince : Since home s t :=
      hh.since_of_stand hl (fun _ _ _ ho => Life.stand_changed ha (hstand ▸ ho)) (Or.inl hsame)
    refine ⟨home, ⟨fun b l actor' hb => ?_, hsame ▸ hh.acts,
      fun _ _ _ he => absurd he (by simp [hy.inHand]), hnext ▸ hsame ▸ hh.old,
      hsame ▸ hh.apart⟩, hsince, fun _ _ => rfl⟩
    rw [hstand] at hb
    rcases Life.stand_update hb with ⟨rfl, hv⟩ | ⟨-, hb⟩
    · obtain ⟨rfl, rfl⟩ := Life.stands_inj hv
      exact hh.hand b g actor.2 (by rw [hx]; rfl)
    · exact hh.stands b l actor' hb
  | gone a g hook actor _ hx hy hstand hnext hdiary =>
    have hidle := (Life.hand (hx ▸ hl) a g actor.2 rfl).1
    have hsince : Since home s t := hh.since_of_stand hl (fun _ _ o ho => ⟨o, hstand ▸ ho⟩)
      (Or.inr ⟨_, _, rfl, hdiary⟩)
    exact ⟨home, hh.cons (noted_of_phase hidle (by simp)) (fun _ _ _ hb => hstand ▸ hb) hnext
      hdiary (fun _ _ _ he => absurd he (by simp)) fun _ _ _ he =>
        absurd he (by simp [hy.inHand]), hsince, fun _ _ => rfl⟩
  | install a z ha hx hy hstand hnext hdiary =>
    subst hx hy
    have hkept (n : Nat) (hn : s.world.2.deeds n ≠ []) :
        Function.update home s.world.2.length (a, s.platform.nextGeneration) n = home n :=
      Function.update_of_ne (noted_ne_length hl hn) _ _
    exact ⟨_, hh.install hl hstand hnext hdiary,
      (hh.since_install hl hstand hdiary).congr hkept, hkept⟩
  | leave a g ha hx hy hstand hnext hsame =>
    have hsince : Since home s t :=
      hh.since_of_stand hl (fun _ _ o ho => ⟨o, Life.stand_left (hstand ▸ ho)⟩) (Or.inl hsame)
    exact ⟨home, ⟨fun b l actor' hb => hh.stands b l actor' (Life.stand_left (hstand ▸ hb)),
      hsame ▸ hh.acts, fun _ _ _ he => absurd he (by simp [hy, Due.inHand]),
      hnext ▸ hsame ▸ hh.old, hsame ▸ hh.apart⟩, hsince, fun _ _ => rfl⟩
  | goAway a g actor ha hx hy hstand hnext hdiary =>
    have hsince : Since home s t :=
      hh.since_of_stand hl (fun _ _ o ho => ⟨o, Life.stand_left (hstand ▸ ho)⟩)
        (Or.inr ⟨_, _, rfl, hdiary⟩)
    exact ⟨home, hh.cons (Homes.noted_stand hl ha)
      (fun _ _ _ hb => Life.stand_left (hstand ▸ hb)) hnext hdiary
      (fun _ _ _ he => absurd he (by simp)) fun _ _ _ he => absurd he (by simp [hy, Due.inHand]),
      hsince, fun _ _ => rfl⟩

/-- The code of an actor begins to run (`Deed.began`). -/
theorem Homes.begin {a : Address} {g : Nat} {hook : Hook} {actor : κ.recorded.Actor}
    (hh : Homes home (some (.opening a g hook actor)) s)
    (hl : s.Lives (some (.opening a g hook actor))) :
    Homes home none (s.note actor.2 (.began hook a g)) ∧
      Since home s (s.note actor.2 (.began hook a g)) := by
  have hbelongs := hh.hand a g actor.2 rfl
  have hnoted := noted_of_phase (Life.hand hl a g actor.2 rfl).1 (by simp)
  refine ⟨hh.cons hnoted (fun _ _ _ hb => hb) rfl rfl (fun _ _ _ he => ?_) fun _ _ _ he =>
    absurd he (by simp [Due.inHand]), hh.since hl (fun _ hn => noted_cons hn) fun n hn hgone =>
      ⟨hgone, ?_⟩⟩
  · obtain ⟨-, rfl, rfl⟩ := Deed.began.inj he
    exact hbelongs
  · refine onsets_cons.trans (if_neg ?_)
    -- its incarnation is there
    rintro rfl
    unfold Stage.hosts at hgone
    rw [hbelongs] at hgone
    have hthere := isCurrent_iff_stand.mpr ⟨none, Life.opening hl a g hook actor rfl⟩
    exact absurd (hgone.symm.trans hthere) (by simp)

/-- The code of an actor has run (`Deed.ended`). -/
theorem Homes.finish {a : Address} {g : Nat} {actor : κ.recorded.Actor} (hook : Hook)
    (hh : Homes home none s) (hl : s.Lives none) (hacted : s.world.2.Acted actor.2 a g) :
    Homes home (some (.closing a g hook actor)) (s.note actor.2 .ended) ∧
      Since home s (s.note actor.2 .ended) := by
  refine ⟨hh.cons (noted_of_acted hacted) (fun _ _ _ hb => hb) rfl rfl
    (fun _ _ _ he => absurd he (by simp)) fun b l n he => ?_,
    hh.since_of_stand hl (fun _ _ o ho => ⟨o, ho⟩) (Or.inr ⟨_, _, rfl, rfl⟩)⟩
  obtain ⟨rfl, rfl, rfl⟩ : a = b ∧ g = l ∧ actor.2 = n := by simpa [Due.inHand] using he
  exact hh.acts _ a g hacted

theorem Homes.tended {code : Code κ.recorded} (hh : Homes home none s)
    (ht : Tended code.recorded SameDiary s t) (hl : s.Lives none) :
    (t.Lives none ∧ s.world.2.Steady t.world.2) ∧ ∃ home', Homes home' none t ∧ Since home' s t ∧
      ∀ n, s.world.2.deeds n ≠ [] → home' n = home n := by
  induction ht with
  | refl => exact ⟨⟨hl, .refl _⟩, home, hh, hh.refl hl, fun _ _ => rfl⟩
  | tail _ hstep ih =>
    obtain ⟨⟨hl', hsteady⟩, home', hh', hsince, hsame⟩ := ih
    obtain ⟨hl'', hsteady'⟩ := hl'.shift hstep.shift
    obtain ⟨home'', hh'', hsince', hsame'⟩ := hh'.shift hstep.shift hl'
    have hagree (n : Nat) (hn : _ ≠ []) := hsame' n (hsince.noted n hn)
    exact ⟨⟨hl'', hsteady.trans hsteady'⟩, home'', hh'', (hsince.congr hagree).trans hsince',
      fun n hn => (hagree n hn).trans (hsame n hn)⟩

end

/-! ## Keeping track -/

/-- Lives are in order (`Stage.Lives`), and all along everybody has belonged where they belong
(`Homes`, `Since`). -/
structure Story (x : Option (Due κ.recorded)) (h : List (Stage κ.recorded)) (s : Stage κ.recorded) :
    Prop where
  lives : s.Lives x
  homes : ∃ home, Homes home x s ∧ ∀ r ∈ s :: h, Since home r s

section

variable {s t : Stage κ.recorded} {x y : Option (Due κ.recorded)} {h : List (Stage κ.recorded)}

/-- If nobody is in hand, nothing need be due (`Due.Done`). -/
theorem Story.calm {p : Platform κ.recorded} (hs : Story x h s) (hx : Due.Done p x) :
    Story none h s := by
  obtain ⟨home, hh, hall⟩ := hs.homes
  have hnobody : Homes home none s :=
    { hh with hand := fun _ _ _ he => absurd he (by simp [Due.inHand]) }
  exact ⟨Life.calm hs.lives hx, home, hnobody, hall⟩

/-- The story goes on. -/
theorem Story.next (hs : Story x h s) (hl : t.Lives y)
    (hstep : ∀ home, Homes home x s → ∃ home', Homes home' y t ∧ Since home' s t ∧
      ∀ n, s.world.2.deeds n ≠ [] → home' n = home n) : Story y (s :: h) t := by
  obtain ⟨home, hh, hall⟩ := hs.homes
  obtain ⟨home', hh', hsince, hsame⟩ := hstep home hh
  refine ⟨hl, home', hh', fun r hr => ?_⟩
  rcases List.mem_cons.mp hr with rfl | hr
  · exact hh'.refl hl
  · exact ((hall r hr).congr fun n hn => hsame n ((hall r hr).noted n hn)).trans hsince

theorem Story.shift (hs : Story x h s) (hst : Shift x s y t) :
    Story y (s :: h) t ∧ s.world.2.Steady t.world.2 := by
  obtain ⟨hl, hsteady⟩ := hs.lives.shift hst
  exact ⟨hs.next hl fun _ hh => hh.shift hst hs.lives, hsteady⟩

/-- The code of an actor begins to run (`Deed.began`). -/
theorem Story.begin {a : Address} {g : Nat} {hook : Hook} {actor : κ.recorded.Actor}
    (hs : Story (some (.opening a g hook actor)) h s) : Story none (s :: h)
      (s.note actor.2 (.began hook a ((s.platform.generation? a).getD 0))) := by
  rw [hs.lives.noted]
  exact hs.next (Life.begin hs.lives) fun home hh =>
    ⟨home, (hh.begin hs.lives).1, (hh.begin hs.lives).2, fun _ _ => rfl⟩

/-- The code of an actor has run that began for an incarnation (`Deed.ended`). -/
theorem Story.finish {a : Address} {g : Nat} {hook : Hook} {actor : κ.recorded.Actor}
    {h₀ : List (Stage κ.recorded)} (hs : Story (some (.opening a g hook actor)) h₀ s)
    (ht : Story none h t) (hsteady : (s.note actor.2
      (.began hook a ((s.platform.generation? a).getD 0))).world.2.Steady t.world.2) :
    Story (some (.closing a g hook actor)) (t :: h) (t.note actor.2 .ended) ∧
      s.world.2.Steady (t.note actor.2 .ended).world.2 := by
  rw [hs.lives.noted] at hsteady
  obtain ⟨hacting, hacted, hsteady'⟩ := hs.lives.acting hsteady
  refine ⟨ht.next (Life.finish ht.lives hacting hacted) fun home hh => ?_, hsteady'⟩
  obtain ⟨hhomes, hsince⟩ := hh.finish hook ht.lives hacted
  exact ⟨home, hhomes, hsince, fun _ _ => rfl⟩

end

/-- **The lives of actors** are kept track of (`Story`). -/
def Track.lives (code : Code κ.recorded) (V : Event → Prop) : Track code.recorded V where
  same := SameDiary
  holds := Story
  kept s t := s.world.2.Steady t.world.2
  same_refl := SameDiary.refl
  same_trans := SameDiary.trans
  kept_refl _ := .refl _
  kept_trans h h' := h.trans h'
  freshId := code.recorded_freshId
  judge trap e w := code.recorded_judge w trap e
  poll task w := code.recorded_poll w task
  move hm _ hs := hs.shift hm.shift
  tend ht hdone _ hs := by
    have hs := hs.calm hdone
    obtain ⟨_, hh, _⟩ := hs.homes
    obtain ⟨⟨hl, hsteady⟩, -⟩ := hh.tended ht hs.lives
    exact ⟨hs.next hl fun _ hh => (hh.tended ht hs.lives).2, hsteady⟩

open Troupe.Flow in
/-- **Application code that keeps a diary** (`Code.recorded`) keeps lives in order (`Upheld`). -/
theorem upheld_lives {code : Code κ.recorded} {V : Event → Prop} (hpub : code.Publishes V) :
    Upheld (Track.lives code V) :=
  upheld_recorded hpub (fun _ _ h => h) (fun _ _ _ _ _ _ _ hs => hs.begin)
    fun _ _ _ _ _ _ _ _ _ _ hs ht hlater => hs.finish ht hlater.kept

/-- In the beginning there is no actor. -/
theorem story_new (config : Config) (trap : Option κ.recorded.Trap) (subs : List Subscriber)
    (w : κ.recorded.World) (hw : w.2 = []) : Story none [] (.new config trap subs w) := by
  have hl := lives_new config trap subs w hw
  have hnobody (a : Address) (v : Nat × Option κ.recorded.Actor)
      (ho : (Stage.new config trap subs w).platform.stand a = some v) : False := by
    rw [stand_eq_none (Moment.context?_new config trap subs w a)] at ho
    exact absurd ho (by simp)
  have hblank (n : Nat) (hn : (Stage.new config trap subs w).world.2.deeds n ≠ []) : False := by
    rw [Moment.new_world, hw] at hn
    exact hn rfl
  have hh : Homes (fun _ => (.root, 0)) none (Stage.new config trap subs w) :=
    { stands := fun a g actor ha => (hnobody a _ ha).elim
      acts := fun n a g hn => (hblank n (noted_of_acted hn)).elim
      hand := fun _ _ _ he => absurd he (by simp [Due.inHand])
      old := fun n hn => (hblank n hn).elim
      apart := fun n _ hn => (hblank n hn).elim }
  refine ⟨hl, _, hh, fun r hr => ?_⟩
  rw [List.mem_singleton.mp hr]
  exact hh.refl hl

/-- No actor is acting (`Phase.acting`). -/
def Stage.Unoccupied (s : Stage κ.recorded) : Prop :=
  ∀ n, s.world.2.phase n ≠ some .acting

open Moment in
/-- Between operations nobody is acting, and diaries are left alone (`Outlook`). -/
theorem outlook_lives (code : Code κ.recorded) (V : Event → Prop) :
    Outlook (Track.lives code V) (fun w => w.2 = []) (Undisturbed V) Stage.Unoccupied := by
  refine .of_beside (fun config trap subs w hw => ⟨story_new config trap subs w hw, fun n => ?_⟩)
    (fun _ _ hm => ⟨hm.diary, hm.bus⟩) fun s t hs hst n hn => ?_
  · rw [new_world, hw]
    simp [Diary.phase, Diary.deeds, Diary.phaseOf]
  · exact hs n ((phase_congr (hst n (Or.inr hn))).symm.trans hn)

end Troupe
