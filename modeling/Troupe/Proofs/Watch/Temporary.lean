import Troupe.Proofs.Watch.Homes
import Troupe.Proofs.Watch.Receivers

/-!
# Temporary incarnations

An incarnation that is temporary (`Behaviour.temporary`) receives one message at most, whatever its
code does meanwhile: while it is acting on the message it is not at hand, so that none of its
receivers is asked; and when it has acted, its removal is due, so that nothing happens in between
but beside the actors (`Parts`). What is known of it is `Brief`, and `Lasting` are those that are
not temporary.

The occasion on which an incarnation is to act, acts, or has acted just now is `Due.occasion`. If it
is a message that was received, the actor is not at hand before it has acted (`Move.hands`), and
after that `Move.of_parting` leaves it where it is until it goes; so nothing more is received
(`Brief.still`), and what is received first is all (`Brief.first`).

Headlines:
* **`Move.draws`**: who receives something in a move is at hand before it, and nothing is due.
* **`Brief.move`**, **`Brief.tended`**: moves and tending to actors keep what is known.
* **`Track.brief`**, `upheld_brief`: application code that keeps a diary does not keep a temporary
  incarnation from going.
-/

namespace Troupe

variable {κ : App}

open Platform Diary

/-- An incarnation has been there on one of these stages, and is not temporary (`Flags.temporary`).
-/
def Lasting (a : Address) (g : Nat) (h : List (Stage κ)) : Prop :=
  ∃ r ∈ h, ∃ c, r.platform.context? a = some c ∧ c.generation = g ∧ c.flags.temporary = false

/-- The occasion (`Hook`) on which an incarnation is to act next, acts, or has acted just now. -/
def Due.occasion : Option (Due κ) → Option (Address × Nat × Hook)
  | some (.hook a g o) | some (.opening a g o _) | some (.closing a g o _) => some (a, g, o)
  | some (.arrival _ _) | some (.parting _ _) | none => none

theorem Due.Leaves.occasion {a : Address} {g : Nat} {y : Option (Due κ)} (h : Due.Leaves a g y) :
    Due.occasion y = none := by
  cases h <;> rfl

/-- Whoever is temporary, is at hand and has begun to act on a message that it received is removed
next, and nothing happens meanwhile but beside the actors (`Platform.Beside`). -/
def Parts (V : Event → Prop) (s t : Stage κ.recorded) : Prop :=
  ∀ a c, s.platform.context? a = some c → c.flags.temporary = true → c.actor ≠ none →
    Diary.begun a c.generation .mail s.world.2 ≠ [] →
      Beside V s.platform t.platform ∨ t.platform.isCurrent a c.generation = false

/-- What is known of temporary incarnations: they receive once (`receipts`). -/
structure Brief (V : Event → Prop) (x : Option (Due κ.recorded)) (h : List (Stage κ.recorded))
    (s : Stage κ.recorded) : Prop where
  ever : ∀ a g, (receipts a g (s :: h)).length ≤ 1 ∨ Lasting a g (s :: h)
  /-- Whoever is there and has begun to act on a message is not at hand, or is removed next. -/
  once : ∀ a c, s.platform.context? a = some c → c.flags.temporary = true →
    Diary.begun a c.generation .mail s.world.2 = [] ∨ c.actor = none ∨
      x = some (.parting a c.generation)
  /-- The message on which an incarnation has begun to act is what it acts on. -/
  occasion : ∀ a c o, Due.occasion x = some (a, c.generation, o) →
    s.platform.context? a = some c → c.flags.temporary = true →
      o.way = some .mail ∨ Diary.begun a c.generation .mail s.world.2 = []
  parts : (s :: h).IsChain fun t s => Parts V s t

section

variable {code : Code κ.recorded} {V : Event → Prop} {a b : Address} {g n : Nat}
  {s t : Stage κ.recorded} {x y : Option (Due κ.recorded)} {h : List (Stage κ.recorded)}
  {c d : Context κ.recorded} {w : Way}

/-! ## What has begun -/

/-- Somebody has acted for an incarnation (`Diary.Acted`) if it has begun to act on a message
(`Diary.begun`). -/
theorem acted_of_begun {d : Diary} (hb : Diary.begun a g w d ≠ []) :
    ∃ n o, .began o a g ∈ d.deeds n ∧ o.way = some w := by
  induction d with
  | nil => exact absurd rfl hb
  | cons e d ih =>
    by_cases hd : Diary.begun a g w d = []
    · obtain ⟨k, deed⟩ := e
      rw [begun_cons, hd, List.nil_append] at hb
      cases deed with
      | began o b l =>
        have ho : (b = a ∧ l = g) ∧ o.way = some w := by
          by_contra hn
          exact hb (if_neg hn)
        obtain ⟨⟨rfl, rfl⟩, hway⟩ := ho
        exact ⟨k, o, deeds_own ▸ List.mem_cons_self, hway⟩
      | built | init | ended | stopped => exact absurd rfl hb
    · obtain ⟨n, o, ho, hway⟩ := ih hd
      refine ⟨n, o, ?_, hway⟩
      rw [show e = ⟨e.serial, e.deed⟩ from rfl, deeds_cons]
      split
      · exact List.mem_cons_of_mem _ ho
      · exact ho

theorem begun_of_mem {d : Diary} {o : Hook} (ho : .began o a g ∈ d.deeds n)
    (hway : o.way = some w) : Diary.begun a g w d ≠ [] := by
  induction d with
  | nil => exact absurd ho List.not_mem_nil
  | cons e d ih =>
    obtain ⟨k, deed⟩ := e
    rw [begun_cons]
    rw [deeds_cons] at ho
    have hon (hd : .began o a g ∈ Diary.deeds d n) :
        Diary.begun a g w d ++ deed.occasions a g w ≠ [] := by
      simp [ih hd]
    split at ho
    · rcases List.mem_cons.mp ho with rfl | ho
      · simp [Deed.occasions, hway]
      · exact hon ho
    · exact hon ho

/-- Nobody has begun to act (`Diary.begun`) for those who are still to come. -/
theorem begun_unborn (hl : s.Lives x) (hg : s.platform.nextGeneration ≤ g) :
    Diary.begun a g w s.world.2 = [] := by
  by_contra hb
  obtain ⟨n, o, ho, -⟩ := acted_of_begun hb
  exact absurd (Life.old hl n a g ⟨o, ho⟩) (Nat.not_lt.mpr hg)

/-! ## Changes of the stage -/

theorem Lasting.later (hl : Lasting a g h) : Lasting a g (s :: h) := by
  obtain ⟨r, hr, hc⟩ := hl
  exact ⟨r, List.mem_cons_of_mem _ hr, hc⟩

/-- Until it is removed, nothing happens to whoever is to be removed (`Platform.Beside`). -/
theorem Move.of_parting {κ : App} {code : Code κ} {same : κ.World → κ.World → Prop}
    {s t : Stage κ} {y : Option (Due κ)}
    (hm : Move code V same (some (.parting a g)) s y t) :
    Beside V s.platform t.platform ∧ y = some (.parting a g) := by
  cases hm with
  | beside hb => exact ⟨hb, rfl⟩
  | out _ _ hx => exact absurd hx (by simp)

/-- Who receives something in a move (`receipt`) is at hand before it, and nothing is due. -/
theorem Move.draws {κ : App} {code : Code κ} {same : κ.World → κ.World → Prop} {s t : Stage κ}
    {x y : Option (Due κ)} (hm : Move code V same x s y t) (hr : receipt a g s t ≠ []) :
    x = none ∧ ∃ c, s.platform.context? a = some c ∧ c.generation = g ∧ c.actor ≠ none := by
  have hcur : t.platform.isCurrent a g = true := by
    by_contra hn
    exact hr (receipt_gone (Bool.not_eq_true _ ▸ hn))
  rw [isCurrent_congr (hm.generations.2 a)] at hcur
  obtain ⟨c, hc, rfl⟩ := isCurrent_iff.mp hcur
  obtain ⟨d, -, -, halters⟩ := hm.alters hc
  cases halters with
  | receives _ hx hactor => exact ⟨hx, c, hc, rfl, hactor⟩
  | arms _ hnone => exact absurd hnone hr

/-- Whoever is there after a move was there before. If it was not at hand it still is not, or it is
back from its code (`Due.occasion`). -/
theorem Move.hands {κ : App} {code : Code κ} {same : κ.World → κ.World → Prop} {s t : Stage κ}
    {x y : Option (Due κ)} {d : Context κ} (hm : Move code V same x s y t)
    (hd : t.platform.context? a = some d) : ∃ c, s.platform.context? a = some c ∧ c.Stays d ∧
      ((c.actor = none → d.actor = none) ∨
        ∃ o actor, x = some (.closing a c.generation o actor) ∧ y = Due.afterwards c a o) := by
  have hgen := hm.generations.2 a
  unfold Platform.generation? at hgen
  rw [hd, Option.map_some] at hgen
  obtain ⟨c, hc, -⟩ := Option.map_eq_some_iff.mp hgen.symm
  obtain ⟨d', hd', hcd, halters⟩ := hm.alters hc
  obtain rfl := Option.some.inj (hd'.symm.trans hd)
  refine ⟨c, hc, hcd, ?_⟩
  cases halters with
  | receives _ _ _ hactor => exact Or.inl fun hn => hactor.trans hn
  | arms _ _ hback => exact hback

/-! ## One step -/

namespace Brief

/-- Where nothing is received, no more was received than before (`receipts`). -/
theorem still (hb : Brief V x h s) (hr : receipt a g s t = []) :
    (receipts a g (t :: s :: h)).length ≤ 1 ∨ Lasting a g (t :: s :: h) := by
  rw [receipts_cons, hr, List.append_nil]
  exact (hb.ever a g).imp id Lasting.later

/-- If nothing is due, whoever is at hand has not begun to act on a message (`Diary.begun`). -/
theorem resting (hb : Brief V none h s) (hc : s.platform.context? a = some c)
    (htemp : c.flags.temporary = true) (hactor : c.actor ≠ none) :
    Diary.begun a c.generation .mail s.world.2 = [] :=
  (hb.once a c hc htemp).resolve_right fun h => h.elim hactor (by simp)

/-- What is received in a move is the first message (`receipt`). -/
theorem first (hb : Brief V x h s) (ha : Attended x h s)
    (hm : Move code.recorded V SameDiary x s y t) (hr : receipt a g s t ≠ []) :
    (receipts a g (t :: s :: h)).length ≤ 1 ∨ Lasting a g (t :: s :: h) := by
  obtain ⟨rfl, c, hc, rfl, hactor⟩ := hm.draws hr
  by_cases htemp : c.flags.temporary = true
  · have hbefore : receipts a c.generation (s :: h) = [] := by
      refine (ha.begun a c.generation .mail).trans ?_
      rw [hb.resting hc htemp hactor]
      rfl
    have hnow : receipt a c.generation s t = Due.errand a c.generation .mail y := hm.errand
    rw [receipts_cons, hbefore, hnow]
    exact Or.inl (Due.length_errand a c.generation .mail y)
  · refine Or.inr (Lasting.later ⟨s, List.mem_cons_self, c, hc, rfl, ?_⟩)
    exact Bool.not_eq_true _ ▸ htemp

/-- Whoever is to act next on anything but a message in its mailbox has not begun to act on one. -/
theorem next (hb : Brief V x h s) (hm : Move code.recorded V SameDiary x s y t) {o : Hook}
    (ho : Due.occasion y = some (a, c.generation, o)) (hc : s.platform.context? a = some c)
    (htemp : c.flags.temporary = true) :
    o.way = some .mail ∨ Diary.begun a c.generation .mail s.world.2 = [] := by
  cases hm with
  | beside => exact hb.occasion a c o ho hc htemp
  | takeMatch =>
    obtain ⟨-, -, rfl⟩ : _ ∧ _ ∧ Hook.receive _ _ = o := by simpa [Due.occasion] using ho
    exact Or.inl rfl
  | @takeBacklog b env p e _ _ htake =>
    obtain ⟨rfl, -, -⟩ : b = a ∧ e.generation = c.generation ∧ Hook.accept env = o := by
      simpa [Due.occasion] using ho
    obtain ⟨c', _, hc', hidle, -⟩ := takeBacklog_some htake
    obtain rfl := Option.some.inj (hc'.symm.trans hc)
    refine Or.inr (hb.resting hc htemp fun hn => ?_)
    simp [Context.isIdle, hn] at hidle
  | @out b e actor o' _ _ he hactor hx =>
    obtain ⟨rfl, -, rfl⟩ : b = a ∧ e.generation = c.generation ∧ o' = o := by
      simpa [Due.occasion] using ho
    obtain rfl := Option.some.inj (he.symm.trans hc)
    rcases hx with rfl | ⟨rfl, -⟩
    · exact hb.occasion b e o' rfl hc htemp
    · exact Or.inr (hb.resting hc htemp (by simp [hactor]))
  | @back b e o' => exact absurd ho ((Due.leaves_afterwards e b o').occasion ▸ by simp)
  | gone _ hleaves => exact absurd ho (hleaves.occasion ▸ by simp)
  | accept | mail | hand | takeMail | discard => exact absurd ho (by simp [Due.occasion])

/-- **A move** (`Move`) keeps what is known of temporary incarnations. -/
theorem move (hb : Brief V x h s) (ha : Attended x h s)
    (hm : Move code.recorded V SameDiary x s y t) : Brief V y (s :: h) t := by
  have hbegun (a : Address) (g : Nat) : Diary.begun a g .mail t.world.2 =
      Diary.begun a g .mail s.world.2 := hm.begun
  refine ⟨fun a g => ?ever, fun a d hd htemp => ?once, fun a d o ho hd htemp => ?occasion,
    .cons_cons (fun a c hc htemp hactor hb' => Or.inl ?parts) hb.parts⟩
  case ever =>
    by_cases hr : receipt a g s t = []
    · exact hb.still hr
    · exact hb.first ha hm hr
  case once =>
    obtain ⟨c, hc, hcd, hback⟩ := hm.hands hd
    rw [hbegun, hcd.generation]
    rw [hcd.flags] at htemp
    rcases hb.once a c hc htemp with hnone | hnone | rfl
    · exact Or.inl hnone
    · rcases hback with hout | ⟨o, actor, rfl, rfl⟩
      · exact Or.inr (Or.inl (hout hnone))
      · -- it is back from its code, and is removed next if it has acted on a message
        refine (hb.occasion a c o rfl hc htemp).symm.imp id fun hway => Or.inr ?_
        exact if_pos ⟨htemp, hway⟩
    · exact Or.inr (Or.inr hm.of_parting.2)
  case occasion =>
    obtain ⟨c, hc, hcd, -⟩ := hm.hands hd
    rw [hcd.generation] at ho
    rw [hbegun, hcd.generation]
    exact hb.next hm ho hc (hcd.flags ▸ htemp)
  case parts =>
    obtain rfl := ((hb.once a c hc htemp).resolve_left hb').resolve_left hactor
    exact hm.of_parting.1

/-- **Tending to actors** (`Tended`) keeps what is known of temporary incarnations. -/
theorem tended (hb : Brief V x h s) (hl : s.Lives x) (ht : Tended code.recorded SameDiary s t)
    (hdone : Due.Done t.platform x) (hi : s.platform.Inv) : Brief V none (s :: h) t := by
  have hbegun (a : Address) (g : Nat) : Diary.begun a g .mail t.world.2 =
      Diary.begun a g .mail s.world.2 := ht.begun
  have hparting {a : Address} {g : Nat} (hx : x = some (.parting a g)) :
      t.platform.isCurrent a g = false := by
    subst hx
    cases hdone with
    | gone hgone => exact hgone
  refine ⟨fun a g => ?ever, fun a d hd htemp => ?once,
    fun a d o ho => absurd ho (by simp [Due.occasion]),
    .cons_cons (fun a c hc htemp hactor hb' => Or.inr ?parts) hb.parts⟩
  case ever => exact hb.still (receipt_of_went (ht.went hi))
  case once =>
    rw [hbegun]
    rcases ht.context.2 a d hd with hc | ⟨_, _, _, _, hnew, -⟩
    · refine (hb.once a d hc htemp).imp id fun h => Or.inl (h.resolve_right fun hx => ?_)
      exact absurd ((hparting hx).symm.trans (Ledger.current hd rfl)) (by simp)
    · exact Or.inl (begun_unborn hl hnew)
  case parts =>
    exact hparting (((hb.once a c hc htemp).resolve_left hb').resolve_left hactor)

/-- An actor begins to act (`Deed.began`). -/
theorem begin {g : Nat} {o : Hook} {actor : κ.recorded.Actor}
    (hb : Brief V (some (.opening a g o actor)) h s)
    (hs : Story (some (.opening a g o actor)) h s) : Brief V none (s :: h)
      (s.note actor.2 (.began o a ((s.platform.generation? a).getD 0))) := by
  rw [hs.lives.noted]
  refine ⟨fun b l => ?ever, fun b c hc htemp => ?once,
    fun b c o ho => absurd ho (by simp [Due.occasion]),
    .cons_cons (fun b c hc htemp hactor hb' => ?parts) hb.parts⟩
  case ever => exact hb.still (receipt_of_went (went_note _))
  case once =>
    by_cases hown : a = b ∧ g = c.generation
    · -- it has been taken out
      obtain ⟨rfl, rfl⟩ := hown
      have hout := Life.opening hs.lives a c.generation o actor rfl
      have hstand : s.platform.stand a = some (c.generation, c.actor) := stand_eq hc
      exact Or.inr (Or.inl (Prod.mk.inj (Option.some.inj (hstand.symm.trans hout))).2)
    · have hother : (Deed.began o a g).occasions b c.generation .mail = [] :=
        if_neg fun h => hown h.1
      exact (hb.once b c hc htemp).imp (begun_of_cons hother).trans fun h =>
        Or.inl (h.resolve_right (by simp))
  case parts =>
    exact absurd (((hb.once b c hc htemp).resolve_left hb').resolve_left hactor) (by simp)

/-- The code of an actor has run (`Deed.ended`). -/
theorem finish {g : Nat} {o : Hook} {actor : κ.recorded.Actor} {h₀ : List (Stage κ.recorded)}
    (hb : Brief V (some (.opening a g o actor)) h₀ s)
    (hs : Story (some (.opening a g o actor)) h₀ s) (hb' : Brief V none h t) (ht : Story none h t)
    (hsteady : (s.note actor.2
      (.began o a ((s.platform.generation? a).getD 0))).world.2.Steady t.world.2)
    (hlent : Kept s.platform t.platform) :
    Brief V (some (.closing a g o actor)) (t :: h) (t.note actor.2 .ended) := by
  rw [hs.lives.noted] at hsteady
  have hbegun (b : Address) (l : Nat) : Diary.begun b l .mail (t.note actor.2 .ended).world.2 =
      Diary.begun b l .mail t.world.2 := begun_of_cons rfl
  refine ⟨fun b l => ?ever, fun b c hc htemp => ?once, fun b c o' ho hc htemp => ?occasion,
    .cons_cons (fun b c hc htemp hactor hnone => ?parts) hb'.parts⟩
  case ever => exact hb'.still (receipt_of_went (went_note _))
  case once =>
    rw [hbegun]
    exact (hb'.once b c hc htemp).imp id fun h => Or.inl (h.resolve_right (by simp))
  case occasion =>
    obtain ⟨rfl, rfl, rfl⟩ : a = b ∧ g = c.generation ∧ o = o' := by simpa [Due.occasion] using ho
    rw [hbegun]
    by_cases hnone : Diary.begun a c.generation .mail t.world.2 = []
    · exact Or.inr hnone
    · left
      obtain ⟨n, o', hmem, hway⟩ := acted_of_begun hnone
      -- it is this actor that has acted, and it has done nothing since but what it has just done
      obtain ⟨hacting, hacted, -⟩ := hs.lives.acting hsteady
      have hties : t.world.2.Ties actor.2 a c.generation := Life.tied ht.lives _ _ _ hacted
      obtain rfl : n = actor.2 := (hties n a c.generation ⟨o', hmem⟩).mpr ⟨rfl, rfl⟩
      have hdeeds : t.world.2.deeds actor.2 = .began o a c.generation :: s.world.2.deeds actor.2 :=
        (hsteady actor.2 (Or.inr hacting)).trans deeds_own
      rcases List.mem_cons.mp (hdeeds ▸ hmem) with he | hold
      · exact (Deed.began.inj he).1 ▸ hway
      · obtain ⟨d, hd, ⟨hdg, hflags⟩, -⟩ :=
          hlent.old a c hc (Life.hand hs.lives a c.generation actor.2 rfl).2.1
        refine (hb.occasion a d o (hdg ▸ rfl) hd (hflags ▸ htemp)).resolve_right fun hbefore => ?_
        exact begun_of_mem hold hway (hdg ▸ hbefore)
  case parts =>
    exact absurd (((hb'.once b c hc htemp).resolve_left hnone).resolve_left hactor) (by simp)

end Brief

/-! ## Keeping track -/

/-- **Temporary incarnations** are kept track of (`Brief`, beside `Story` and `Attended`). -/
def Track.brief (code : Code κ.recorded) (V : Event → Prop) : Track code.recorded V :=
  { Track.lives code V with
    holds := fun x h s => Story x h s ∧ Attended x h s ∧ Brief V x h s
    move := fun hm _ ⟨hs, ha, hb⟩ =>
      ⟨⟨(hs.shift hm.shift).1, ha.move hm, hb.move ha hm⟩, (hs.shift hm.shift).2⟩
    tend := fun ht hdone hi ⟨hs, ha, hb⟩ =>
      have ⟨hs', hsteady⟩ := (Track.lives code V).tend ht hdone hi hs
      ⟨⟨hs', ha.tended ht hdone hi, hb.tended hs.lives ht hdone hi⟩, hsteady⟩ }

open Troupe.Flow in
/-- **Application code that keeps a diary** (`Code.recorded`) does not keep a temporary incarnation
from going. -/
theorem upheld_brief (hpub : code.Publishes V) : Upheld (Track.brief code V) := by
  refine upheld_recorded hpub (fun _ _ h => h) (fun _ _ _ _ _ _ _ hx => ?_)
    fun _ _ o actor _ _ _ _ _ _ hx hy hlater => ?_
  · obtain ⟨hs, ha, hb⟩ := hx
    exact ⟨hs.begin, ha.begin, hb.begin hs⟩
  · obtain ⟨hs, -, hb⟩ := hx
    obtain ⟨ht, ha, hb'⟩ := hy
    obtain ⟨hs', hsteady⟩ := hs.finish ht hlater.kept
    exact ⟨⟨hs', ha.finish o actor, hb.finish hs hb' ht hlater.kept hlater.lent⟩, hsteady⟩

/-- In the beginning nobody is there. -/
theorem brief_new (config : Config) (trap : Option κ.recorded.Trap) (subs : List Subscriber)
    (w : κ.recorded.World) : Brief V none [] (.new config trap subs w) := by
  have hnobody (a : Address) := Moment.context?_new config trap subs w a
  refine ⟨fun _ _ => Or.inl (Nat.zero_le 1), fun a c hc => ?_, fun a c o ho => ?_, .singleton _⟩
  · exact absurd ((hnobody a).symm.trans hc) (by simp)
  · exact absurd ho (by simp [Due.occasion])

end

open Moment in
/-- Between operations nobody is acting, and diaries are left alone (`Outlook`). -/
theorem outlook_brief (code : Code κ.recorded) (V : Event → Prop) :
    Outlook (Track.brief code V) (fun w => w.2 = []) (Undisturbed V) Stage.Unoccupied :=
  .of_beside (fun config trap subs w hw =>
      ⟨⟨story_new config trap subs w hw, attended_new config trap subs w hw,
        brief_new config trap subs w⟩,
        ((outlook_lives code V).new config trap subs w hw).2⟩)
    (fun _ _ hm => ⟨hm.diary, hm.bus⟩) (outlook_lives code V).kept

end Troupe
