import Troupe.Proofs.Watch.Diary
import Troupe.Proofs.Watch.Ledger

/-!
# Occasions to act

A message that an incarnation takes in its own hands (`Hook.accept`), and one that a receiver of it
takes (`Hook.receive`), are occasions to act. From a ledger it can be read off which occasions there
were (`Way.occasions`), and from a diary on which the incarnation has begun to act (`Diary.begun`).
It acts on all of them, once and in order, but for one at most on which it is to act next
(`Attended`).

Headlines:
* **`Attended.move`**, **`Attended.tended`**: moves and tending to actors keep track of occasions;
  so do `Attended.begin` and `Attended.finish`.
* **`Track.attended`**, `upheld_attended`: application code that keeps a diary begins to act on each
  occasion.
-/

namespace Troupe

variable {κ : App}

open Platform

/-- The occasion on which an incarnation begins to act, if it is a message that came in a way
(`Way`). -/
def Deed.occasions (a : Address) (g : Nat) (w : Way) : Deed → List Hook
  | .began occasion b l => if (b = a ∧ l = g) ∧ occasion.way = some w then [occasion] else []
  | .built | .init | .ended | .stopped => []

/-- The messages that came in a way and on which an incarnation has begun to act, in order
(`Deed.occasions`). -/
def Diary.begun (a : Address) (g : Nat) (w : Way) : Diary → List Hook
  | [] => []
  | e :: d => begun a g w d ++ e.deed.occasions a g w

/-- All that an incarnation takes in its own hands it accepts (`Way.occasions`). -/
theorem flatMap_hand (l : List (Envelope × List Event)) :
    l.flatMap Way.hand.occasions = (l.map Prod.fst).map .accept := by
  induction l with
  | nil => rfl
  | cons y l ih => exact congrArg (_ :: ·) ih

/-- The message on which an actor acts. -/
def Hook.envelope : Hook → Option Envelope
  | .run => none
  | .accept env | .receive _ env => some env

/-- On a message that was taken from a mailbox the incarnation acts once, or not at all (`Fate`). -/
theorem receipts_sublist {a : Address} {l : List (Envelope × List Event)} (h : ∀ y ∈ l, Fate a y) :
    ((l.flatMap Way.mail.occasions).filterMap Hook.envelope).Sublist (l.map Prod.fst) := by
  induction l with
  | nil => exact .refl _
  | cons y l ih =>
    rw [List.flatMap_cons, List.filterMap_append]
    have hrest := ih fun z hz => h z (List.mem_cons_of_mem _ hz)
    cases h y List.mem_cons_self with
    | received tag env => exact hrest.cons_cons env
    | dropped env => exact hrest.cons env
    | dequeued env => exact hrest.cons env

/-- On all messages that were taken the incarnation has begun to act, but for what is due
(`Due.errand`). -/
structure Attended (x : Option (Due κ.recorded)) (h : List (Stage κ.recorded))
    (s : Stage κ.recorded) : Prop where
  begun : ∀ a g w, (takings a g w (s :: h)).flatMap w.occasions =
    Diary.begun a g w s.world.2 ++ Due.errand a g w x
  opening : ∀ a g o actor, x = some (.opening a g o actor) → s.platform.generation? a = some g

section

variable {code : Code κ.recorded} {V : Event → Prop} {s t : Stage κ.recorded} {n g : Nat}
  {a : Address} {w : Way} {x y : Option (Due κ.recorded)} {h : List (Stage κ.recorded)} {d : Diary}

/-! ## What is noted -/

theorem begun_cons (deed : Deed) : Diary.begun a g w (⟨n, deed⟩ :: d) =
    Diary.begun a g w d ++ deed.occasions a g w := rfl

/-- What is noted of actors but that they begin to act (`Deed.occasions`). -/
theorem begun_of_cons {deed : Deed} (hd : deed.occasions a g w = []) :
    Diary.begun a g w (⟨n, deed⟩ :: d) = Diary.begun a g w d := by
  rw [begun_cons, hd, List.append_nil]

theorem Move.begun (hm : Move code.recorded V SameDiary x s y t) :
    Diary.begun a g w t.world.2 = Diary.begun a g w s.world.2 := by
  cases hm with
  | beside _ hsame => exact congrArg (Diary.begun a g w) hsame
  | gone => exact begun_of_cons rfl
  | accept | mail | hand | takeMail | discard | takeMatch | takeBacklog | out | back => rfl

theorem Tended.begun (ht : Tended code.recorded SameDiary s t) :
    Diary.begun a g w t.world.2 = Diary.begun a g w s.world.2 := by
  refine ht.reading fun n deed d hd => begun_of_cons ?_
  cases deed with
  | began hook b l => exact absurd rfl (hd hook b l)
  | built | init | ended | stopped => rfl

/-! ## What is taken -/

theorem went_away {κ : App} {s t : Stage κ} (hst : stays a g s t = false) :
    went a g s t w = [] := by
  unfold went
  rw [hst]
  rfl

theorem went_stay {κ : App} {s t : Stage κ}
    (hw : t.platform.waiting a g w = s.platform.waiting a g w) : went a g s t w = [] := by
  unfold went
  rw [hw, Nat.sub_self, List.take_zero]
  exact ite_self _

theorem went_note (deed : Deed) : went a g s (s.note n deed) w = [] :=
  went_stay rfl

/-- Tending to actors (`Tended`) takes no messages. -/
theorem Tended.went {κ : App} {code : Code κ} {same : κ.World → κ.World → Prop} {s t : Stage κ}
    (ht : Tended code same s t) (hi : s.platform.Inv) : went a g s t w = [] := by
  cases hst : stays a g s t with
  | false => exact went_away hst
  | true =>
    unfold stays at hst
    rw [Bool.and_eq_true, isCurrent_iff, isCurrent_iff] at hst
    obtain ⟨⟨c, hc, hg⟩, d, hd, hdg⟩ := hst
    refine went_stay ?_
    rcases ht.context.2 a d hd with hd' | ⟨_, _, _, _, hnew, -⟩
    · rw [Ledger.waiting_eq hd hdg, Ledger.waiting_eq hd' hdg]
    · exact absurd (hi.table.fresh a c hc) (by omega)

/-- For whoever is not there, nothing is taken and nothing becomes due (`Due.errand`). -/
theorem Move.errand_away {κ : App} {code : Code κ} {same : κ.World → κ.World → Prop} {s t : Stage κ}
    {x y : Option (Due κ)} (hm : Move code V same x s y t)
    (hgone : ¬ s.platform.isCurrent a g = true) :
    Due.errand a g w y = Due.errand a g w x := by
  have absent {b : Address} {c : Context κ} (hc : s.platform.context? b = some c) (o : Hook) :
      Due.errand a g w (some (.hook b c.generation o) : Option (Due κ)) = [] := by
    refine if_neg fun h => hgone ?_
    obtain ⟨rfl, rfl⟩ := h.1
    exact isCurrent_iff.mpr ⟨c, hc, rfl⟩
  cases hm with
  | takeMatch hc => exact absent hc _
  | takeBacklog hc => exact absent hc _
  | out _ _ hx => exact errand_opening _ hx
  | back => exact ((Due.leaves_afterwards _ _ _).silent a).2 g w
  | gone _ hleaves => exact (hleaves.silent a).2 g w
  | beside | accept | mail | hand | takeMail | discard => rfl

/-- What is taken in a move is what is to be acted on next (`Due.errand`). -/
theorem Move.errand {κ : App} {code : Code κ} {same : κ.World → κ.World → Prop} {s t : Stage κ}
    {x y : Option (Due κ)} (hm : Move code V same x s y t) :
    Due.errand a g w x ++ (went a g s t w).flatMap w.occasions = Due.errand a g w y := by
  by_cases hcur : s.platform.isCurrent a g = true
  · obtain ⟨c, hc, hg⟩ := isCurrent_iff.mp hcur
    obtain ⟨d, hd, hcd, hp⟩ := hm.passes hc
    exact Ledger.errand hc hg hd hcd hp w
  · have hst : stays a g s t = false := by
      unfold stays
      rw [Bool.and_eq_false_iff]
      exact Or.inl (Bool.not_eq_true _ ▸ hcur)
    rw [went_away hst, hm.errand_away hcur]
    exact List.append_nil _

/-! ## Keeping track -/

theorem Attended.step (ha : Attended x h s)
    (hdiary : ∀ a g w, Diary.begun a g w t.world.2 = Diary.begun a g w s.world.2)
    (herrand : ∀ a g w, Due.errand a g w x ++ (went a g s t w).flatMap w.occasions =
      Due.errand a g w y)
    (hopen : ∀ a g o actor, y = some (.opening a g o actor) → t.platform.generation? a = some g) :
    Attended y (s :: h) t where
  begun a g w := by
    rw [takings_cons, List.flatMap_append, ha.begun, List.append_assoc, herrand, hdiary]
  opening := hopen

/-- **A move** (`Move`) keeps track of occasions. -/
theorem Attended.move (ha : Attended x h s) (hm : Move code.recorded V SameDiary x s y t) :
    Attended y (s :: h) t := by
  refine ha.step (fun _ _ _ => hm.begun) (fun _ _ _ => hm.errand) fun b l o actor hy => ?_
  rw [hm.generations.2]
  cases hm with
  | beside => exact ha.opening b l o actor hy
  | out hc hactor hx =>
    obtain ⟨rfl, rfl, -, -⟩ := Due.opening.inj (Option.some.inj hy)
    exact congrArg (Option.map Context.generation) hc
  | @back b c o' => exact nomatch hy ▸ Due.leaves_afterwards c b o'
  | gone _ hleaves => exact nomatch hy ▸ hleaves
  | accept | mail | hand | takeMail | discard | takeMatch | takeBacklog => exact absurd hy (by simp)

/-- The code of an actor begins to run (`Deed.began`). -/
theorem Attended.begin {o : Hook} {actor : κ.recorded.Actor}
    (ha : Attended (some (.opening a g o actor)) h s) : Attended none (s :: h)
      (s.note actor.2 (.began o a ((s.platform.generation? a).getD 0))) := by
  rw [ha.opening a g o actor rfl, Option.getD_some]
  refine ⟨fun a g w => ?_, fun _ _ _ _ hx => absurd hx (by simp)⟩
  rw [takings_cons, went_note, List.append_nil, ha.begun]
  exact (List.append_nil _).symm

/-- The code of an actor has run (`Deed.ended`). -/
theorem Attended.finish (ha : Attended none h s) (o : Hook) (actor : κ.recorded.Actor) :
    Attended (some (.closing a g o actor)) (s :: h) (s.note actor.2 .ended) := by
  refine ha.step (fun _ _ _ => begun_of_cons rfl) (fun _ _ _ => ?_) fun _ _ _ _ hx =>
    absurd hx (by simp)
  rw [went_note]
  rfl

/-- **Tending to actors** (`Tended`) keeps track of occasions. -/
theorem Attended.tended (ha : Attended x h s) (ht : Tended code.recorded SameDiary s t)
    (hdone : Due.Done t.platform x) (hi : s.platform.Inv) : Attended none (s :: h) t := by
  refine ha.step (fun _ _ _ => ht.begun) (fun a g w => ?_) fun _ _ _ _ hy => absurd hy (by simp)
  rw [ht.went hi, (hdone.silent a).2]
  rfl

/-- **Occasions to act** are kept track of (`Attended`). -/
def Track.attended (code : Code κ.recorded) (V : Event → Prop) : Track code.recorded V where
  same := SameDiary
  holds := Attended
  kept _ _ := True
  same_refl := SameDiary.refl
  same_trans := SameDiary.trans
  kept_refl _ := trivial
  kept_trans _ _ := trivial
  freshId := code.recorded_freshId
  judge trap e w := code.recorded_judge w trap e
  poll task w := code.recorded_poll w task
  move hm _ ha := ⟨ha.move hm, trivial⟩
  tend ht hdone hi ha := ⟨ha.tended ht hdone hi, trivial⟩

open Troupe.Flow in
/-- **Application code that keeps a diary** (`Code.recorded`) begins to act on each occasion. -/
theorem upheld_attended (hpub : code.Publishes V) : Upheld (Track.attended code V) :=
  upheld_recorded hpub (fun _ _ h => h) (fun _ _ _ _ _ _ _ ha => ha.begin)
    fun _ _ o actor _ _ _ _ _ _ _ ha _ => ⟨ha.finish o actor, trivial⟩

theorem attended_new (config : Config) (trap : Option κ.recorded.Trap) (subs : List Subscriber)
    (world : κ.recorded.World) (hw : world.2 = []) :
    Attended none [] (.new config trap subs world) := by
  refine ⟨fun a g w => ?_, fun _ _ _ _ hx => absurd hx (by simp)⟩
  rw [Moment.new_world, hw]
  rfl

end

open Moment in
/-- Diaries are left alone between operations (`Outlook`). -/
theorem outlook_attended (code : Code κ.recorded) (V : Event → Prop) :
    Outlook (Track.attended code V) (fun w => w.2 = []) (Undisturbed V) fun _ => True :=
  .of_beside (fun config trap subs world hw => ⟨attended_new config trap subs world hw, trivial⟩)
    (fun _ _ hm => ⟨hm.diary, hm.bus⟩) fun _ _ _ _ => trivial

end Troupe
