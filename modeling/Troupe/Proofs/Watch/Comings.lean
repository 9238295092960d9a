import Troupe.Proofs.Watch.Past

/-!
# Coming and going

The bus tells when an actor comes to an address and when it goes (`Event.coming`, `Bus.comings`).
The two take turns, beginning with coming, and the latest tells whether somebody lives there
(`Alternates`): an actor is only installed where nobody lives, and removing an actor tells of it
only if somebody does.

An application may publish events of its own (`trigger`), also such as tell of what has not
happened. So what is known is what is told among other things, and that it is told alone if nobody
makes up the like of it (`Echoes`).

Headlines:
* **`Stage.Tells.tend`**: tending to actors tells of those that come and go; moves tell of nobody
  (`Stage.Tells.move`).
* **`Track.comings`**, `upheld_comings`: coming and going is kept track of, whatever application
  code does.
-/

namespace Troupe

variable {κ : App}

open Platform

/-- Whether an event tells of coming (`true`) or going (`false`) at an address. -/
def Event.coming (a : Address) (e : Event) : Option Bool :=
  if e.address = some a then
    match e.kind with
    | .actorAllocated => some true
    | .actorRemoved => some false
    | _ => none
  else none

/-- What the bus told of coming and going at an address, in order (`Event.coming`). -/
def Bus.comings (b : Bus) (a : Address) : List Bool :=
  b.published.toList.filterMap (Event.coming a)

/-- Coming and going take turns, beginning with coming, and lead to how it is now. -/
inductive Alternates : Bool → List Bool → Prop
  | nobody : Alternates false []
  | came {l : List Bool} : Alternates false l → Alternates true (l ++ [true])
  | went {l : List Bool} : Alternates true l → Alternates false (l ++ [false])

/-- Something is told among other things: in this order, and alone if all are honest. -/
structure Echoes {β : Type} (honest : Prop) (l all : List β) : Prop where
  sublist : l.Sublist all
  eq : honest → all = l

/-- An event of another kind, that tells of nobody's coming or going (`Event.coming`). -/
def Event.isElse (e : Event) : Prop :=
  e.kind ≠ .actorAllocated ∧ e.kind ≠ .actorRemoved

section

variable {a b : Address} {e : Event} {bus bus' : Bus}

theorem Echoes.of_eq {β : Type} {honest : Prop} {l all : List β} (h : all = l) :
    Echoes honest l all :=
  ⟨h ▸ .refl _, fun _ => h⟩

/-- More is told, of what was due and of what comes (`Echoes`). -/
theorem Echoes.next {β : Type} {honest : Prop} {l all due more tail : List β}
    (h : Echoes honest (l ++ due) all) (hmore : Echoes honest more (due ++ tail)) :
    Echoes honest (l ++ more) (all ++ tail) where
  sublist := by
    have hdue : (l ++ more).Sublist ((l ++ due) ++ tail) :=
      List.append_assoc l due tail ▸ hmore.sublist.append_left l
    exact hdue.trans (h.sublist.append_right tail)
  eq hhonest := by
    rw [h.eq hhonest, List.append_assoc, hmore.eq hhonest]

theorem coming_else (h : e.isElse) : e.coming a = none := by
  unfold Event.coming
  split
  · split
    · exact absurd ‹_› h.1
    · exact absurd ‹_› h.2
    · rfl
  · rfl

theorem comings_publish : (bus.publish e).comings a = bus.comings a ++ (e.coming a).toList := by
  unfold Bus.comings Bus.publish
  rw [Array.toList_push, List.filterMap_append]
  cases h : e.coming a with
  | none => rw [List.filterMap_cons_none h, List.filterMap_nil, Option.toList_none]
  | some x => rw [List.filterMap_cons_some h, List.filterMap_nil, Option.toList_some]

/-- What comes after is told of coming and going only if somebody makes it up (`Event.isElse`). -/
theorem comings_grown {V : Event → Prop} (h : bus.Grown (fun e => e.isElse ∨ V e) bus') :
    ∃ l, bus'.comings a = bus.comings a ++ l ∧ ((∀ e, V e → e.isElse) → l = []) := by
  obtain ⟨es, hes, helse⟩ := h
  refine ⟨es.filterMap (Event.coming a), ?_, fun hV => ?_⟩
  · unfold Bus.comings
    rw [hes, List.filterMap_append]
  · exact List.filterMap_eq_nil_iff.mpr fun e he =>
      coming_else ((helse e he).elim id (hV e))

theorem comings_about {k : EventKind} {came : Bool}
    (hk : k = .actorAllocated ∧ came = true ∨ k = .actorRemoved ∧ came = false) :
    (bus.publish (.about k a)).comings b = bus.comings b ++ if b = a then [came] else [] := by
  rw [comings_publish]
  by_cases hb : b = a
  · subst hb
    rcases hk with ⟨rfl, rfl⟩ | ⟨rfl, rfl⟩ <;> simp [Event.coming, Event.about]
  · have hab : (Event.about k a).coming b = none := if_neg fun he => hb (Option.some.inj he).symm
    rw [if_neg hb, hab]
    rfl

theorem isElse_of_isAside (h : e.isAside = true) : e.isElse := by
  unfold Event.isAside at h
  constructor <;>
  · intro hk
    simp [hk] at h

end

/-! ## Keeping track -/

section

variable {code : Code κ} {V : Event → Prop} {same : κ.World → κ.World → Prop} {s t : Stage κ}
  {x y : Option (Due κ)} {a : Address}

/-- What was told of coming and going takes turns up to how it is now (`Alternates`), and nothing
else was told of it unless the application makes it up. -/
def Stage.Tells (V : Event → Prop) (s : Stage κ) : Prop :=
  ∀ a, ∃ l, Alternates (s.platform.isLive a) l ∧
    Echoes (∀ e, V e → e.isElse) l (s.platform.bus.comings a)

/-- In a `Move`, nothing is told of coming and going. -/
theorem Move.bus (hm : Move code V same x s y t) :
    s.platform.bus.Grown (fun e => e.isElse ∨ V e) t.platform.bus := by
  have helse (e : Event) (he : e.isAside = true ∨ V e) : e.isElse ∨ V e :=
    he.imp isElse_of_isAside id
  cases hm with
  | beside hb => exact hb.bus.mono helse
  | accept =>
    exact .publish _
      (Or.inl (by simp [Event.isElse, Event.accepted, Event.withEnvelope, Event.about]))
  | @mail b env =>
    have hlook : Aloof V (s.platform.putMail b env) _ := .look _ b
    exact hlook.bus.mono helse
  | discard b =>
    have hdrop : Aloof V (s.platform.takeMail b).2 _ := discardMail_aloof s.platform b
    exact hdrop.bus.mono helse
  | takeMatch _ _ htake =>
    obtain ⟨_, _, _, _, -, -, -, -, -, rfl⟩ := takeMatch_eq htake
    exact .publish _ (Or.inl (by simp [Event.isElse, Event.received, Event.withEnvelope]))
  | takeBacklog _ htake =>
    obtain ⟨_, _, -, -, -, rfl⟩ := takeBacklog_some htake
    exact .refl _
  | hand | takeMail | out | back | gone => exact .refl _

theorem isLive_of_context {p : Platform κ} : p.isLive a = (p.context? a).isSome := by
  rw [Bool.eq_iff_iff, isLive_iff, Option.isSome_iff_exists]

theorem isLive_of_generations (h : t.platform.generation? a = s.platform.generation? a) :
    t.platform.isLive a = s.platform.isLive a := by
  have hgen (p : Platform κ) : p.isLive a = (p.generation? a).isSome :=
    isLive_of_context.trans Option.isSome_map.symm
  rw [hgen, hgen, h]

theorem Stage.Tells.move (h : s.Tells V) (hm : Move code V same x s y t) : t.Tells V := by
  intro a
  obtain ⟨l, halt, htold⟩ := h a
  obtain ⟨more, hmore, hnone⟩ := comings_grown (a := a) hm.bus
  rw [isLive_of_generations (hm.generations.2 a), hmore]
  exact ⟨l, halt, htold.sublist.trans (List.sublist_append_left _ _), fun hV => by
    rw [hnone hV, List.append_nil, htold.eq hV]⟩

open Stage in
/-- **Tending to actors** (`Tend`) tells of those that come and go. -/
theorem Stage.Tells.tend (h : s.Tells V) (ht : Tend code same s t) : t.Tells V := by
  intro b
  obtain ⟨l, halt, htold⟩ := h b
  have hadd (x : List Bool) : Echoes (∀ e, V e → e.isElse) (l ++ x)
      (s.platform.bus.comings b ++ x) :=
    ⟨htold.sublist.append_right x, fun hV => congrArg (· ++ x) (htold.eq hV)⟩
  cases ht with
  | think => exact ⟨l, halt, htold⟩
  | @install a tmpl _ hfree =>
    obtain ⟨_, _, heq, hg⟩ := install_eq code a tmpl s
    have hbus : (s.install code a tmpl).platform.bus.comings b =
        s.platform.bus.comings b ++ if b = a then [true] else [] := by
      obtain ⟨more, hmore, hnone⟩ := comings_grown (a := b) (V := fun _ => False)
        (hg.mono fun _ he => Or.inl (isElse_of_isAside (by simp [Event.isAside, he])))
      rw [heq]
      refine hmore.trans ?_
      rw [hnone fun _ he => he.elim, List.append_nil]
      exact comings_about (Or.inl ⟨rfl, rfl⟩)
    refine ⟨_, ?_, hbus ▸ hadd _⟩
    rw [isLive_of_context, context?_install]
    rw [isLive_of_context] at halt
    split
    · rename_i hba
      rw [hba, hfree] at halt
      exact halt.came
    · rw [List.append_nil]
      exact halt
  | remove a =>
    cases hc : s.platform.context? a with
    | none =>
      rw [remove_none code hc]
      exact ⟨l, halt, htold⟩
    | some c =>
      have hbus : (s.remove code a).platform.bus.comings b =
          s.platform.bus.comings b ++ if b = a then [false] else [] := by
        obtain ⟨_, _, hd, -⟩ := dismiss_eq s.platform a
        rw [remove_some code hc, hd]
        exact comings_about (Or.inr ⟨rfl, rfl⟩)
      refine ⟨_, ?_, hbus ▸ hadd _⟩
      rw [isLive_of_context, context?_remove]
      rw [isLive_of_context] at halt
      split
      · rename_i hba
        rw [hba, hc] at halt
        exact halt.went
      · rw [List.append_nil]
        exact halt

end

/-- **Coming and going** is kept track of (`Stage.Tells`). -/
def Track.comings (code : Code κ) (V : Event → Prop) : Track code V where
  same _ _ := True
  holds _ _ s := s.Tells V
  kept _ _ := True
  same_refl _ := trivial
  same_trans _ _ _ _ _ := trivial
  kept_refl _ := trivial
  kept_trans _ _ := trivial
  freshId _ := trivial
  judge _ _ _ := trivial
  poll _ _ := trivial
  move hm _ h := ⟨h.move hm, trivial⟩
  tend ht hdone _ h := by
    refine ⟨?_, trivial⟩
    clear hdone
    induction ht with
    | refl => exact h
    | tail _ hstep ih => exact ih.tend hstep

open Troupe.Flow in
theorem upheld_comings {code : Code κ} {V : Event → Prop} (hpub : code.Publishes V) :
    Upheld (Track.comings code V) :=
  .of_any hpub (fun _ _ => trivial) (fun _ _ _ _ _ _ h => h) fun _ _ _ _ _ _ h => h

theorem tells_new (V : Event → Prop) (config : Config) (trap : Option κ.Trap)
    (subs : List Subscriber) (w : κ.World) : (Stage.new config trap subs w).Tells V := by
  intro a
  obtain ⟨bus, hbus, hp⟩ := Moment.new_platform config trap subs w
  refine ⟨[], ?_, .of_eq ?_⟩
  · rw [isLive_of_context, Moment.context?_new]
    exact .nobody
  · rw [hp]
    unfold Bus.comings
    rw [hbus]
    rfl

open Moment in
/-- The audience and the application tell nothing of it between operations. -/
theorem outlook_comings (code : Code κ) {V : Event → Prop} {start : κ.World → Prop}
    {mean : Stage κ → Stage κ → Prop} (hmean : ∀ s t, mean s t →
      s.platform.bus.Grown (fun e => e.isReport = true ∨ V e) t.platform.bus) :
    Outlook (Track.comings code V) start mean fun _ => True :=
  .of_beside (fun config trap subs w _ => ⟨tells_new V config trap subs w, trivial⟩)
    (fun s t hst => ⟨trivial, hmean s t hst⟩) fun _ _ _ _ => trivial

end Troupe
