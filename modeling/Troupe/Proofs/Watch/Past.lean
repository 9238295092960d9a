import Troupe.Proofs.Moments
import Troupe.Proofs.Watch.Activities

/-!
# The past of a platform

What a track says of a stage refers to the stages before it. `Moment.Past` is a moment with all of
them, from the beginning of the platform's life on. What the application and the audience do between
operations may be restricted there, and what operations publish (`Moment.Fair`). `Outlook` is what a
track has to do with the outside: it holds in the beginning and is not touched between operations.

Headlines:
* **`Past.tracked`**: from one moment to the next a track is kept.
* **`Past.holds`**: at every moment the track holds, whatever is due.
* **`Past.fit`**: between operations nothing is due, and idle actors have no backlog.
* **`Reach.idle`**: between operations nobody has a backlog, whatever comes from outside.
* `Reach.past`: if nothing is restricted, every moment that is reached has a past.
-/

namespace Troupe

variable {κ : App}

open Platform Troupe.Flow

namespace Moment

/-- What comes from outside: `V` is true of an event that an operation is to publish, and `mean` of
what happens between operations. -/
def Fair (V : Event → Prop) (mean : Stage κ → Stage κ → Prop) : Moment κ → Moment κ → Prop
  | between _, amid f _ => Operation.Publishes V f
  | between s, between t => mean s t
  | amid _ _, _ => True

/-- A moment, and the stages of the moments before it (`Moment.Next`), the latest first. -/
inductive Past (code : Code κ) (V : Event → Prop) (start : κ.World → Prop)
    (mean : Stage κ → Stage κ → Prop) : Moment κ → List (Stage κ) → Prop
  | new (config : Config) (trap : Option κ.Trap) (subs : List Subscriber) {w : κ.World} :
      start w → Past code V start mean (between (.new config trap subs w)) []
  | next {m m' : Moment κ} {h : List (Stage κ)} : Past code V start mean m h →
      Next code m m' → Fair V mean m m' → Past code V start mean m' (m.stage :: h)

variable {code : Code κ} {V : Event → Prop} {start : κ.World → Prop}
  {mean : Stage κ → Stage κ → Prop} {m : Moment κ} {s : Stage κ} {h : List (Stage κ)}

theorem Past.reach (hp : Past code V start mean m h) : Reach code m := by
  induction hp with
  | new config trap subs => exact ⟨config, trap, subs, _, .refl⟩
  | next _ hnext _ ih => exact ih.later (.single hnext)

/-- If nothing is restricted (`Event.Any`), every moment that is reached has a past. -/
theorem Reach.past (hr : Reach code m) :
    ∃ h, Past code Event.Any (fun _ => True) (fun _ _ => True) m h := by
  obtain ⟨config, trap, subs, w, hlater⟩ := hr
  induction hlater with
  | refl => exact ⟨[], .new config trap subs trivial⟩
  | @tail m m' _ hnext ih =>
    obtain ⟨h, hp⟩ := ih
    refine ⟨_, hp.next hnext ?_⟩
    cases hnext with
    | begin => exact Operation.publishes_any _
    | advance | back | meanwhile => trivial

/-! ## Keeping track -/

/-- What a track has to do with the outside. It holds in the beginning and is not touched between
operations, and `rest` is true then. -/
structure Outlook (T : Track code V) (start : κ.World → Prop)
    (mean : Stage κ → Stage κ → Prop) (rest : Stage κ → Prop) : Prop where
  new : ∀ config trap subs w, start w →
    T.holds none [] (.new config trap subs w) ∧ rest (.new config trap subs w)
  meanwhile : ∀ h s bus w listener, mean s ⟨{ s.platform with bus }, w, listener⟩ →
    s.platform.Inv → T.holds none h s → rest s →
      T.holds none (s :: h) ⟨{ s.platform with bus }, w, listener⟩ ∧
        rest ⟨{ s.platform with bus }, w, listener⟩
  kept : ∀ s t, rest s → T.kept s t → rest t

/-- What goes on beside the actors (`Platform.Beside`) between operations leaves a track as it is.
-/
theorem Outlook.of_beside {T : Track code V} {rest : Stage κ → Prop}
    (hnew : ∀ config trap subs w, start w →
      T.holds none [] (.new config trap subs w) ∧ rest (.new config trap subs w))
    (hmean : ∀ s t, mean s t → T.same s.world t.world ∧
      s.platform.bus.Grown (fun e => e.isReport = true ∨ V e) t.platform.bus)
    (hkept : ∀ s t, rest s → T.kept s t → rest t) : Outlook T start mean rest where
  new := hnew
  meanwhile h s bus w listener hm hi hx hrest := by
    obtain ⟨hsame, hgrown⟩ := hmean _ _ hm
    have hbus : Beside V s.platform { s.platform with bus } := .of_contexts (fun _ => rfl) rfl
      (hgrown.mono fun _ he => he.imp Event.isAside_of_isReport id)
    obtain ⟨hx', hkept'⟩ := T.move (.beside hbus hsame) hi hx
    exact ⟨hx', hkept _ _ hrest hkept'⟩
  kept := hkept

/-- What is known at a moment (`Flow.Tracks`). -/
def Tracked (T : Track code V) (rest : Stage κ → Prop) (h : List (Stage κ)) : Moment κ → Prop
  | between s => T.Fit {} h s ∧ rest s
  | amid f s => (∃ x, T.holds x h s) ∧ Tracks T f (fun _ h t => T.Fit {} h t ∧ rest t) h s

variable {T : Track code V} {rest : Stage κ → Prop}

/-- In the beginning (`Stage.new`) nobody is there. -/
theorem context?_new (config : Config) (trap : Option κ.Trap) (subs : List Subscriber)
    (w : κ.World) (a : Address) : (Stage.new config trap subs w).platform.context? a = none := by
  obtain ⟨_, -, hbus⟩ := new_platform config trap subs w
  rw [hbus]
  rfl

theorem flushed_new (config : Config) (trap : Option κ.Trap) (subs : List Subscriber)
    (w : κ.World) : (Stage.new config trap subs w).platform.FlushedBut none :=
  fun a _ _ hc => absurd ((context?_new config trap subs w a).symm.trans hc) (by simp)

/-- **From one moment to the next** the track is kept. -/
theorem Past.tracked (hp : Past code V start mean m h) (hup : Upheld T)
    (hout : Outlook T start mean rest) : m.Tracked T rest h := by
  induction hp with
  | new config trap subs hw =>
    obtain ⟨hx, hrest⟩ := hout.new config trap subs _ hw
    exact ⟨⟨(ok_new (V := V) config trap subs _).inv, hx, flushed_new config trap subs _⟩, hrest⟩
  | @next m m' h hp hnext hfair ih =>
    have hi := hp.reach.ok.inv
    have hi' := (hp.reach.later (.single hnext)).ok.inv
    cases hnext with
    | begin hf =>
      obtain ⟨hfit, hrest⟩ := ih
      refine ⟨⟨_, hfit.stay.holds⟩, (hf.leads hfair _ hfit.stay).mono fun _ _ t hx => ?_⟩
      exact ⟨hx.1, hout.kept _ t hrest hx.2.1.kept⟩
    | advance hstep =>
      exact (hstep.tracks (body_heeds hup) hi hi' hp.reach.ok.2 ih.2 ih.1).symm
    | back => exact ⟨ih.2.1.stay, ih.2.2⟩
    | @meanwhile s bus w listener =>
      obtain ⟨hfit, hrest⟩ := ih
      obtain ⟨hx, hrest'⟩ := hout.meanwhile h s bus w listener hfair hi hfit.holds hrest
      exact ⟨⟨hi', hx, hfit.flushed.of_eq fun _ => rfl⟩, hrest'⟩

/-- **At every moment** the track holds. -/
theorem Past.holds (hp : Past code V start mean m h) (hup : Upheld T)
    (hout : Outlook T start mean rest) : ∃ x, T.holds x h m.stage := by
  have htracked := hp.tracked hup hout
  cases m with
  | between s => exact ⟨_, htracked.1.holds⟩
  | amid f s => exact htracked.1

/-- **Between operations** nothing is due, and backlogs are looked after. -/
theorem Past.fit (hp : Past code V start mean (between s) h) (hup : Upheld T)
    (hout : Outlook T start mean rest) : T.Fit {} h s ∧ rest s :=
  hp.tracked hup hout

/-- Nothing in particular is kept track of: a `Track` that everything keeps. -/
def nothing (code : Code κ) (V : Event → Prop) : Track code V where
  same _ _ := True
  holds _ _ _ := True
  kept _ _ := True
  same_refl _ := trivial
  same_trans _ _ _ _ _ := trivial
  kept_refl _ := trivial
  kept_trans _ _ := trivial
  freshId _ := trivial
  judge _ _ _ := trivial
  poll _ _ := trivial
  move _ _ _ := ⟨trivial, trivial⟩
  tend _ _ _ _ := ⟨trivial, trivial⟩

/-- **Between operations** everybody is at hand and has no backlog, whatever the application does.
-/
theorem Reach.idle (hr : Reach code (between s)) {a : Address} {c : Context κ}
    (hc : s.platform.context? a = some c) :
    c.actor.isSome = true ∧ c.machine.isSome = true ∧ c.backlog = [] := by
  have hquiet := hr.ok.2.settled.quiet
  have hactor : c.actor.isSome = true := by
    by_contra hn
    exact hquiet.actor a c.generation ⟨c, hc, rfl, by simpa using hn⟩
  have hmachine : c.machine.isSome = true := by
    by_contra hn
    exact hquiet.machine a c.generation ⟨c, hc, rfl, by simpa using hn⟩
  obtain ⟨h, hp⟩ := hr.past
  have hup : Upheld (nothing code Event.Any) := .of_any code.publishes_any (fun _ _ => trivial)
    (fun _ _ _ _ _ _ _ => trivial) fun _ _ _ _ _ _ _ => trivial
  have hout : Outlook (nothing code Event.Any) (fun _ => True) (fun _ _ => True) fun _ => True :=
    ⟨fun _ _ _ _ _ => ⟨trivial, trivial⟩, fun _ _ _ _ _ _ _ _ _ => ⟨trivial, trivial⟩,
      fun _ _ _ _ => trivial⟩
  refine ⟨hactor, hmachine, (hp.fit hup hout).1.flushed a c (by simp) hc ?_⟩
  rw [Context.isIdle, hactor, hmachine]
  rfl

/-- An operation that is carried out leads to a moment with a longer past (`Moment.Past`). -/
theorem Past.performed {α : Type} {f : Flow κ α} {x : α} {t : Stage κ}
    (hp : Past code V start mean (between s) h) (depth : Nat) (hf : Operation.Public code f)
    (hpub : Operation.Publishes V f) (hrun : Flow.perform (body code) depth f s = some (x, t)) :
    ∃ since, Past code V start mean (between t) (since ++ s :: h) := by
  have hon {y : Flow κ α × Stage κ} (hy : Advances (body code) (f, s) y) :
      ∃ since, Past code V start mean (amid y.1 y.2) (since ++ s :: h) := by
    induction hy with
    | refl => exact ⟨[], hp.next (.begin hf) hpub⟩
    | @tail y _ _ hstep ih =>
      obtain ⟨since, hp'⟩ := ih
      exact ⟨y.2 :: since, hp'.next (.advance hstep) trivial⟩
  obtain ⟨since, hp'⟩ := hon (perform_advances hrun)
  exact ⟨t :: since, hp'.next .back trivial⟩

theorem Past.perform {α : Type} {f : Flow κ α} {x : α} {t : Stage κ}
    (hp : Past code V start mean (between s) h) (depth : Nat) (hf : Operation.Public code f)
    (hpub : Operation.Publishes V f) (hrun : Flow.perform (body code) depth f s = some (x, t)) :
    ∃ h', Past code V start mean (between t) h' :=
  (hp.performed depth hf hpub hrun).imp' _ fun _ hp' => hp'

end Moment

end Troupe
