import Troupe.Flow.Requests
import Troupe.Proofs.Flow.Discipline
import Troupe.Proofs.Machine.Turns
import Troupe.Proofs.Stage.Allocation

/-!
# Deliveries, requests and demands are tidy

Whatever a message, a hook, a foreign function or a script asks for is met by nested work that
leaves nothing lent (`Flow.Tidy`), and by which the machine it is met for keeps its frames and what
they own (`Machine.SameFrames`). The scripts that are run meanwhile on that machine are entered from
it (`Machine.Entered`, `exec_tidy`). Application code is arbitrary: `serve_tidy` goes by induction
on what it asks for. `Act.Publishes` and `Code.Publishes` say of the events that it publishes that
`V` is true.

An actor or a machine that is taken out is put back, unless its incarnation has gone, and then
nobody misses it (`act_tidy`, `meets_checkOut`, `meets_borrow`, `actAt_tidy`).

Headlines:
* **`Flow.answer_tidy`**, **`Flow.serve_tidy`**: requests, and application code whatever it asks for
  (`Cx`).
* **`Flow.act_tidy`**: an actor's code, run on an occasion.
* **`Flow.readMail_tidy`**: reading the mailbox halts a script only when another slot looks after
  the mail.
* **`Flow.meet_tidy`**: demands of scripts.
-/

namespace Troupe

/-- Of the events that a piece of application code publishes, `V` is true. -/
def Act.Publishes {κ : App} {α : Type} (V : Event → Prop) : Act κ α → Prop
  | done _ => True
  | ask r next => (∀ e, r = .trigger e → V e) ∧ ∀ x, (next x).Publishes V
  | look next => ∀ p w, (next p w).Publishes V
  | put _ next => next.Publishes V

/-- Of the events that an application publishes, `V` is true. -/
def Code.Publishes {κ : App} (V : Event → Prop) (code : Code κ) : Prop :=
  (∀ actor hook a, (code.hook actor hook a).Publishes V) ∧
    ∀ f args a, (code.foreign f args a).Publishes V

/-- Whatever an application publishes, it is some event (`Event.Any`). -/
theorem Code.publishes_any {κ : App} (code : Code κ) : code.Publishes Event.Any := by
  have any {α : Type} (act : Act κ α) : act.Publishes Event.Any := by
    induction act with
    | done a => trivial
    | ask r next ih => exact ⟨fun _ _ => trivial, ih⟩
    | look next ih => exact ih
    | put w next ih => exact ih
  exact ⟨fun _ _ _ => any _, fun _ _ _ => any _⟩

namespace Flow

open Platform
open Machine (Entered)

variable {κ : App} {N : Machine κ → Nat → Prop} {V : Event → Prop} {code : Code κ} {s : Stage κ}
  {a : Address} {m : Machine κ}

/-! ## Deliveries -/

theorem deliverAt_tidy (a : Address) (env : Envelope) (transferred : Bool) (s : Stage κ) :
    Tidy N V (deliverAt a env transferred) (fun _ _ => True) s := by
  unfold deliverAt
  refine .ask ?_
  split
  · exact .pure trivial
  · refine .bind (.step (.publish rfl)) fun _ t _ _ => ?_
    split
    · exact .bind (.step (.mail a env)) fun _ _ _ _ => .pure trivial
    · refine .bind (.step (.backlog a (· ++ [env]))) fun _ u _ _ => ?_
      exact .bind (.flush a) fun _ _ _ _ => .pure trivial

theorem transfer_tidy (router : Address) (env : Envelope) (s : Stage κ) :
    Tidy N V (transfer router env) (fun _ _ => True) s := by
  unfold transfer
  refine .bind (.step (.publish rfl)) fun _ t _ _ => .ask ?_
  split
  · exact deliverAt_tidy router env true t
  · exact .bind (.step (.publish rfl)) fun _ _ _ _ => .pure trivial

theorem route_tidy (env : Envelope) (s : Stage κ) : Tidy N V (route env) (fun _ _ => True) s := by
  unfold route
  split
  · exact .pure trivial
  · refine .ask ?_
    split
    · exact transfer_tidy _ env s
    · exact deliverAt_tidy env.target env false s

theorem countM_tidy {γ : Type} {f : γ → Flow κ Bool}
    (hf : ∀ x s, Tidy N V (f x) (fun _ _ => True) s) (l : List γ) (s : Stage κ) :
    Tidy N V (countM f l) (fun _ _ => True) s := by
  induction l generalizing s with
  | nil => exact .done trivial
  | cons x l ih =>
    exact .bind (hf x s) fun b t _ _ => .bind (ih t) fun n _ _ _ => .done trivial

theorem routeToMembers_tidy (group : String) (source : Address) (message : Message) (s : Stage κ) :
    Tidy N V (routeToMembers group source message) (fun _ _ => True) s := by
  unfold routeToMembers
  exact .ask (countM_tidy (fun target t => route_tidy ⟨target, source, message⟩ t) _ s)

/-! ## Starting, removing and allocating -/

theorem startAll_tidy (as : List Address) (s : Stage κ) :
    Tidy N V (startAll (κ := κ) as) (fun _ _ => True) s := by
  induction as generalizing s with
  | nil => exact .pure trivial
  | cons a as ih =>
    unfold startAll
    refine .ask ?_
    split
    · refine .bind (.start a) fun x t _ _ => ?_
      split
      · exact ih t
      · exact .pure trivial
    · exact ih s

theorem startTree_tidy (a : Address) (s : Stage κ) :
    Tidy N V (startTree (κ := κ) a) (fun _ _ => True) s := by
  unfold startTree
  refine .ask (.bind (.start a) fun x t _ _ => ?_)
  split
  · exact startAll_tidy _ t
  · exact .pure trivial

theorem terminate_tidy (code : Code κ) (a : Address) (s : Stage κ) :
    Tidy N V (modify (Stage.terminate code a)) (fun _ _ => True) s :=
  .modify (fun hi => (Stage.terminate_upkeep a hi.table).clean) trivial

theorem allocate_tidy (code : Code κ) (parent : Address) (t : Template κ) (s : Stage κ) :
    Tidy N V (onStage (Stage.allocate code parent t)) (fun _ _ => True) s :=
  .onStage (fun hi => (Stage.allocate_upkeep code parent t s hi.table).clean) trivial

theorem killFor_tidy (code : Code κ) (caller target : Address) (s : Stage κ) :
    Tidy N V (killFor code caller target) (fun _ _ => True) s := by
  unfold killFor
  split
  · exact .bind (terminate_tidy code target s) fun _ _ _ _ => .pure trivial
  · exact .pure trivial

/-! ## Scripts -/

/-- A script leaves the frames that were below it (`Machine.SameFrames`), and what they own. -/
theorem sameFrames_of_resumed {m' m'' : Machine κ} {script : Script κ}
    (hpush : m.pushFrame (.main script) = .ok m') (hr : Resumed m' m.depth m'') :
    m.SameFrames m'' := by
  have hgrown := Machine.pushFrame_main hpush
  obtain ⟨-, rfl⟩ := Machine.pushFrame_inv hpush
  have hfloor : Machine.floor { m with frames := .main script :: m.frames } m.depth = m.frames :=
    (Machine.drop_append_floor [_] (Nat.le_refl _)).trans (by simp)
  refine ⟨⟨hgrown.toKin.trans hr.toKin, fun hm => hr.sound (hgrown.sound hm),
    fun hm cell x hx => ?_⟩, hr.frames.trans hfloor⟩
  have howned : cell ∈ ownedCells m.frames := (hm.live cell).mpr (Option.isSome_of_eq_some hx)
  exact (hr.kept (hgrown.sound hm) cell (hfloor.symm ▸ howned)).trans hx

/-- A script (`exec`) is entered from the machine it runs on, and leaves the machine's frames. -/
theorem exec_tidy (m : Machine κ) (script : Script κ) (s : Stage κ) :
    Tidy (Entered m) V (exec m script) (fun x _ => m.SameFrames x.2) s := by
  unfold exec
  split
  · rename_i m' hpush
    have hentered : Entered m m' m.depth := ⟨m, script, .refl m, hpush, rfl⟩
    exact (Tidy.resume hentered).mono fun x t _ ⟨hr, _⟩ => sameFrames_of_resumed hpush hr
  · exact .bind (.step (.raise _ _)) fun _ _ _ _ => .pure (.refl m)

theorem onBehalf_tidy {α : Type} {f : Flow κ α} {Q : α → Stage κ → Prop} (h : Tidy N V f Q s) :
    Tidy N V (onBehalf m f) (fun x t => m.SameFrames x.2 ∧ Q x.1 t) s :=
  .bind h fun _ _ _ hx => .pure ⟨.refl m, hx⟩

/-- **Requests** (`answer`) leave nothing lent, and the machine's frames as they were. -/
theorem answer_tidy (code : Code κ) (m : Machine κ) {r : Request κ}
    (hr : ∀ e, r = .trigger e → V e) (s : Stage κ) :
    Tidy (Entered m) V (answer code m r) (fun x _ => m.SameFrames x.2) s := by
  have behalf {α : Type} {f : Flow κ α} (h : Tidy (Entered m) V f (fun _ _ => True) s) :
      Tidy (Entered m) V (onBehalf m f) (fun x _ => m.SameFrames x.2) s :=
    (onBehalf_tidy h).mono fun _ _ _ hx => hx.1
  cases r with
  | tell target message =>
    unfold answer
    exact .bind (exec_tidy m _ s) fun _ _ _ hx => .pure hx
  | broadcast group message => exact behalf (routeToMembers_tidy group m.address message s)
  | forward env =>
    have forward : Tidy (Entered m) V (α := Bool)
        (if env.target.isRoot || !s.platform.contains env.target then do
          edit (·.dropMessage env)
          pure false
        else deliver env) (fun _ _ => True) s := by
      split
      · exact .bind (.step (.publish rfl)) fun _ _ _ _ => .pure trivial
      · exact deliverAt_tidy env.target env false s
    exact behalf (.ask forward)
  | drop env => exact behalf (.step (.publish rfl))
  | receive matcher => exact behalf (.step (.arm m.address matcher))
  | kill target => exact behalf (killFor_tidy code m.address target s)
  | start target => exact behalf (.start target)
  | exit => exact behalf (terminate_tidy code m.address s)
  | raise error => exact behalf (.step (.raise m.address error))
  | runTask task =>
    exact behalf (.onPlatform (fun _ => (Step.register m.address task).clean) trivial)
  | route target => exact behalf (.edit (Upkeep.putRoute _ target m.address).clean trivial)
  | unroute target => exact behalf (.edit (Upkeep.removeRoute _ target).clean trivial)
  | join group => exact behalf (.onPlatform (fun _ => (Step.join group m.address).clean) trivial)
  | exec script => exact exec_tidy m script s
  | spawn template =>
    refine behalf (.bind (allocate_tidy code m.address template s) fun x t _ _ => ?_)
    split
    · exact .pure trivial
    · refine .bind (startTree_tidy _ t) fun y u _ _ => ?_
      split
      · exact .pure trivial
      · exact .pure trivial
  | alloc template => exact behalf (allocate_tidy code m.address template s)
  | trigger e => exact behalf (.announce (hr e rfl))
  | stop => exact behalf (.step .stop)

/-- **Application code** (`serve`) does, whatever it asks for. -/
theorem serve_tidy {α : Type} (code : Code κ) {act : Act κ α} (hact : act.Publishes V)
    (m : Machine κ) (s : Stage κ) :
    Tidy (Entered m) V (serve code act m) (fun x _ => m.SameFrames x.2) s := by
  induction act generalizing m s with
  | done a => exact .pure (.refl m)
  | ask r next ih =>
    refine .bind (answer_tidy code m hact.1 s) fun ⟨x, m'⟩ t _ hm => ?_
    exact ((ih x (hact.2 x) m' t).mono fun _ _ _ hm' => hm.trans hm').relax fun _ _ => .of_same hm
  | look next ih => exact .get (ih s.platform s.world (hact _ _) m s)
  | put w next ih =>
    refine .bind (.modify (Q := fun _ _ => True) (fun _ => .refl _) trivial) fun _ t _ _ => ?_
    exact ih hact m t

/-! ## Actors that act -/

/-- **An actor's code** (`act`), run on an occasion, leaves nothing lent. -/
theorem act_tidy (hpub : code.Publishes V) (m : Machine κ) (hook : Hook) (s : Stage κ) :
    Tidy (Entered m) V (act code m hook) (fun x _ => m.SameFrames x.2) s := by
  unfold act
  refine .see ?_
  split
  · rename_i address generation actor machine flags mailbox receivers backlog template hc
    split
    · exact .pure (.refl m)
    · rename_i hgen
      rw [ne_eq, not_not] at hgen
      intro hi
      rw [meets_bind, meets_edit]
      refine ⟨(Loan.actor _).nested, fun hi₁ => ?_⟩
      rw [meets_bind]
      refine (serve_tidy code (hpub.1 _ _ _) m _ hi₁).mono (fun _ _ h => h)
        fun ⟨result, m'⟩ t ⟨ht, hm⟩ => ?_
      rw [meets_bind, meets_modify]
      obtain ⟨hback, hgone⟩ := actor_clean hc ht actor
      dsimp only at hback hgone hm ⊢
      rw [hm.address, hm.generation, ← hgen]
      by_cases hcur : t.platform.isCurrent m.address generation = true
      · rw [if_pos hcur]
        exact ⟨(Step.returnActor _ actor).nested, fun _ => ⟨hback hcur, hm⟩⟩
      · rw [if_neg hcur]
        exact ⟨.refl _, fun _ => ⟨hgone (Bool.not_eq_true _ ▸ hcur), hm⟩⟩
  · exact .pure (.refl m)

/-- Taking a machine out (`checkOut`): there is none, or it is at rest. -/
theorem meets_checkOut {R : Stage κ → Stage κ → Prop} {Q : Option (Machine κ) → Stage κ → Prop}
    (hi : s.platform.Inv) (hR : ∀ t, Nested V s.platform t.platform → R s t)
    (hnone : (∀ c, s.platform.context? a = some c → c.machine = none) →
      ∀ t, t.platform.Inv →
        t.platform = s.platform.modifyContext a (fun c => { c with machine := none }) → Q none t)
    (hsome : ∀ c m, s.platform.context? a = some c → m.AtRest a c.generation →
      ∀ t, t.platform.Inv →
        t.platform = s.platform.modifyContext a (fun c => { c with machine := none }) →
          Q (some m) t) : Meets (rules N V) R (checkOut a) Q s := by
  unfold checkOut
  refine ⟨hR _ (Loan.machine a).nested, fun hi₁ => ?_⟩
  dsimp only
  cases hm : (s.platform.context? a).bind Context.machine with
  | none =>
    have hno (c : Context κ) (hc : s.platform.context? a = some c) : c.machine = none := by
      rw [hc] at hm
      exact hm
    exact hnone hno _ hi₁ rfl
  | some m =>
    obtain ⟨c, hc, hcm⟩ := Option.bind_eq_some_iff.mp hm
    exact hsome c m hc (hi.machines a c m hc hcm) _ hi₁ rfl

/-- Work on a machine that is taken out (`checkOut`): it is put back afterwards (`checkIn`), and
nothing is missing. -/
theorem meets_borrow {α β : Type} {R : Stage κ → Stage κ → Prop} {c : Context κ} {t : Stage κ}
    {f : Flow κ (β × Machine κ)} {k : β × Machine κ → Flow κ α} {P : β × Machine κ → Stage κ → Prop}
    {Q : α → Stage κ → Prop} (hc : s.platform.context? a = some c) (hm : m.AtRest a c.generation)
    (hR : ∀ t u, Nested V t.platform u.platform → R t u) (hi : t.platform.Inv)
    (ht : t.platform = s.platform.modifyContext a (fun c => { c with machine := none }))
    (hf : Tidy N V f (fun x u => m.SameFrames x.2 ∧ P x u) t)
    (hk : ∀ x u v, Clean V s.platform v.platform → P x u → Nested V u.platform v.platform →
      v.platform.Inv → Meets (rules N V) R (k x) Q v) :
    Meets (rules N V) R (f >>= fun x => checkIn x.2 >>= fun _ => k x) Q t := by
  rw [meets_bind]
  refine (hf hi).mono (fun t u h => hR t u h) fun ⟨x, m'⟩ u ⟨hclean, hsame, hP⟩ => ?_
  have hrest : m'.AtRest a c.generation :=
    ⟨hsame.address.trans hm.address, hsame.generation.trans hm.generation,
      hsame.frames.trans hm.frames, hsame.room ▸ hm.room, hsame.sound hm.sound⟩
  rw [ht] at hclean
  obtain ⟨hback, hgone⟩ := machine_clean hc hclean hrest
  unfold checkIn
  rw [meets_bind, meets_edit]
  unfold Stage.edit
  dsimp only
  rw [hrest.address, hrest.generation]
  by_cases hcur : u.platform.isCurrent a c.generation = true
  · rw [if_pos hcur]
    obtain ⟨hstep, hclean⟩ := hback hcur
    exact ⟨hR _ _ hstep.nested, fun hi' => hk _ u _ hclean hP hstep.nested hi'⟩
  · rw [if_neg hcur]
    have hclean := hgone (Bool.not_eq_true _ ▸ hcur)
    exact ⟨hR _ _ (Nested.refl _), fun hi' => hk _ u _ hclean hP (Nested.refl _) hi'⟩

theorem actAt_tidy (hpub : code.Publishes V) (a : Address) (hook : Hook) (s : Stage κ) :
    Tidy OnSound V (actAt code a hook) (fun _ _ => True) s := by
  intro hi
  unfold actAt
  rw [meets_bind]
  refine meets_checkOut hi (fun _ h => h) (fun hno t _ ht => ⟨ht ▸ loan_clean hno, trivial⟩) ?_
  intro c m hc hm t hi' ht
  refine meets_borrow (P := fun _ _ => True) hc hm (fun _ _ h => h) hi' ht
    (((act_tidy hpub m hook t).mono fun _ _ _ h => ⟨h, trivial⟩).relax fun _ _ he =>
      he.grown.sound hm.sound) ?_
  exact fun x u v hclean _ _ _ => ⟨hclean, trivial⟩

/-! ## Demands -/

/-- What comes of reading a mailbox (`Demand.read`): a number, or a halt when another slot looks
after the mail. -/
def MailRead (a : Address) : Met κ → Stage κ → Prop
  | .halt, t => t.platform.Awake a
  | .push v, _ => ∃ n, v = .int n
  | _, _ => False

/-- **Reading the mailbox** (`readMail`) halts a script only when another slot looks after the mail.
-/
theorem readMail_tidy (hpub : code.Publishes V) (m : Machine κ) (s : Stage κ) :
    Tidy (Entered m) V (readMail code m)
      (fun x t => m.SameFrames x.2 ∧ MailRead m.address x.1 t) s := by
  unfold readMail
  refine .ask ?_
  dsimp only [id]
  split
  · refine .bind (.edit (Q := fun _ t => t.platform.Awake m.address) (Step.look m.address).clean ?_)
      fun _ t _ ht => .pure ⟨.refl m, ht⟩
    exact awake_scheduleMail s.platform m.address
  · split
    · exact .pure ⟨.refl m, 0, rfl⟩
    · rename_i hit p htake
      refine .bind (.edit (Q := fun _ _ => True)
        ((Step.takeMatch htake).clean.trans (Step.publish rfl).clean) trivial) fun _ t _ _ => ?_
      refine .bind (act_tidy hpub m _ t) fun ⟨result, m'⟩ u _ hm => ?_
      have rest (v : Stage κ) : Tidy (Entered m) V
          (when hit.temporary (modify (Stage.terminate code m'.address)) >>= fun _ =>
            pure (Met.push (.int 1), m'))
          (fun x t => m.SameFrames x.2 ∧ MailRead m.address x.1 t) v :=
        .bind (.when (terminate_tidy code m'.address v)) fun _ _ _ _ => .pure ⟨hm, 1, rfl⟩
      dsimp only
      split
      · exact .bind (.step (.raise _ _)) fun _ v _ _ => rest v
      · exact rest u

/-- **Demands** (`meet`) leave nothing lent, and the machine's frames as they were. -/
theorem meet_tidy (hpub : code.Publishes V) (m : Machine κ) (d : Demand κ) (s : Stage κ) :
    Tidy (Entered m) V (meet code m d) (fun x _ => m.SameFrames x.2) s := by
  have behalf {f : Flow κ (Met κ)} (h : Tidy (Entered m) V f (fun _ _ => True) s) :
      Tidy (Entered m) V (onBehalf m f) (fun x _ => m.SameFrames x.2) s :=
    (onBehalf_tidy h).mono fun _ _ _ hx => hx.1
  cases d with
  | allocate template =>
    refine behalf (.bind (allocate_tidy code m.address template s) fun x t _ _ => ?_)
    split
    · exact .pure trivial
    · exact .pure trivial
  | start target => exact behalf (.bind (.start target) fun _ _ _ _ => .pure trivial)
  | send target message =>
    exact behalf (.bind (route_tidy ⟨target, m.address, message⟩ s) fun _ _ _ _ => .pure trivial)
  | drop target message => exact behalf (.bind (.step (.publish rfl)) fun _ _ _ _ => .pure trivial)
  | arm matcher =>
    exact behalf (.bind (.step (.arm m.address matcher)) fun _ _ _ _ => .pure trivial)
  | countReceivers => exact behalf (.ask (.pure trivial))
  | countMail => exact behalf (.ask (.pure trivial))
  | takeMail =>
    refine behalf (.bind (.onPlatform (Q := fun _ _ => True)
      (fun _ => (Step.takeMail m.address).clean) trivial) fun x t _ _ => ?_)
    split
    · exact .pure trivial
    · exact .pure trivial
  | read => exact (readMail_tidy hpub m s).mono fun _ _ _ hx => hx.1
  | discardMail =>
    refine behalf (.bind (.edit (Q := fun _ _ => True) ?_ trivial) fun _ _ _ _ => .pure trivial)
    exact discardMail_clean _ m.address
  | kill target =>
    exact behalf (.bind (killFor_tidy code m.address target s) fun _ _ _ _ => .pure trivial)
  | route target =>
    exact behalf (.bind (.edit (Q := fun _ _ => True) (Upkeep.putRoute _ target m.address).clean
      trivial) fun _ _ _ _ => .pure trivial)
  | unroute target =>
    exact behalf (.bind (.edit (Q := fun _ _ => True) (Upkeep.removeRoute _ target).clean trivial)
      fun _ _ _ _ => .pure trivial)
  | foreign f args =>
    refine .bind (serve_tidy code (hpub.2 _ _ _) m s) fun ⟨result, m'⟩ t _ hm => ?_
    dsimp only
    split
    · exact .pure hm
    · exact .pure hm

end Flow

end Troupe
