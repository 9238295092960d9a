import Troupe.Flow.Activities
import Troupe.Proofs.Flow.Play
import Troupe.Proofs.Stage.Plain

/-!
# Work that nobody is watched at

Work is *blind* to observers if it makes no difference to it whether there are any: played
(`Flow.play`) on two stages that are plainly the same (`Stage.Alike`), it comes to the same, or goes
too deep at the same place, and leaves stages that are plainly the same (`Flow.Blind`). It may
publish more on one of them than on the other, as long as that is no news (`Event.isNews`).

Application code is blind if it does not look at what is there for observers only (`Act.Blind`,
`Code.Blind`). Then everything that a platform does is: what each activity reads of the stage it
finds on the plain one (`Stage.Alike.asked`), and the calls it makes are blind themselves, however
deep they nest.

There is a lemma for each way to build a flow (`Blind.bind`, `Blind.look`, `Blind.edit`,
`Blind.publish` and so on), and one for each activity.

Headlines:
* **`Flow.serve_blind`**: application code is carried out blindly if it does not look at observers.
* **`Flow.runMachine_blind`**: a script does the same whether its instructions are published or not.
* **`Flow.body_blind`**, **`Flow.play_blind`**: every body is blind, and so is all work.
-/

namespace Troupe

variable {κ : App}

/-- The code does not look at (`Act.ask`) the knobs, the readers and the window of the bus, nor at
events that are no news. -/
def Act.Blind {α : Type} : Act κ α → Prop
  | done _ => True
  | ask _ next => ∀ x, (next x).Blind
  | look next => ∀ p w, next p w = next p.plain w ∧ (next p w).Blind
  | put _ next => next.Blind

/-- The application's code does not look at what is there for observers (`Act.Blind`). -/
structure Code.Blind (code : Code κ) : Prop where
  hook : ∀ actor hook a, (code.hook actor hook a).Blind
  foreign : ∀ f args a, (code.foreign f args a).Blind

/-- Nobody but an observer can tell the stages apart (`Stage.plain`). -/
def Stage.Alike (s t : Stage κ) : Prop :=
  s.plain = t.plain

namespace Stage.Alike

variable {s t u : Stage κ}

theorem platform (h : s.Alike t) : s.platform.plain = t.platform.plain :=
  (Stage.mk.inj h).1

theorem world (h : s.Alike t) : s.world = t.world :=
  (Stage.mk.inj h).2.1

theorem mk (hp : s.platform.plain = t.platform.plain) (hw : s.world = t.world) : s.Alike t := by
  unfold Alike plain
  rw [hp, hw]

/-- A question that has the same answer on the plain platform (`Platform.plain`) has it on both. -/
theorem asked {β : Type} (h : s.Alike t) (q : Platform κ → β) (hq : ∀ p, q p.plain = q p) :
    q s.platform = q t.platform := by
  rw [← hq, ← hq t.platform, h.platform]

/-- Signals are listened for on both, or on neither (`Config.handleSignals`). -/
theorem interrupt? (h : s.Alike t) (code : Code κ) : s.interrupt? code = t.interrupt? code := by
  unfold Stage.interrupt?
  rw [h.world, h.asked (·.config.handleSignals) fun _ => rfl]

/-- What can be taken from the plain platform (`Platform.plain`) can be taken from both. -/
theorem taken {β : Type} (h : s.Alike t) (q : Platform κ → Option (β × Platform κ))
    (hq : ∀ p, q p.plain = (q p).map (Prod.map id Platform.plain)) :
    (q s.platform = none ∧ q t.platform = none) ∨
      ∃ x p p', q s.platform = some (x, p) ∧ q t.platform = some (x, p') ∧ p.plain = p'.plain := by
  have hsame : (q s.platform).map (Prod.map id Platform.plain) =
      (q t.platform).map (Prod.map id Platform.plain) := by
    rw [← hq, ← hq, h.platform]
  cases hs : q s.platform with
  | none =>
    rw [hs, Option.map_none, eq_comm, Option.map_eq_none_iff] at hsame
    exact Or.inl ⟨rfl, hsame⟩
  | some x =>
    rw [hs, Option.map_some, eq_comm, Option.map_eq_some_iff] at hsame
    obtain ⟨⟨y, p'⟩, ht, hxy⟩ := hsame
    obtain ⟨rfl, hp⟩ := Prod.mk.inj hxy
    exact Or.inr ⟨_, _, p', rfl, ht, hp.symm⟩

end Stage.Alike

namespace Flow

variable {α β : Type} {f g : Flow κ α} {s t : Stage κ} {code : Code κ}

/-! ## Two ends -/

/-- Work comes to the same on two stages, and leaves them plainly the same (`Stage.Alike`). -/
structure SameEnd (x y : Option α × Stage κ) : Prop where
  result : x.1 = y.1
  stage : x.2.Alike y.2

/-- Calls come to the same (`SameEnd`). -/
def Even (answer : (c : Call κ) → Stage κ → Option c.Answer × Stage κ) : Prop :=
  ∀ c s t, s.Alike t → SameEnd (answer c s) (answer c t)

/-- The work on one stage ends as the other work does on the other (`SameEnd`), if calls come to the
same. -/
def Twins (f g : Flow κ α) (s t : Stage κ) : Prop :=
  ∀ answer, Even answer → SameEnd (playWith answer f s) (playWith answer g t)

/-- It makes no difference to the work whether there are observers (`Twins`). -/
def Blind (f : Flow κ α) : Prop :=
  ∀ s t, s.Alike t → Twins f f s t

theorem SameEnd.resumeWith {x y : Option α × Stage κ} {k : α → Stage κ → Option β × Stage κ}
    (h : SameEnd x y) (hk : ∀ a s t, s.Alike t → SameEnd (k a s) (k a t)) :
    SameEnd (resumeWith x k) (resumeWith y k) := by
  obtain ⟨a, s⟩ := x
  obtain ⟨b, t⟩ := y
  obtain ⟨rfl, halike⟩ := h
  cases a with
  | none => exact ⟨rfl, halike⟩
  | some a => exact hk a s t halike

/-! ## One after the other -/

theorem Twins.done (x : α) (h : s.Alike t) : Twins (.done x) (.done x) s t :=
  fun _ _ => ⟨rfl, h⟩

theorem Twins.bind {k : α → Flow κ β} (h : Twins f g s t) (hk : ∀ x, Blind (k x)) :
    Twins (f >>= k) (g >>= k) s t := by
  intro answer heven
  change SameEnd (playWith answer (f.bind k) s) (playWith answer (g.bind k) t)
  rw [playWith_bind, playWith_bind]
  exact (h answer heven).resumeWith fun x u v halike => hk x u v halike answer heven

/-- The platform is replaced by plainly the same (`edit`). -/
theorem Twins.edit {p p' : Platform κ} (hp : p.plain = p'.plain) (h : s.Alike t) :
    Twins (Flow.edit fun _ => p) (Flow.edit fun _ => p') s t :=
  fun _ _ => ⟨rfl, .mk hp h.world⟩

namespace Blind

theorem done (x : α) : Blind (.done x : Flow κ α) :=
  fun _ _ h => .done x h

theorem pure (x : α) : Blind (Pure.pure x : Flow κ α) :=
  fun _ _ h => .done x h

theorem bind {k : α → Flow κ β} (h : Blind f) (hk : ∀ x, Blind (k x)) : Blind (f >>= k) :=
  fun s t halike => (h s t halike).bind hk

/-- Reads the stage (`Flow.get`), and goes on the same way with what it found. -/
theorem see {k : Stage κ → Flow κ α} (h : ∀ s t, s.Alike t → Twins (k s) (k t) s t) :
    Blind (get Flow.done >>= k) :=
  h

/-- Takes in the platform (`Flow.ask`), and goes on the same way with what it found. -/
theorem look {k : Platform κ → Flow κ α}
    (h : ∀ s t, s.Alike t → Twins (k s.platform) (k t.platform) s t) : Blind (Flow.ask id >>= k) :=
  h

/-- Asks something that has the same answer (`Flow.ask`). -/
theorem ask {q : Platform κ → β} {k : β → Flow κ α} (hq : ∀ p, q p.plain = q p)
    (hk : ∀ x, Blind (k x)) : Blind (Flow.ask q >>= k) := by
  intro s t h
  have hsame : q s.platform = q t.platform := h.asked q hq
  change Twins (k (q s.platform)) (k (q t.platform)) s t
  rw [hsame]
  exact hk _ s t h

theorem onStage {m : Stage κ → α × Stage κ} (h : ∀ s, m s.plain = Prod.map id Stage.plain (m s)) :
    Blind (Flow.onStage m) := by
  intro s t halike answer _
  have hsame : Prod.map id Stage.plain (m s) = Prod.map id Stage.plain (m t) := by
    rw [← h, ← h, halike]
  obtain ⟨hresult, hstage⟩ := Prod.mk.inj hsame
  have hresult : (m s).1 = (m t).1 := hresult
  exact ⟨congrArg some hresult, hstage⟩

theorem onPlatform {m : Platform κ → α × Platform κ}
    (h : ∀ p, m p.plain = Prod.map id Platform.plain (m p)) : Blind (Flow.onPlatform m) := by
  refine onStage fun s => ?_
  unfold Stage.plain
  dsimp only
  rw [h]
  rfl

/-- Changes the stage (`modify`). -/
theorem change {m : Stage κ → Stage κ} (h : ∀ s t, s.Alike t → (m s).Alike (m t)) :
    Blind (Flow.modify m) :=
  fun s t halike _ _ => ⟨rfl, h s t halike⟩

theorem modify {m : Stage κ → Stage κ} (h : ∀ s, (m s).plain = m s.plain) :
    Blind (Flow.modify m) := by
  refine change fun s t halike => ?_
  unfold Stage.Alike
  rw [h, h, halike]

theorem edit {m : Platform κ → Platform κ} (h : ∀ p, (m p).plain = m p.plain) :
    Blind (Flow.edit m) := by
  refine modify fun s => ?_
  unfold Stage.edit Stage.plain
  rw [h]

/-- Publishes an event (`Platform.publish`), be it news or not. -/
theorem publish (e : Event) : Blind (Flow.edit (κ := κ) (·.publish e)) := by
  refine change fun s t h => .mk ?_ h.world
  unfold Stage.edit
  dsimp only
  cases he : e.isNews with
  | true => rw [Platform.plain_publish _ he, Platform.plain_publish _ he, h.platform]
  | false =>
    rw [Platform.plain_publish_of_not _ he, Platform.plain_publish_of_not _ he, h.platform]

theorem invoke (c : Call κ) : Blind (Flow.invoke c) := by
  intro s t h answer heven
  exact (heven c s t h).resumeWith fun x u v halike => ⟨rfl, halike⟩

theorem when {f : Flow κ Unit} (b : Bool) (h : Blind f) : Blind (Flow.when b f) := by
  unfold Flow.when
  split
  · exact h
  · exact done ()

theorem ite {p : Prop} [Decidable p] (hf : Blind f) (hg : Blind g) :
    Blind (if p then f else g) := by
  split
  · exact hf
  · exact hg

end Blind

/-! ## Delivery -/

theorem deliverAt_blind (a : Address) (env : Envelope) (transferred : Bool) :
    Blind (deliverAt (κ := κ) a env transferred) := by
  unfold deliverAt
  refine .ask (fun _ => rfl) fun c => ?_
  split
  · exact .pure _
  · refine .bind (.publish _) fun _ => ?_
    split
    · refine .bind (.edit fun p => ?_) fun _ => .pure _
      rw [Platform.plain_scheduleMail, Platform.plain_putMail]
    · refine .bind (.edit fun p => p.plain_putBacklog a env) fun _ => ?_
      exact .bind (.invoke _) fun _ => .pure _

theorem transfer_blind (router : Address) (env : Envelope) :
    Blind (transfer (κ := κ) router env) := by
  unfold transfer
  refine .bind (.publish _) fun _ => .ask (fun _ => rfl) fun live => ?_
  refine .ite (deliverAt_blind router env true) ?_
  exact .bind (.edit fun p => p.plain_dropMessage env) fun _ => .pure _

theorem route_blind (env : Envelope) : Blind (route (κ := κ) env) := by
  unfold route
  refine .ite (.pure _) (.ask (fun _ => rfl) fun router => ?_)
  split
  · exact transfer_blind _ env
  · exact deliverAt_blind env.target env false

theorem countM_blind {γ : Type} {f : γ → Flow κ Bool} (hf : ∀ x, Blind (f x)) (xs : List γ) :
    Blind (countM f xs) := by
  induction xs with
  | nil => exact .done 0
  | cons x xs ih => exact .bind (hf x) fun b => .bind ih fun n => .done _

theorem routeToMembers_blind (group : String) (source : Address) (message : Message) :
    Blind (routeToMembers (κ := κ) group source message) := by
  unfold routeToMembers
  exact .ask (fun _ => rfl) fun members => countM_blind (fun _ => route_blind _) members

/-! ## Starting, removing and allocating -/

theorem startAll_blind (as : List Address) : Blind (startAll (κ := κ) as) := by
  induction as with
  | nil => exact .pure _
  | cons a as ih =>
    unfold startAll
    refine .ask (fun _ => rfl) fun live => .ite (.bind (.invoke _) fun x => ?_) ih
    split
    · exact ih
    · exact .pure _

theorem startTree_blind (a : Address) : Blind (startTree (κ := κ) a) := by
  unfold startTree
  refine .ask (fun _ => rfl) fun below => .bind (.invoke _) fun x => ?_
  split
  · exact startAll_blind below
  · exact .pure _

theorem terminate_blind (code : Code κ) (a : Address) : Blind (modify (Stage.terminate code a)) :=
  .modify fun s => s.plain_terminate code a

theorem allocate_blind (code : Code κ) (parent : Address) (t : Template κ) :
    Blind (onStage (Stage.allocate code parent t)) :=
  .onStage (Stage.allocate_plain code parent t)

theorem killFor_blind (code : Code κ) (caller target : Address) :
    Blind (killFor code caller target) := by
  unfold killFor
  exact .ite (.bind (terminate_blind code target) fun _ => .pure _) (.pure _)

theorem raiseAt_blind (a : Address) (e : ActorError) : Blind (edit (κ := κ) (·.raiseAt a e)) :=
  .edit fun p => p.plain_raiseAt a e

theorem putMember_blind (group : String) (a : Address) :
    Blind (onPlatform (κ := κ) (·.putMember group a)) :=
  .onPlatform fun p => Prod.ext (p.putMember_plain a group) (p.plain_putMember a group).symm

/-! ## Application code -/

theorem exec_blind (m : Machine κ) (script : Script κ) : Blind (exec m script) := by
  unfold exec
  split
  · exact .invoke _
  · exact .bind (raiseAt_blind _ _) fun _ => .pure _

theorem onBehalf_blind (m : Machine κ) (h : Blind f) : Blind (onBehalf m f) :=
  .bind h fun _ => .pure _

theorem answer_blind (code : Code κ) (m : Machine κ) (r : Request κ) :
    Blind (answer code m r) := by
  cases r with
  | tell target message => exact .bind (exec_blind m _) fun _ => .pure _
  | broadcast group message => exact onBehalf_blind m (routeToMembers_blind group _ message)
  | forward env =>
    refine onBehalf_blind m ?_
    have forward (known : Bool) : Blind (κ := κ) (α := Bool)
        (if env.target.isRoot || !known then do
          edit (·.dropMessage env)
          pure false
        else deliver env) :=
      .ite (.bind (.edit fun p => p.plain_dropMessage env) fun _ => .pure _)
        (deliverAt_blind env.target env false)
    exact .ask (fun _ => rfl) forward
  | drop env => exact onBehalf_blind m (.edit fun p => p.plain_dropMessage env)
  | receive matcher => exact onBehalf_blind m (.edit fun p => p.plain_armReceiver _ matcher)
  | kill target => exact onBehalf_blind m (killFor_blind code m.address target)
  | start target => exact onBehalf_blind m (.invoke _)
  | exit => exact onBehalf_blind m (terminate_blind code m.address)
  | raise error => exact onBehalf_blind m (raiseAt_blind m.address error)
  | runTask task => exact onBehalf_blind m (.onPlatform fun p => p.registerTask_plain _ task)
  | route target => exact onBehalf_blind m (.edit fun p => p.plain_putRoute target _)
  | unroute target => exact onBehalf_blind m (.edit fun p => p.plain_removeRoute target)
  | join group => exact onBehalf_blind m (putMember_blind group m.address)
  | exec script => exact exec_blind m script
  | spawn template =>
    refine onBehalf_blind m (.bind (allocate_blind code m.address template) fun x => ?_)
    split
    · exact .pure _
    · refine .bind (startTree_blind _) fun y => ?_
      split
      · exact .pure _
      · exact .pure _
  | alloc template => exact onBehalf_blind m (allocate_blind code m.address template)
  | trigger e => exact onBehalf_blind m (.publish e)
  | stop => exact onBehalf_blind m (.edit fun p => p.plain_stop)

/-- **Application code** (`serve`) is carried out blindly if it does not look at observers. -/
theorem serve_blind (code : Code κ) {act : Act κ α} (h : act.Blind) (m : Machine κ) :
    Blind (serve code act m) := by
  induction act generalizing m with
  | done x => exact .pure _
  | ask r next ih => exact .bind (answer_blind code m r) fun x => ih x.1 (h x.1) x.2
  | look next ih =>
    refine .see (k := fun s => serve code (next s.platform s.world) m) fun s t halike => ?_
    have hnext : next s.platform s.world = next t.platform t.world := by
      rw [(h _ _).1, halike.platform, ← (h _ _).1, halike.world]
    rw [hnext]
    exact ih _ _ (h _ _).2 m s t halike
  | put w next ih => exact .bind (.modify fun _ => rfl) fun _ => ih h m

/-- An actor is put back where it was taken from, or gets its last call (`Code.stop`). -/
theorem putBack_blind (code : Code κ) (m : Machine κ) (actor : κ.Actor) :
    Blind (modify fun s =>
      if s.platform.isCurrent m.address m.generation then
        s.edit (·.modifyContext m.address fun c => { c with actor := some actor })
      else { s with world := code.stop actor s.world }) := by
  refine .modify fun s => ?_
  rw [apply_ite Stage.plain]
  rfl

/-- **An actor's code** (`act`) is run blindly. -/
theorem act_blind (hcode : code.Blind) (m : Machine κ) (hook : Hook) :
    Blind (act code m hook) := by
  unfold act
  refine .see fun s t h => ?_
  rw [h.asked (·.context? m.address) fun _ => rfl]
  split
  · refine Blind.ite (.pure _) ?_ s t h
    refine .bind (.edit fun p => p.plain_modifyContext _ _) fun _ => ?_
    refine .bind (serve_blind code (hcode.hook _ _ _) m) fun x => ?_
    exact .bind (putBack_blind code _ _) fun _ => .pure _
  · exact Blind.pure _ s t h

theorem checkOut_blind (a : Address) : Blind (checkOut (κ := κ) a) :=
  .onPlatform fun _ => rfl

theorem checkIn_blind (m : Machine κ) : Blind (checkIn m) := by
  refine .edit fun p => ?_
  rw [apply_ite Platform.plain, Platform.plain_enqueue]
  rfl

theorem actAt_blind (hcode : code.Blind) (a : Address) (hook : Hook) :
    Blind (actAt code a hook) := by
  unfold actAt
  refine .bind (checkOut_blind a) fun m => ?_
  split
  · exact .pure _
  · exact .bind (act_blind hcode _ hook) fun x => .bind (checkIn_blind _) fun _ => .pure _

/-! ## Demands -/

theorem readMail_blind (hcode : code.Blind) (m : Machine κ) : Blind (readMail code m) := by
  unfold readMail
  refine .look fun s t h => ?_
  rw [h.asked (·.context? m.address) fun _ => rfl]
  split
  · refine Blind.bind (.edit fun p => p.plain_scheduleMail _) (fun _ => .pure _) s t h
  · obtain ⟨hs, ht⟩ | ⟨hit, p, p', hs, ht, hp⟩ :=
      h.taken (·.takeMatch m.address) fun p => p.takeMatch_plain _
    · rw [hs, ht]
      exact Blind.pure _ s t h
    · rw [hs, ht]
      refine .bind (.edit ?_ h) fun _ => ?_
      · rw [Platform.plain_publish _ rfl, Platform.plain_publish _ rfl, hp]
      · refine .bind (act_blind hcode m _) fun x => ?_
        have rest : Blind (κ := κ) (when hit.temporary (modify (Stage.terminate code x.2.address))
            >>= fun _ => pure (Met.push (κ := κ) (.int 1), x.2)) :=
          .bind (.when _ (terminate_blind code _)) fun _ => .pure _
        dsimp only
        split
        · exact .bind (raiseAt_blind _ _) fun _ => rest
        · exact rest

theorem meet_blind (hcode : code.Blind) (m : Machine κ) (d : Demand κ) :
    Blind (meet code m d) := by
  cases d with
  | allocate template =>
    refine onBehalf_blind m (.bind (allocate_blind code m.address template) fun x => ?_)
    split
    · exact .pure _
    · exact .pure _
  | start target => exact onBehalf_blind m (.bind (.invoke _) fun _ => .pure _)
  | send target message => exact onBehalf_blind m (.bind (route_blind _) fun _ => .pure _)
  | drop target message =>
    exact onBehalf_blind m (.bind (.edit fun p => p.plain_dropMessage _) fun _ => .pure _)
  | arm matcher =>
    exact onBehalf_blind m (.bind (.edit fun p => p.plain_armReceiver _ matcher) fun _ => .pure _)
  | countReceivers => exact onBehalf_blind m (.ask (fun _ => rfl) fun _ => .pure _)
  | countMail => exact onBehalf_blind m (.ask (fun _ => rfl) fun _ => .pure _)
  | takeMail =>
    refine onBehalf_blind m (.bind (.onPlatform fun p => p.takeMail_plain _) fun x => ?_)
    split
    · exact .pure _
    · exact .pure _
  | read => exact readMail_blind hcode m
  | discardMail =>
    exact onBehalf_blind m (.bind (.edit fun p => p.plain_discardMail _) fun _ => .pure _)
  | kill target => exact onBehalf_blind m (.bind (killFor_blind code _ target) fun _ => .pure _)
  | route target =>
    exact onBehalf_blind m (.bind (.edit fun p => p.plain_putRoute target _) fun _ => .pure _)
  | unroute target =>
    exact onBehalf_blind m (.bind (.edit fun p => p.plain_removeRoute target) fun _ => .pure _)
  | foreign f args =>
    refine .bind (serve_blind code (hcode.foreign _ _ _) m) fun x => ?_
    dsimp only
    split
    · exact .pure _
    · exact .pure _

/-! ## The bodies -/

theorem leaveFrame_blind (m : Machine κ) (base : Nat) : Blind (leaveFrame m base) := by
  unfold leaveFrame
  exact .ite (.pure _) (.invoke _)

theorem failScript_blind (m : Machine κ) (base : Nat) (e : ActorError) :
    Blind (failScript m base e) :=
  .bind (raiseAt_blind _ e) fun _ => .pure _

theorem goOn_blind (m : Machine κ) (base : Nat) (met : Met κ) : Blind (goOn m base met) := by
  cases met with
  | nothing => exact .invoke _
  | halt => exact .pure _
  | failed e => exact failScript_blind m base e
  | push v =>
    unfold goOn
    dsimp only
    split
    · exact .invoke _
    · exact failScript_blind m base _

theorem carryOut_blind (hcode : code.Blind) (m : Machine κ) (base : Nat) (i : Instr) :
    Blind (carryOut code m base i) := by
  unfold carryOut
  split
  · exact failScript_blind m base _
  · exact .invoke _
  · exact .bind (meet_blind hcode _ _) fun x => goOn_blind x.2 base x.1

/-- Whether instructions are published (`Config.logOps`) makes no difference. -/
theorem twins_log (b b' : Bool) {e : Event} (he : e.isNews = false) (h : s.Alike t) :
    Twins (when b (edit (·.publish e))) (when b' (edit (·.publish e))) s t := by
  have hs : (s.edit (·.publish e)).Alike s := .mk (Platform.plain_publish_of_not _ he) rfl
  have ht : (t.edit (·.publish e)).Alike t := .mk (Platform.plain_publish_of_not _ he) rfl
  intro _ _
  cases b <;> cases b'
  · exact ⟨rfl, h⟩
  · exact ⟨rfl, h.trans ht.symm⟩
  · exact ⟨rfl, hs.trans h⟩
  · exact ⟨rfl, (hs.trans h).trans ht.symm⟩

/-- **A script** (`runMachine`) does the same whether its instructions are published or not. -/
theorem runMachine_blind (hcode : code.Blind) (m : Machine κ) (base : Nat) :
    Blind (runMachine code m base) := by
  unfold runMachine
  refine .look fun s t h => ?_
  rw [h.asked (·.isCurrent m.address m.generation) fun _ => rfl]
  split
  · exact Blind.pure _ s t h
  · split
    · exact Blind.pure _ s t h
    · split
      · exact leaveFrame_blind m base s t h
      · refine .bind (twins_log _ _ rfl h) fun _ => ?_
        exact .ite (leaveFrame_blind _ base) (carryOut_blind hcode _ base _)

theorem startActor_blind (hcode : code.Blind) (a : Address) : Blind (startActor code a) := by
  unfold startActor
  refine .ask (fun _ => rfl) fun live => .ite (.pure _) ?_
  refine .bind (.publish _) fun _ => .bind (actAt_blind hcode a .run) fun x => ?_
  refine .bind (.invoke _) fun _ => ?_
  split
  · exact .bind (raiseAt_blind a _) fun _ => .pure _
  · exact .pure _

theorem flushBacklog_blind (hcode : code.Blind) (a : Address) : Blind (flushBacklog code a) := by
  unfold flushBacklog
  refine .look fun s t h => ?_
  dsimp only [id]
  obtain ⟨hs, ht⟩ | ⟨env, p, p', hs, ht, hp⟩ :=
    h.taken (·.takeBacklog a) fun p => p.takeBacklog_plain a
  · rw [hs, ht]
    exact Blind.pure _ s t h
  · rw [hs, ht]
    refine .bind (.edit hp h) fun _ => ?_
    refine .bind (actAt_blind hcode a _) fun x => ?_
    rcases x with _ | e | _
    · exact .invoke _
    · exact .bind (raiseAt_blind a e) fun _ => .invoke _
    · exact .invoke _

theorem restart_blind (code : Code κ) (r : Raised κ) : Blind (restart code r) := by
  unfold restart
  refine .look fun s t h => ?_
  rw [h.asked (·.template? r.source) fun _ => rfl]
  split
  · exact Blind.pure _ s t h
  · refine Blind.bind (terminate_blind code _) (fun _ => ?_) s t h
    refine .bind (allocate_blind code _ _) fun x => ?_
    split
    · exact .pure _
    · exact .bind (.publish _) fun _ => .bind (startTree_blind _) fun _ => .pure _

theorem supervise_blind (code : Code κ) (r : Raised κ) : Blind (supervise code r) := by
  unfold supervise
  refine .bind (.onStage fun s => s.judge_plain code r _) fun x => ?_
  split
  · exact .pure _
  · exact restart_blind code r
  · exact terminate_blind code r.source
  · refine .edit fun p => ?_
    rw [Platform.plain_fail, Platform.plain_publish _ rfl]

theorem runSlot_blind (a : Address) (slot : Slot κ) : Blind (runSlot a slot) := by
  unfold runSlot
  refine .ask (fun _ => rfl) fun current => .ite (.pure _) ?_
  refine .bind (checkOut_blind a) fun m => ?_
  split
  · exact .bind (.edit fun p => p.plain_putBackSlot a slot) fun _ => .pure _
  · refine .bind (exec_blind _ _) fun x => .bind (checkIn_blind _) fun _ => ?_
    exact .bind (.invoke _) fun _ => .pure _

/-- Whose turn it is is the same (`Platform.turn`). -/
theorem turn_alike (h : s.Alike t) : (s.platform.turn = .idle ∧ t.platform.turn = .idle) ∨
    (∃ p p', s.platform.turn = .skipped p ∧ t.platform.turn = .skipped p' ∧ p.plain = p'.plain) ∨
      ∃ a slot p p', s.platform.turn = .slot a slot p ∧ t.platform.turn = .slot a slot p' ∧
        p.plain = p'.plain := by
  have hturn : s.platform.turn.plain = t.platform.turn.plain := by
    rw [← Platform.turn_plain, ← Platform.turn_plain, h.platform]
  cases hs : s.platform.turn <;> cases ht : t.platform.turn <;> rw [hs, ht] at hturn <;>
    injection hturn
  · exact Or.inl ⟨rfl, rfl⟩
  · exact Or.inr (Or.inl ⟨_, _, rfl, rfl, ‹_›⟩)
  · subst_vars
    exact Or.inr (Or.inr ⟨_, _, _, _, rfl, rfl, ‹_›⟩)

/-- **Draining** (`drainQueues`) goes from turn to turn in the same order. -/
theorem drainQueues_blind (code : Code κ) : Blind (drainQueues code) := by
  unfold drainQueues
  refine .look fun s t h => ?_
  rw [h.asked (·.stopped) fun _ => rfl, h.asked (·.raised) fun _ => rfl]
  split
  · exact Blind.pure _ s t h
  · split
    · refine Blind.bind (.edit ?_) (fun _ => ?_) s t h
      · exact fun _ => rfl
      · exact .bind (supervise_blind code _) fun _ => .invoke _
    · obtain ⟨hs, ht⟩ | ⟨p, p', hs, ht, hp⟩ | ⟨a, slot, p, p', hs, ht, hp⟩ := turn_alike h
      · rw [hs, ht]
        exact Blind.pure _ s t h
      · rw [hs, ht]
        exact .bind (.edit hp h) fun _ => .invoke _
      · rw [hs, ht]
        refine .bind (.edit hp h) fun _ => ?_
        refine .bind (runSlot_blind a slot) fun deferred => ?_
        exact .bind (.edit fun p => p.plain_endTurn a deferred) fun _ => .invoke _

/-- **Awaiting** (`awaitTask`) polls the same tasks, whether or not there is an audience that gets
its turn. -/
theorem awaitTask_blind (code : Code κ) (polled : Nat) : Blind (awaitTask code polled) := by
  unfold awaitTask
  refine .see fun s t h => ?_
  rw [h.asked (·.tasks) fun _ => rfl, h.world]
  split
  · exact Blind.pure _ s t h
  · rw [h.interrupt? code]
    split
    · exact Blind.pure _ s t h
    refine Blind.bind (.modify ?_) (fun _ => ?_) s t h
    · exact fun _ => rfl
    split
    · exact .bind (.edit fun _ => rfl) fun _ => .pure _
    · refine .bind (.edit fun _ => rfl) fun _ => .ite ?_ (.invoke _)
      refine .bind (.change fun s t h => ?_) fun _ => .invoke _
      exact s.watched_pause.plain.trans (h.trans t.watched_pause.plain.symm)

theorem settleTask_blind (id : Nat) (outcome : Outcome) :
    Blind (settleTask (κ := κ) id outcome) := by
  unfold settleTask
  refine .bind (.onPlatform fun p => p.settle_plain id outcome) fun owner => ?_
  split
  · exact .pure _
  · split
    · exact .pure _
    · exact .bind (route_blind _) fun _ => .pure _
    · exact raiseAt_blind _ _

theorem finishRun_blind (reason : String) : Blind (finishRun (κ := κ) reason) := by
  unfold finishRun
  refine .bind (.publish _) fun _ => .ask (fun _ => rfl) fun fatal => ?_
  split
  · exact .pure _
  · exact .pure _

theorem runLoop_blind : Blind (runLoop (κ := κ)) := by
  unfold runLoop
  refine .bind (.invoke _) fun _ => .look fun s t h => ?_
  rw [h.asked (·.fatal) fun _ => rfl, h.asked (·.stopped) fun _ => rfl]
  refine Blind.ite (finishRun_blind _) (.ite (finishRun_blind _) ?_) s t h
  refine .bind (.invoke _) fun x => ?_
  split
  · exact finishRun_blind _
  · exact .bind (.edit fun _ => rfl) fun _ => finishRun_blind _
  · exact .bind (settleTask_blind _ _) fun _ => .invoke _

/-- **Every body** (`body`) is blind. -/
theorem body_blind (hcode : code.Blind) (c : Call κ) : Blind (body code c) := by
  cases c with
  | resume m base => exact runMachine_blind hcode m base
  | start a => exact startActor_blind hcode a
  | flush a => exact flushBacklog_blind hcode a
  | drain => exact drainQueues_blind code
  | await polled => exact awaitTask_blind code polled
  | run => exact runLoop_blind

/-- **Calls** (`playCall`) come to the same, however deep they nest. -/
theorem playCall_even (hcode : code.Blind) (depth : Nat) : Even (playCall (body code) depth) := by
  induction depth with
  | zero => exact fun _ _ _ h => ⟨rfl, h⟩
  | succ n ih => exact fun c s t h => body_blind hcode c s t h _ ih

/-- **Blind work** (`Blind`), played on two stages that are plainly the same, comes to the same. -/
theorem play_blind (hcode : code.Blind) (hf : Blind f) (depth : Nat) (h : s.Alike t) :
    SameEnd (play (body code) depth f s) (play (body code) depth f t) :=
  hf s t h _ (playCall_even hcode depth)

end Flow

end Troupe
