import Troupe.Proofs.Watch.Summons

/-!
# Heralds

If an actor is at hand when its start is told, its run hook is what comes next, and until it begins
it is owed to the actor (`Stage.Owes`). `Flow.Heralds o f s` says that the flow `f`, begun on `s`
while `o` is owed, replaces stages so that each time what is owed is what was told and has not
begun, and that nothing is owed in the end and whenever it calls something. It is computed from the
flow, whatever its calls come to: `Heralds.bind`, `Heralds.tell`, `Heralds.onStage`,
`Heralds.invoke`, and one lemma for each activity, of which `startActor_heralds` is the one that
tells.

Hooks are where what is owed is paid: a hook begins with an entry in the diary (`hook_heralds`), and
for the run hook that entry is the run (`act_run_heralds`, `actAt_run_heralds`). All other hooks
begin with nothing owed and end with nothing owed (`act_heralds`).

Headlines:
* **`Flow.body_heralds`**, **`Operation.Public.heralds`**: every body and every operation owes
  nothing in the end.
* **`Flow.Advance.heralds`**: every step leaves owed what was told and has not begun.
* **`Moment.Recorded.heralded`**: at every moment the starts that were told to actors at hand are
  the runs that were begun, and the one that is owed.
-/

namespace Troupe

variable {κ : App} {V : Event → Prop}

open Platform Troupe.Flow

namespace Flow

variable {α β γ : Type} {f : Flow κ.recorded α} {s t : Stage κ.recorded}
  {o : Option (Address × Nat)}

/-- Begun on a stage while a run is owed, the flow replaces stages so that in the end, and whenever
it calls something, none is (`Stage.Owes`). -/
def Heralds : Option (Address × Nat) → Flow κ.recorded α → Stage κ.recorded → Prop
  | o, done _, _ => o = none
  | o, get next, s => Heralds o (next s) s
  | o, set t next, s => ∃ o', s.Owes o o' t ∧ Heralds o' next t
  | o, call _ next, _ => o = none ∧ ∀ x t, Heralds none (next x) t

namespace Heralds

theorem pure (x : α) (s : Stage κ.recorded) :
    Heralds none (Pure.pure x : Flow κ.recorded α) s :=
  rfl

theorem bind {k : α → Flow κ.recorded β} (h : Heralds o f s) (hk : ∀ x t, Heralds none (k x) t) :
    Heralds o (f >>= k) s := by
  induction f generalizing s o with
  | done x =>
    obtain rfl : o = none := h
    exact hk x s
  | get next ih => exact ih s h
  | set t next ih =>
    obtain ⟨o', howes, hnext⟩ := h
    exact ⟨o', howes, ih hnext⟩
  | call c next ih => exact ⟨h.1, fun x t => ih x (h.2 x t)⟩

theorem ask {q : Platform κ.recorded → γ} {k : γ → Flow κ.recorded α}
    (h : Heralds o (k (q s.platform)) s) : Heralds o (Flow.ask q >>= k) s :=
  h

theorem see {k : Stage κ.recorded → Flow κ.recorded α} (h : Heralds o (k s) s) :
    Heralds o (get Flow.done >>= k) s :=
  h

/-- The stage is replaced without a word (`Stage.Hushed`). -/
theorem set {next : Flow κ.recorded α} (h : s.Hushed t) (hnext : Heralds o next t) :
    Heralds o (.set t next) s :=
  ⟨o, h.owes o, hnext⟩

/-- The platform changes without a word while a run is owed (`Stage.Hushed`). -/
theorem before {m : Platform κ.recorded → Platform κ.recorded} {k : Unit → Flow κ.recorded α}
    (h : s.platform.Hushed (m s.platform)) (hk : Heralds o (k ()) (s.edit m)) :
    Heralds o (Flow.edit m >>= k) s :=
  set (.edit h) hk

/-- It may also answer something (`Flow.onPlatform`). -/
theorem beforehand {m : Platform κ.recorded → γ × Platform κ.recorded} {k : γ → Flow κ.recorded α}
    (h : s.platform.Hushed (m s.platform).2)
    (hk : Heralds o (k (m s.platform).1) { s with platform := (m s.platform).2 }) :
    Heralds o (Flow.onPlatform m >>= k) s :=
  set (.of_diary h rfl) hk

/-- A start is told, and the run is owed (`Platform.atHand?`). -/
theorem tell (a : Address) {k : Unit → Flow κ.recorded α}
    (hk : Heralds ((s.platform.atHand? a).map (a, ·)) (k ())
      (s.edit (·.publish (.about .actorStarted a)))) :
    Heralds none (Flow.edit (·.publish (.about .actorStarted a)) >>= k) s :=
  ⟨_, .publish a s, hk⟩

theorem onStage {m : Stage κ.recorded → α × Stage κ.recorded} (h : s.Hushed (m s).2) :
    Heralds none (Flow.onStage m) s :=
  set h rfl

theorem modify {m : Stage κ.recorded → Stage κ.recorded} (h : s.Hushed (m s)) :
    Heralds none (Flow.modify m) s :=
  set h rfl

theorem edit {m : Platform κ.recorded → Platform κ.recorded}
    (h : s.platform.Hushed (m s.platform)) : Heralds none (Flow.edit m) s :=
  modify (.edit h)

theorem onPlatform {m : Platform κ.recorded → α × Platform κ.recorded}
    (h : s.platform.Hushed (m s.platform).2) : Heralds none (Flow.onPlatform m) s :=
  onStage (.of_diary h rfl)

theorem invoke {c : Call κ.recorded} : Heralds none (Flow.invoke c) s :=
  ⟨rfl, fun _ _ => rfl⟩

theorem when {f : Flow κ.recorded Unit} (b : Bool) (h : Heralds none f s) :
    Heralds none (Flow.when b f) s := by
  unfold Flow.when
  split
  · exact h
  · exact pure () s

theorem ite {p : Prop} [Decidable p] {g : Flow κ.recorded α} (hf : Heralds o f s)
    (hg : Heralds o g s) : Heralds o (if p then f else g) s := by
  split
  · exact hf
  · exact hg

end Heralds

variable {code : Code κ.recorded}

/-! ## Deliveries -/

theorem deliverAt_heralds (a : Address) (env : Envelope) (transferred : Bool)
    (s : Stage κ.recorded) : Heralds none (deliverAt a env transferred) s := by
  unfold deliverAt
  refine .ask ?_
  split
  · exact .pure _ _
  · refine .bind (.edit (.publish _ (by simp [Event.withEnvelope, Event.about]))) fun _ t => ?_
    split
    · exact .bind (.edit (.look _ a)) fun _ _ => .pure _ _
    · exact .bind (.edit (.of_bus rfl)) fun _ _ => .bind .invoke fun _ _ => .pure _ _

theorem transfer_heralds (router : Address) (env : Envelope) (s : Stage κ.recorded) :
    Heralds none (transfer router env) s := by
  unfold transfer
  refine .bind (.edit (.publish _ (by simp [Event.withEnvelope, Event.about]))) fun _ t => ?_
  refine .ask (.ite (deliverAt_heralds router env true t) ?_)
  exact .bind (.edit (.drop _ env)) fun _ _ => .pure _ _

theorem route_heralds (env : Envelope) (s : Stage κ.recorded) : Heralds none (route env) s := by
  unfold route
  refine .ite (.pure _ _) (.ask ?_)
  split
  · exact transfer_heralds _ env s
  · exact deliverAt_heralds env.target env false s

theorem countM_heralds {f : γ → Flow κ.recorded Bool} (hf : ∀ x s, Heralds none (f x) s)
    (xs : List γ) (s : Stage κ.recorded) : Heralds none (countM f xs) s := by
  induction xs generalizing s with
  | nil => exact .pure _ _
  | cons x xs ih => exact .bind (hf x s) fun b t => .bind (ih t) fun n u => .pure _ _

theorem routeToMembers_heralds (group : String) (source : Address) (message : Message)
    (s : Stage κ.recorded) : Heralds none (routeToMembers group source message) s := by
  unfold routeToMembers
  exact .ask (countM_heralds (fun _ t => route_heralds _ t) _ s)

/-! ## Starting, removing and allocating -/

theorem startAll_heralds (as : List Address) (s : Stage κ.recorded) :
    Heralds none (startAll as) s := by
  induction as generalizing s with
  | nil => exact .pure _ _
  | cons a as ih =>
    unfold startAll
    refine .ask (.ite (.bind .invoke fun x t => ?_) (ih s))
    split
    · exact ih t
    · exact .pure _ _

theorem startTree_heralds (a : Address) (s : Stage κ.recorded) :
    Heralds none (startTree a) s := by
  unfold startTree
  refine .ask (.bind .invoke fun x t => ?_)
  split
  · exact startAll_heralds _ t
  · exact .pure _ _

theorem killFor_heralds (caller target : Address) (s : Stage κ.recorded) :
    Heralds none (killFor code.recorded caller target) s := by
  unfold killFor
  exact .ite (.bind (.modify (.terminate target _)) fun _ _ => .pure _ _) (.pure _ _)

/-! ## Application code -/

theorem exec_heralds (m : Machine κ.recorded) (script : Script κ.recorded)
    (s : Stage κ.recorded) : Heralds none (exec m script) s := by
  unfold exec
  split
  · exact .invoke
  · exact .bind (.edit (.raise _ _ _)) fun _ _ => .pure _ _

theorem onBehalf_heralds (m : Machine κ.recorded) (h : Heralds none f s) :
    Heralds none (onBehalf m f) s :=
  .bind h fun _ _ => .pure _ _

section Hushed

variable (hV : ∀ e, V e → e.kind ≠ .actorStarted)

include hV

theorem answer_heralds (m : Machine κ.recorded) {r : Request κ.recorded}
    (hr : ∀ e, r = .trigger e → V e) (s : Stage κ.recorded) :
    Heralds none (answer code.recorded m r) s := by
  cases r with
  | tell target message => exact .bind (exec_heralds m _ s) fun _ _ => .pure _ _
  | broadcast group message => exact onBehalf_heralds m (routeToMembers_heralds group _ message s)
  | forward env =>
    refine onBehalf_heralds m (.ask (.ite ?_ (deliverAt_heralds env.target env false s)))
    exact .bind (.edit (.drop _ env)) fun _ _ => .pure _ _
  | drop env => exact onBehalf_heralds m (.edit (.drop _ env))
  | receive matcher => exact onBehalf_heralds m (.edit (.look _ _))
  | kill target => exact onBehalf_heralds m (killFor_heralds m.address target s)
  | start target => exact onBehalf_heralds m .invoke
  | exit => exact onBehalf_heralds m (.modify (.terminate m.address s))
  | raise error => exact onBehalf_heralds m (.edit (.raise _ m.address error))
  | runTask task => exact onBehalf_heralds m (.onPlatform (.register _ m.address task))
  | route target => exact onBehalf_heralds m (.edit (.putRoute _ target m.address))
  | unroute target => exact onBehalf_heralds m (.edit (.removeRoute _ target))
  | join group => exact onBehalf_heralds m (.onPlatform (.join _ group m.address))
  | exec script => exact exec_heralds m script s
  | spawn template =>
    refine onBehalf_heralds m (.bind (.onStage (.allocate m.address template s)) fun x t => ?_)
    split
    · exact .pure _ _
    · refine .bind (startTree_heralds _ t) fun y u => ?_
      split
      · exact .pure _ _
      · exact .pure _ _
  | alloc template => exact onBehalf_heralds m (.onStage (.allocate m.address template s))
  | trigger e => exact onBehalf_heralds m (.edit (.publish _ (hV e (hr e rfl))))
  | stop => exact onBehalf_heralds m (.edit (.of_bus rfl))

/-- **Application code** (`Flow.serve`) whose own state is left to it. -/
theorem serve_heralds {act : Act κ.recorded α} (hact : act.Publishes V) (m : Machine κ.recorded)
    (s : Stage κ.recorded) (hkeeps : act.Keeps SameDiary s.world) :
    Heralds none (serve code.recorded act m) s := by
  induction act generalizing m s with
  | done x => exact .pure _ _
  | ask r next ih =>
    exact .bind (answer_heralds hV m hact.1 s) fun x t =>
      ih x.1 (hact.2 x.1) x.2 t (hkeeps x.1 t.world)
  | look next ih => exact ih s.platform s.world (hact _ _) m s (hkeeps s.platform)
  | put w next ih =>
    exact .set (.of_diary (.of_bus rfl) hkeeps.1) (ih hact m { s with world := w } hkeeps.2)

/-- **A hook** begins with an entry in the diary, and ends with one (`Code.recorded`). -/
theorem hook_heralds (hpub : code.Publishes V) (m : Machine κ.recorded) (hook : Hook)
    (actor : κ.recorded.Actor) (b : Address) (s : Stage κ.recorded)
    (hbegin : s.Owes o none
      (s.note actor.2 (.began hook b ((s.platform.generation? b).getD 0)))) :
    Heralds o (serve code.recorded (code.recorded.hook actor hook b) m) s := by
  let t := s.note actor.2 (.began hook b ((s.platform.generation? b).getD 0))
  have hcode : Heralds none (serve code.recorded (code.hook actor hook b).keeping m) t :=
    serve_heralds hV (Act.keeping_publishes (hpub.1 actor hook b)) m t (Act.keeping_keeps _ _)
  show Heralds o (.set _ (serve code.recorded ((code.hook actor hook b).keeping.bind _) m)) s
  rw [serve_bind]
  exact ⟨none, hbegin, .bind hcode fun x t => .set (.note fun _ => rfl) rfl⟩

/-! ## Lending and giving back -/

omit hV in
theorem checkOut_heralds (a : Address) (s : Stage κ.recorded) : Heralds none (checkOut a) s :=
  .onPlatform (.of_bus rfl)

omit hV in
theorem checkIn_heralds (m : Machine κ.recorded) (s : Stage κ.recorded) :
    Heralds none (checkIn m) s := by
  refine .edit ?_
  split
  · exact .enqueue _ _
  · exact .of_bus rfl

/-- An actor that acts on a message (`Flow.act`). -/
theorem act_heralds (hpub : code.Publishes V) (m : Machine κ.recorded) {hook : Hook}
    (hhook : hook ≠ .run) (s : Stage κ.recorded) : Heralds none (act code.recorded m hook) s := by
  have hruns (a b : Address) (g : Nat) : (Deed.began hook b g).runs a = [] := by
    cases hook with
    | run => exact absurd rfl hhook
    | accept | receive => rfl
  unfold act
  refine .see ?_
  split
  · refine .ite (.pure _ _) (.bind (.edit (.of_bus rfl)) fun _ t => ?_)
    refine .bind (hook_heralds hV hpub m hook _ _ t ?_) fun x u => ?_
    · exact (Stage.Hushed.note fun a => hruns a _ _).owes none
    · refine .bind (.modify ?_) fun _ _ => .pure _ _
      split
      · exact .edit (.of_bus rfl)
      · exact ⟨.of_bus rfl, fun a => runs_of_cons rfl⟩
  · exact .pure _ _

theorem actAt_heralds (hpub : code.Publishes V) (a : Address) {hook : Hook} (hhook : hook ≠ .run)
    (s : Stage κ.recorded) : Heralds none (actAt code.recorded a hook) s := by
  unfold actAt
  refine .bind (checkOut_heralds a s) fun m t => ?_
  split
  · exact .pure _ _
  · exact .bind (act_heralds hV hpub _ hhook t) fun x u =>
      .bind (checkIn_heralds _ u) fun _ _ => .pure _ _

/-- An actor that is at hand begins to act on being started, as it is owed (`Hook.run`). -/
theorem act_run_heralds (hpub : code.Publishes V) {a : Address} {c : Context κ.recorded}
    {m : Machine κ.recorded} (hm : m.AtRest a c.generation) (s : Stage κ.recorded)
    (hc : s.platform.context? a = some c) :
    Heralds (c.actor.map fun _ => (a, c.generation)) (act code.recorded m .run) s := by
  obtain ⟨rfl, hgen, -, -, -⟩ := hm
  unfold act
  refine .see ?_
  rw [hc]
  obtain ⟨_, g, _ | actor, _, _, _, _, _, _⟩ := c
  · exact .pure _ _
  · have hsame : ¬ g ≠ m.generation := not_not.mpr hgen.symm
    dsimp only
    rw [if_neg hsame]
    let t : Stage κ.recorded :=
      s.edit (·.modifyContext m.address fun c => { c with actor := none })
    have hg : t.platform.generation? m.address = some g := by
      have hsame : t.platform.generation? m.address = s.platform.generation? m.address :=
        generation?_modifyContext fun _ => rfl
      exact hsame.trans (congrArg (Option.map _) hc)
    have hhook : Heralds (some (m.address, g)) (serve code.recorded
        (code.recorded.hook actor .run m.address) m) t := by
      refine hook_heralds hV hpub m .run actor m.address t ?_
      rw [hg]
      exact .begin _ _ _ _
    refine .before (.of_bus rfl) (.bind hhook fun x u => .bind (.modify ?_) fun _ _ => .pure _ _)
    split
    · exact .edit (.of_bus rfl)
    · exact ⟨.of_bus rfl, fun a => runs_of_cons rfl⟩

/-- If its machine is at hand, too (`Flow.actAt`). -/
theorem actAt_run_heralds (hpub : code.Publishes V) (a : Address) (s : Stage κ.recorded)
    (hm : s.platform.MachineInv) :
    Heralds ((s.platform.atHand? a).map (a, ·)) (actAt code.recorded a .run) s := by
  unfold actAt checkOut
  refine .beforehand (.of_bus rfl) ?_
  cases hc : s.platform.context? a with
  | none =>
    have hnone : s.platform.atHand? a = none := by
      unfold atHand?
      rw [hc]
      rfl
    rw [hnone]
    exact .pure _ _
  | some c =>
    cases hmachine : c.machine with
    | none =>
      rw [atHand?_busy hc (by simp [Context.isIdle, hmachine])]
      simp only [Option.bind_some, hmachine]
      exact .pure _ _
    | some m =>
      simp only [Option.bind_some, hmachine]
      have hout : (s.platform.modifyContext a fun c => { c with machine := none }).context? a =
          some { c with machine := none } :=
        (context?_modifyContext _).trans ((if_pos rfl).trans (congrArg (Option.map _) hc))
      have hact := act_run_heralds hV hpub (c := { c with machine := none }) (hm a c m hc hmachine)
        (s.edit (·.modifyContext a fun c => { c with machine := none })) hout
      have howed : (s.platform.atHand? a).map (a, ·) = c.actor.map fun _ => (a, c.generation) := by
        cases hactor : c.actor with
        | none => rw [atHand?_busy hc (by simp [Context.isIdle, hactor])]; rfl
        | some x => rw [atHand?_idle hc (by simp [Context.isIdle, hactor, hmachine])]; rfl
      rw [howed]
      exact .bind hact fun x u => .bind (checkIn_heralds _ u) fun _ _ => .pure _ _

/-- **An actor is started** (`Flow.startActor`): this is told, and if it is at hand it acts on that
next. -/
theorem startActor_heralds (hpub : code.Publishes V) (a : Address) (s : Stage κ.recorded)
    (hm : s.platform.MachineInv) : Heralds none (startActor code.recorded a) s := by
  unfold startActor
  refine .ask ?_
  split
  · exact .pure _ _
  · let t : Stage κ.recorded := s.edit (·.publish (.about .actorStarted a))
    have hact : Heralds ((s.platform.atHand? a).map (a, ·)) (actAt code.recorded a .run) t :=
      actAt_run_heralds hV hpub a t (hm.congr fun _ => rfl)
    refine .tell a (.bind hact fun x u => .bind .invoke fun _ v => ?_)
    split
    · exact .bind (.edit (.raise _ a _)) fun _ _ => .pure _ _
    · exact .pure _ _

theorem flushBacklog_heralds (hpub : code.Publishes V) (a : Address) (s : Stage κ.recorded) :
    Heralds none (flushBacklog code.recorded a) s := by
  unfold flushBacklog
  refine .ask ?_
  split
  · exact .pure _ _
  · rename_i env p htake
    refine .bind (.edit (.takeBacklog htake)) fun _ t => ?_
    refine .bind (actAt_heralds hV hpub a (by simp) t) fun x u => ?_
    split
    · exact .bind (.edit (.raise _ a _)) fun _ _ => .invoke
    · exact .invoke

/-! ## Scripts -/

theorem readMail_heralds (hpub : code.Publishes V) (m : Machine κ.recorded)
    (s : Stage κ.recorded) : Heralds none (readMail code.recorded m) s := by
  unfold readMail
  refine .ask (.ite (.bind (.edit (.look _ _)) fun _ _ => .pure _ _) ?_)
  split
  · exact .pure _ _
  · rename_i hit p htake
    have htaken : Hushed s.platform (p.publish (Event.withEnvelope
        { kind := .messageReceived, address := some m.address, reason := some hit.tag }
        hit.envelope)) :=
      (Platform.Hushed.takeMatch htake).trans (.publish _ (by simp [Event.withEnvelope]))
    refine .bind (.edit htaken) fun _ t => .bind (act_heralds hV hpub m (by simp) t) fun x u => ?_
    have rest (u : Stage κ.recorded) : Heralds none (Flow.when hit.temporary
        (Flow.modify (Stage.terminate code.recorded x.2.address)) >>= fun _ =>
          pure (Met.push (κ := κ.recorded) (.int 1), x.2)) u :=
      .bind (.when _ (.modify (.terminate _ u))) fun _ _ => .pure _ _
    dsimp only
    split
    · exact .bind (.edit (.raise _ _ _)) fun _ v => rest v
    · exact rest u

theorem meet_heralds (hpub : code.Publishes V) (m : Machine κ.recorded) (d : Demand κ.recorded)
    (s : Stage κ.recorded) : Heralds none (meet code.recorded m d) s := by
  cases d with
  | allocate template =>
    refine onBehalf_heralds m (.bind (.onStage (.allocate m.address template s)) fun x t => ?_)
    split
    · exact .pure _ _
    · exact .pure _ _
  | start target => exact onBehalf_heralds m (.bind .invoke fun _ _ => .pure _ _)
  | send target message =>
    exact onBehalf_heralds m (.bind (route_heralds _ s) fun _ _ => .pure _ _)
  | drop target message =>
    exact onBehalf_heralds m (.bind (.edit (.drop _ _)) fun _ _ => .pure _ _)
  | arm matcher => exact onBehalf_heralds m (.bind (.edit (.look _ _)) fun _ _ => .pure _ _)
  | countReceivers => exact onBehalf_heralds m (.ask (.pure _ _))
  | countMail => exact onBehalf_heralds m (.ask (.pure _ _))
  | takeMail =>
    refine onBehalf_heralds m (.bind (.onPlatform (.of_bus rfl)) fun x t => ?_)
    split
    · exact .pure _ _
    · exact .pure _ _
  | read => exact readMail_heralds hV hpub m s
  | discardMail =>
    exact onBehalf_heralds m (.bind (.edit (.discard _ _)) fun _ _ => .pure _ _)
  | kill target =>
    exact onBehalf_heralds m (.bind (killFor_heralds _ target s) fun _ _ => .pure _ _)
  | route target =>
    exact onBehalf_heralds m (.bind (.edit (.putRoute _ target _)) fun _ _ => .pure _ _)
  | unroute target =>
    exact onBehalf_heralds m (.bind (.edit (.removeRoute _ target)) fun _ _ => .pure _ _)
  | foreign f args =>
    have hcode : Heralds none (serve code.recorded (code.recorded.foreign f args m.address) m) s :=
      serve_heralds hV (Act.keeping_publishes (hpub.2 _ _ _)) m s (Act.keeping_keeps _ _)
    refine .bind hcode fun x t => ?_
    dsimp only
    split
    · exact .pure _ _
    · exact .pure _ _

omit hV in
theorem leaveFrame_heralds (m : Machine κ.recorded) (base : Nat) (s : Stage κ.recorded) :
    Heralds none (leaveFrame m base) s := by
  unfold leaveFrame
  exact .ite (.pure _ _) .invoke

omit hV in
theorem failScript_heralds (m : Machine κ.recorded) (base : Nat) (e : ActorError)
    (s : Stage κ.recorded) : Heralds none (failScript m base e) s :=
  .bind (.edit (.raise _ _ e)) fun _ _ => .pure _ _

omit hV in
theorem goOn_heralds (m : Machine κ.recorded) (base : Nat) (met : Met κ.recorded)
    (s : Stage κ.recorded) : Heralds none (goOn m base met) s := by
  cases met with
  | nothing => exact .invoke
  | halt => exact .pure _ _
  | failed e => exact failScript_heralds m base e s
  | push v =>
    unfold goOn
    dsimp only
    split
    · exact .invoke
    · exact failScript_heralds m base _ s

theorem carryOut_heralds (hpub : code.Publishes V) (m : Machine κ.recorded) (base : Nat)
    (i : Instr) (s : Stage κ.recorded) : Heralds none (carryOut code.recorded m base i) s := by
  unfold carryOut
  split
  · exact failScript_heralds m base _ s
  · exact .invoke
  · exact .bind (meet_heralds hV hpub _ _ s) fun x t => goOn_heralds x.2 base x.1 t

theorem runMachine_heralds (hpub : code.Publishes V) (m : Machine κ.recorded) (base : Nat)
    (s : Stage κ.recorded) : Heralds none (runMachine code.recorded m base) s := by
  unfold runMachine
  refine .ask (.ite (.pure _ _) (.ite (.pure _ _) ?_))
  split
  · exact leaveFrame_heralds m base s
  · refine .bind (.when _ (.edit (.publish _ (by simp)))) fun _ t => ?_
    exact .ite (leaveFrame_heralds _ base t) (carryOut_heralds hV hpub _ base _ t)

/-! ## Working off queues and tasks -/

omit hV in
theorem runSlot_heralds (a : Address) (slot : Slot κ.recorded) (s : Stage κ.recorded) :
    Heralds none (runSlot a slot) s := by
  unfold runSlot
  refine .ask (.ite (.pure _ _) (.bind (checkOut_heralds a s) fun m t => ?_))
  split
  · exact .bind (.edit (.of_bus rfl)) fun _ _ => .pure _ _
  · refine .bind (exec_heralds _ _ t) fun x u => .bind (checkIn_heralds _ u) fun _ _ => ?_
    exact .bind .invoke fun _ _ => .pure _ _

omit hV in
theorem restart_heralds (r : Raised κ.recorded) (s : Stage κ.recorded) :
    Heralds none (restart code.recorded r) s := by
  unfold restart
  refine .ask ?_
  split
  · exact .pure _ _
  · refine .bind (.modify (.terminate _ s)) fun _ t => ?_
    refine .bind (.onStage (.allocate _ _ t)) fun x u => ?_
    split
    · exact .pure _ _
    · refine .bind (.edit (.publish _ (by simp))) fun _ v => ?_
      exact .bind (startTree_heralds _ v) fun _ _ => .pure _ _

omit hV in
theorem supervise_heralds (r : Raised κ.recorded) (s : Stage κ.recorded) :
    Heralds none (supervise code.recorded r) s := by
  unfold supervise
  refine .bind (.onStage (.judge r _ s)) fun x t => ?_
  split
  · exact .pure _ _
  · exact restart_heralds r t
  · exact .modify (.terminate r.source t)
  · exact .edit (.publish _ (by simp))

omit hV in
theorem drainQueues_heralds (s : Stage κ.recorded) :
    Heralds none (drainQueues code.recorded) s := by
  unfold drainQueues
  refine .ask (.ite (.pure _ _) ?_)
  split
  · refine .bind (.edit (.of_bus rfl)) fun _ t => ?_
    exact .bind (supervise_heralds _ t) fun _ u => .invoke
  · split
    · exact .pure _ _
    · rename_i p hturn
      exact .bind (.edit (.skip hturn)) fun _ t => .invoke
    · rename_i a slot p hturn
      refine .bind (.edit (.begin hturn)) fun _ t => .bind (runSlot_heralds a slot t) ?_
      exact fun deferred u => .bind (.edit (.endTurn _ a deferred)) fun _ v => .invoke

omit hV in
theorem settleTask_heralds (id : Nat) (outcome : Outcome) (s : Stage κ.recorded) :
    Heralds none (settleTask id outcome) s := by
  unfold settleTask
  refine .bind (.onPlatform (.settle _ id outcome)) fun owner t => ?_
  split
  · exact .pure _ _
  · split
    · exact .pure _ _
    · exact .bind (route_heralds _ t) fun _ _ => .pure _ _
    · exact .edit (.raise _ _ _)

omit hV in
theorem finishRun_heralds (reason : String) (s : Stage κ.recorded) :
    Heralds none (finishRun reason) s := by
  unfold finishRun
  refine .bind (.edit (.publish _ (by simp))) fun _ t => .ask ?_
  split
  · exact .pure _ _
  · exact .pure _ _

omit hV in
theorem awaitTask_heralds (polled : Nat) (s : Stage κ.recorded) :
    Heralds none (awaitTask code.recorded polled) s := by
  unfold awaitTask
  refine .see ?_
  split
  · exact .pure _ _
  · rename_i id task rest _
    split
    · exact .pure _ _
    refine .bind (.modify (.of_diary (.of_bus rfl) (code.recorded_poll s.world task))) fun _ t => ?_
    split
    · exact .bind (.edit (.of_bus rfl)) fun _ _ => .pure _ _
    · refine .bind (.edit (.of_bus rfl)) fun _ u => .ite ?_ .invoke
      exact .bind (.modify (.pause u)) fun _ v => .invoke

omit hV in
theorem runLoop_heralds (s : Stage κ.recorded) : Heralds none (runLoop (κ := κ.recorded)) s := by
  unfold runLoop
  refine .bind .invoke fun _ t => .ask ?_
  refine .ite (finishRun_heralds _ t) (.ite (finishRun_heralds _ t) ?_)
  refine .bind .invoke fun x u => ?_
  split
  · exact finishRun_heralds _ u
  · exact .bind (.edit (.of_bus rfl)) fun _ v => finishRun_heralds _ v
  · exact .bind (settleTask_heralds _ _ u) fun _ _ => .invoke

/-- **Every body** (`Flow.body`) owes nothing in the end, and whenever it calls something. -/
theorem body_heralds (hpub : code.Publishes V) (c : Call κ.recorded) (s : Stage κ.recorded)
    (hm : s.platform.MachineInv) : Heralds none (body code.recorded c) s := by
  cases c with
  | resume m base => exact runMachine_heralds hV hpub m base s
  | start a => exact startActor_heralds hV hpub a s hm
  | flush a => exact flushBacklog_heralds hV hpub a s
  | drain => exact drainQueues_heralds s
  | await polled => exact awaitTask_heralds polled s
  | run => exact runLoop_heralds s

/-- **A step** (`Flow.Advance`) leaves owed what was told and has not begun. -/
theorem Advance.heralds (hpub : code.Publishes V) {g : Flow κ.recorded α}
    (h : Advance (body code.recorded) (f, s) (g, t)) (hm : s.platform.MachineInv)
    (hf : Heralds o f s) : ∃ o', s.Owes o o' t ∧ Heralds o' g t := by
  cases h with
  | get => exact ⟨o, (Stage.Hushed.refl s).owes o, hf⟩
  | set => exact hf
  | call =>
    obtain ⟨rfl, hnext⟩ := hf
    exact ⟨none, (Stage.Hushed.refl s).owes none, .bind (body_heralds hV hpub _ s hm) hnext⟩

end Hushed

end Flow

/-! ## Operations -/

namespace Operation

variable {α : Type} {code : Code κ.recorded} {f : Flow κ.recorded α} {s : Stage κ.recorded}

theorem thenDrain_heralds (h : Heralds none f s) : Heralds none (thenDrain f) s :=
  .bind h fun _ _ => .bind .invoke fun _ _ => .pure _ _

theorem spawnUnder_heralds (parent : Address) (t : Template κ.recorded) :
    Heralds none (spawnUnder code.recorded parent t) s := by
  unfold spawnUnder
  refine .bind (.onStage (.allocate parent t s)) fun x u => ?_
  split
  · exact .pure _ _
  · refine thenDrain_heralds (.bind (startTree_heralds _ u) fun y v => ?_)
    split
    · exact .pure _ _
    · exact .pure _ _

/-- **Every operation** (`Operation.Public`) owes nothing in the end. -/
theorem Public.heralds (hf : Public code.recorded f) (hpub : Publishes V f)
    (hV : ∀ e, V e → e.kind ≠ .actorStarted) : Heralds none f s := by
  cases hf with
  | spawn t => exact spawnUnder_heralds .root t
  | spawnUnder parent t => exact spawnUnder_heralds parent t
  | allocate parent t => exact .onStage (.allocate parent t s)
  | runActor a => exact thenDrain_heralds .invoke
  | exec a script =>
    unfold Operation.exec
    refine .ask ?_
    split
    · exact .pure _ _
    · exact thenDrain_heralds (.bind (.edit (.schedule _ a _ _)) fun _ _ => .pure _ _)
  | eval a script =>
    unfold Operation.eval
    refine .ask (.ite (.pure _ _) (.bind (checkOut_heralds a s) fun m t => ?_))
    split
    · exact .pure _ _
    · refine thenDrain_heralds (.bind (exec_heralds _ script t) fun x u => ?_)
      refine .bind (checkIn_heralds _ u) fun _ _ => ?_
      exact .bind .invoke fun _ _ => .pure _ _
  | send target source message => exact thenDrain_heralds (route_heralds _ s)
  | tellFrom target source message =>
    refine thenDrain_heralds (.bind (route_heralds _ s) fun sent t => ?_)
    exact .bind (.when _ (.edit (.drop _ _))) fun _ _ => .pure _ _
  | tell target message =>
    refine thenDrain_heralds (.bind (route_heralds _ s) fun sent t => ?_)
    exact .bind (.when _ (.edit (.drop _ _))) fun _ _ => .pure _ _
  | broadcastFrom group source message =>
    exact thenDrain_heralds (routeToMembers_heralds group source message s)
  | broadcast group message =>
    exact thenDrain_heralds (routeToMembers_heralds group .discard message s)
  | dropMessage env => exact .edit (.drop _ env)
  | kill target => exact thenDrain_heralds (.modify (.terminate target s))
  | raise a e => exact thenDrain_heralds (.edit (.raise _ a e))
  | putRoute target router => exact .edit (.putRoute _ target router)
  | removeRoute target => exact .edit (.removeRoute _ target)
  | putMember group a => exact .onPlatform (.join _ group a)
  | removeMember group a => exact .onPlatform (.part _ group a)
  | trigger e => exact .edit (.publish _ (hV e (hpub e _ rfl)))
  | stop => exact .edit (.of_bus rfl)
  | run => exact .invoke

end Operation

/-! ## The life of a platform -/

namespace Moment

variable {code : Code κ.recorded} {m : Moment κ.recorded} {h : List (Stage κ.recorded)}

/-- What is left of an operation is told and begun as it should be, while a run is owed
(`Flow.Heralds`). -/
def Heralds (o : Option (Address × Nat)) : Moment κ.recorded → Prop
  | between _ => o = none
  | amid f s => Flow.Heralds o f s

/-- **At every moment** the starts that were told to actors at hand (`summons`) are the runs that
were begun, and the one that is owed. -/
theorem Recorded.heralded (hp : Recorded code V m h) (hpub : code.Publishes V)
    (hV : ∀ e, V e → e.kind ≠ .actorStarted) :
    ∃ o, m.Heralds o ∧ ∀ a, tally (summons a) (m.stage :: h) =
      Diary.runs a m.stage.world.2 ++ owed a o := by
  induction hp with
  | new config trap subs hw =>
    refine ⟨none, rfl, fun a => ?_⟩
    show [] = Diary.runs a (Stage.new config trap subs _).world.2 ++ []
    rw [new_world, hw]
    rfl
  | @next m m' h hp hnext hfair ih =>
    obtain ⟨o, ho, htally⟩ := ih
    have hon {o'} (howes : m.stage.Owes o o' m'.stage) (a : Address) :
        tally (summons a) (m'.stage :: m.stage :: h) =
          Diary.runs a m'.stage.world.2 ++ owed a o' :=
      (congrArg (· ++ summons a m.stage m'.stage) (htally a)).trans (howes a)
    cases hnext with
    | begin hf =>
      obtain rfl : o = none := ho
      exact ⟨none, hf.heralds hfair hV, hon ((Stage.Hushed.refl _).owes none)⟩
    | advance hstep =>
      have hi := (Past.reach hp).ok.inv
      obtain ⟨o', howes, hg⟩ := hstep.heralds hV hpub hi.machines ho
      exact ⟨o', hg, hon howes⟩
    | back => exact ⟨o, ho, hon ((Stage.Hushed.refl _).owes o)⟩
    | @meanwhile s bus w listener =>
      obtain ⟨hdiary, hbus⟩ := hfair
      refine ⟨o, ho, hon ((Stage.Hushed.of_diary (.reports ?_) hdiary).owes o)⟩
      exact hbus.mono fun e => Or.imp id (hV e)

end Moment

end Troupe
