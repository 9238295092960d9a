import Troupe.Operations
import Troupe.Proofs.Flow.Activities

/-!
# Operations from outside

`Operation.Public` lists the operations that a platform offers to the outside. Begun on a calm
platform (`Platform.Calm`), each leaves it calm: most do clean work and then drain the platform
(`thenDrain_tidy`), and the others set nothing going (`record_meets`). A script that is run past the
queues (`eval`) gives its machine back (`evaluate_meets`).

`Operation.Publishes V f` says of what the operation itself publishes that `V` is true.

Headlines:
* **`Operation.Public.rounds`**: operations leave the platform settled, and drained unless it is
  stopped; only the main loop settles tasks.
* **`Operation.Public.meets`**: so each operation keeps to the discipline (`Flow.discipline`).
-/

namespace Troupe

variable {κ : App} {α : Type}

open Platform Troupe.Flow

/-! ## What is offered -/

/-- The operations that a platform offers to the outside. -/
inductive Operation.Public (code : Code κ) : {α : Type} → Flow κ α → Prop
  | spawn (t : Template κ) : Public code (spawn code t)
  | spawnUnder (parent : Address) (t : Template κ) : Public code (spawnUnder code parent t)
  | allocate (parent : Address) (t : Template κ) : Public code (allocate code parent t)
  | runActor (a : Address) : Public code (runActor a)
  | exec (a : Address) (script : Script κ) : Public code (exec a script)
  | eval (a : Address) (script : Script κ) : Public code (eval a script)
  | send (target source : Address) (message : Message) : Public code (send target source message)
  | tellFrom (target source : Address) (message : Message) :
      Public code (tellFrom target source message)
  | tell (target : Address) (message : Message) : Public code (tell target message)
  | broadcastFrom (group : String) (source : Address) (message : Message) :
      Public code (broadcastFrom group source message)
  | broadcast (group : String) (message : Message) : Public code (broadcast group message)
  | dropMessage (env : Envelope) : Public code (dropMessage env)
  | kill (target : Address) : Public code (kill code target)
  | raise (a : Address) (e : ActorError) : Public code (raise a e)
  | putRoute (target router : Address) : Public code (putRoute target router)
  | removeRoute (target : Address) : Public code (removeRoute target)
  | putMember (group : String) (a : Address) : Public code (putMember group a)
  | removeMember (group : String) (a : Address) : Public code (removeMember group a)
  | trigger (e : Event) : Public code (trigger e)
  | stop : Public code stop
  | run : Public code run

/-! ## Each operation -/

namespace Operation

variable {code : Code κ} {s t : Stage κ} {f : Flow κ α} {V : Event → Prop}

/-- Recording something (`onStage`) is upkeep. -/
theorem record_meets {f : Stage κ → α × Stage κ} (h : s.platform.Calm)
    (hu : Upkeep s.platform (f s).2.platform) :
    Meets (discipline V) (WithinRounds V) (onStage f) (fun _ t => t.platform.Calm) s :=
  ⟨hu.nested.rounds, fun _ => h.upkeep hu⟩

theorem edit_meets {f : Platform κ → Platform κ} (h : s.platform.Calm)
    (hu : Upkeep s.platform (f s.platform)) :
    Meets (discipline V) (WithinRounds V) (edit f) (fun _ t => t.platform.Calm) s :=
  ⟨hu.nested.rounds, fun _ => h.upkeep hu⟩

/-- Whatever leaves the platform settled may be done before draining it (`Operation.thenDrain`). -/
theorem thenDrain_meets
    (hf : Meets (discipline V) (WithinRounds V) f (fun _ t => t.platform.Settled) s) :
    Meets (discipline V) (WithinRounds V) (thenDrain f) (fun _ t => t.platform.Calm) s := by
  unfold thenDrain
  rw [meets_bind]
  refine hf.mono (fun _ _ h => h) fun x t ht => ?_
  refine (meets_bind _ _ _).mpr ((drain_meets ht).mono (fun _ _ h => h) fun _ _ hu => ?_)
  exact hu

/-- Clean work (`Tidy`) leaves the platform settled. -/
theorem thenDrain_tidy {Q : α → Stage κ → Prop} (hi : s.platform.Inv) (hs : s.platform.Settled)
    (hf : Tidy OnSound V f Q s) :
    Meets (discipline V) (WithinRounds V) (thenDrain f) (fun _ t => t.platform.Calm) s :=
  thenDrain_meets ((hf.rounds hi).mono (fun _ _ h => h) fun _ _ h => hs.clean h.1)

theorem spawnUnder_meets (parent : Address) (t : Template κ) (hi : s.platform.Inv)
    (h : s.platform.Calm) :
    Meets (discipline V) (WithinRounds V) (spawnUnder code parent t)
      (fun _ t => t.platform.Calm) s := by
  have hup := Stage.allocate_upkeep code parent t s hi.table
  unfold spawnUnder
  rw [meets_bind, meets_onStage]
  refine ⟨hup.nested.rounds, fun hi₁ => ?_⟩
  have h₁ : (Stage.allocate code parent t s).2.platform.Calm := h.upkeep hup
  split
  · exact h₁
  · refine thenDrain_tidy (Q := fun _ _ => True) hi₁ h₁.settled ?_
    refine .bind (startTree_tidy _ _) fun x u _ _ => ?_
    split
    · exact .pure trivial
    · exact .pure trivial

theorem exec_meets (a : Address) (script : Script κ) (h : s.platform.Calm) :
    Meets (discipline V) (WithinRounds V) (exec a script) (fun _ t => t.platform.Calm) s := by
  unfold exec
  rw [meets_bind, meets_ask]
  split
  · exact h
  · rename_i g hg
    have hturn : Turning s.platform (s.platform.schedule a g (.script script)) :=
      .schedule script (generation?_eq_some.mp hg)
    have hs : (s.platform.schedule a g (.script script)).Settled := by
      obtain ⟨_, _, _, he⟩ := schedule_eq s.platform a g (.script script)
      rw [he] at hturn ⊢
      exact h.settled.turning hturn rfl ⟨rfl, rfl, rfl, rfl, .refl _⟩
    refine thenDrain_meets ?_
    rw [meets_bind, meets_edit]
    exact ⟨hturn.rounds, fun _ => hs⟩

/-- A script that is run past the queues (`Operation.eval`) gives its machine back. -/
theorem evaluate_meets {a : Address} {c : Context κ} {m : Machine κ} (script : Script κ)
    (hc : s.platform.context? a = some c) (hm : m.AtRest a c.generation) (hi : t.platform.Inv)
    (ht : t.platform = s.platform.modifyContext a fun c => { c with machine := none }) :
    Meets (discipline V) (WithinNested V)
      (Flow.exec m script >>= fun x => checkIn x.2 >>= fun _ => invoke (.flush a) >>= fun _ =>
        pure (.ok x.1 : Except PlatformError (Option (Value κ))))
      (fun _ u => Clean V s.platform u.platform) t := by
  refine meets_borrow (P := fun _ _ => True) hc hm (fun _ _ h => h) hi ht
    (((exec_tidy m script t).mono fun _ _ _ h => ⟨h, trivial⟩).relax fun _ _ he =>
      he.grown.sound hm.sound) fun x u v hclean _ _ hi' => ?_
  have hflush : Tidy OnSound V (invoke (.flush a) >>= fun _ => pure (.ok x.1 :
      Except PlatformError (Option (Value κ)))) (fun _ _ => True) v :=
    .bind (.flush a) fun _ _ _ _ => .pure trivial
  exact (hflush hi').mono (fun _ _ h => h) fun _ w hvw => hclean.trans hvw.1

theorem eval_meets (a : Address) (script : Script κ) (hi : s.platform.Inv) (h : s.platform.Calm) :
    Meets (discipline V) (WithinRounds V) (eval a script) (fun _ t => t.platform.Calm) s := by
  unfold eval
  rw [meets_bind, meets_ask]
  split
  · exact h
  · rw [meets_bind]
    refine meets_checkOut hi (fun _ h => Nested.rounds h) (fun hno t _ ht => ?_)
      fun c m hc hm t hi' ht => ?_
    · exact h.still (ht ▸ loan_clean (V := V) hno) (ht ▸ ⟨rfl, rfl, rfl⟩)
    · refine thenDrain_meets ?_
      exact (evaluate_meets script hc hm hi' ht).mono (fun _ _ => Nested.rounds) fun _ _ hclean =>
        h.settled.clean hclean

theorem tellFrom_meets (target source : Address) (message : Message) (hi : s.platform.Inv)
    (h : s.platform.Calm) :
    Meets (discipline V) (WithinRounds V) (tellFrom target source message)
      (fun _ t => t.platform.Calm) s := by
  refine thenDrain_tidy (Q := fun _ _ => True) hi h.settled ?_
  refine .bind (route_tidy ⟨target, source, message⟩ s) fun sent t _ _ => ?_
  exact .bind (.when (.step (.publish rfl))) fun _ _ _ _ => .pure trivial

theorem broadcastFrom_meets (group : String) (source : Address) (message : Message)
    (hi : s.platform.Inv) (h : s.platform.Calm) :
    Meets (discipline V) (WithinRounds V) (broadcastFrom group source message)
      (fun _ t => t.platform.Calm) s :=
  thenDrain_tidy hi h.settled (routeToMembers_tidy group source message s)

/-- If the operation is to publish an event, `V` is true of that. -/
def Publishes (V : Event → Prop) (f : Flow κ α) : Prop :=
  ∀ e next, f = .get (fun s => .set (s.edit (·.publish e)) next) → V e

theorem publishes_any (f : Flow κ α) : Publishes Event.Any f :=
  fun _ _ _ => trivial

/-- **Operations** (`Operation.Public`) leave the platform settled, and drained unless it is
stopped. Only the main loop settles tasks. -/
theorem Public.rounds (hf : Public code f) (hpub : Publishes V f) (hi : s.platform.Inv)
    (h : s.platform.Calm) :
    Meets (discipline V) (WithinRounds V) f (fun _ t => t.platform.Calm) s ∨
      (Meets (discipline V) (WithinOuter V) f (fun _ t => t.platform.Calm) s ∧
        ∃ g : Except PlatformError Unit → α, f = .call .run fun x => .done (g x)) := by
  cases hf
  case run => exact Or.inr ⟨⟨h.settled, fun _ h => h, fun _ _ _ _ hg => hg.1⟩, id, rfl⟩
  all_goals left
  case spawn t => exact spawnUnder_meets .root t hi h
  case spawnUnder parent t => exact spawnUnder_meets parent t hi h
  case allocate parent t =>
    exact record_meets h (Stage.allocate_upkeep code parent t s hi.table)
  case runActor a => exact thenDrain_tidy hi h.settled (.start a)
  case exec a script => exact exec_meets a script h
  case eval a script => exact eval_meets a script hi h
  case send target source message => exact thenDrain_tidy hi h.settled (route_tidy _ s)
  case tellFrom target source message => exact tellFrom_meets target source message hi h
  case tell target message => exact tellFrom_meets target .discard message hi h
  case broadcastFrom group source message =>
    exact broadcastFrom_meets group source message hi h
  case broadcast group message => exact broadcastFrom_meets group .discard message hi h
  case dropMessage env => exact edit_meets h (.publish _ rfl)
  case kill target => exact thenDrain_tidy hi h.settled (terminate_tidy code target s)
  case raise a e => exact thenDrain_tidy hi h.settled (.step (.raise a e))
  case putRoute target router => exact edit_meets h (.putRoute _ target router)
  case removeRoute target => exact edit_meets h (.removeRoute _ target)
  case putMember group a => exact record_meets h (.join _ group a)
  case removeMember group a =>
    have hturn : Turning s.platform (s.platform.removeMember group a).2 := .part group a
    refine ⟨hturn.rounds, fun _ => ?_⟩
    obtain ⟨_, he⟩ := removeMember_eq s.platform group a
    show (s.platform.removeMember group a).2.Calm
    rw [he] at hturn ⊢
    refine ⟨h.settled.turning hturn rfl ⟨rfl, rfl, rfl, rfl, .refl _⟩, ?_⟩
    exact h.drained.imp (fun hp => hp) fun hd => hd.still ⟨rfl, rfl, rfl⟩
  case trigger e =>
    have he : Announce V s.platform (s.platform.publish e) := .publish (hpub e _ rfl)
    exact ⟨he.nested.rounds, fun _ => h.still he.clean ⟨rfl, rfl, rfl⟩⟩
  case stop =>
    have hstop : Clean V s.platform s.platform.stop := Step.stop.clean
    exact ⟨hstop.nested.rounds, fun _ => ⟨h.settled.clean hstop, Or.inl rfl⟩⟩

theorem Public.meets (hf : Public code f) (hpub : Publishes V f) (hi : s.platform.Inv)
    (h : s.platform.Calm) :
    Meets (discipline V) (WithinOuter V) f (fun _ t => t.platform.Calm) s :=
  (hf.rounds hpub hi h).elim outer_of_rounds And.left

end Operation

end Troupe
