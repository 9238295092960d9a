import Troupe.Proofs.Stage.Leavings
import Troupe.Proofs.Watch.Track

/-!
# Deliveries, requests and demands keep track

Whatever a message, a hook, a foreign function or a script asks for keeps every track, if hooks and
foreign functions do (`Upheld`). What they ask for is arbitrary, and so is what they make of the
state of the application, as long as the track allows it (`Act.Keeps`).

An actor that acts is taken out (`Flow.emptied`), has its code run and is put back, or gets its
last call (`Flow.relieved`); a machine is taken out and put back around that (`Flow.lending`,
`Flow.returned`, `Leads.borrow`). Nobody can have missed them meanwhile: they were lent.

Headlines:
* **`Flow.deliverAt_leads`**, **`Flow.route_leads`**: a message is accepted and put into its place.
* **`Flow.answer_leads`**, **`Flow.serve_leads`**: requests, and application code whatever it asks
  for.
* **`Flow.act_leads_of`**: an actor at hand acts on what is due, or on being started.
* **`Flow.readMail_leads`**, **`Flow.meet_leads`**: reading the mailbox, and demands.
-/

namespace Troupe

variable {κ : App}

/-- On a state of the application as it is, a piece of application code changes it only as `same`
allows. -/
def Act.Keeps {α : Type} (same : κ.World → κ.World → Prop) : Act κ α → κ.World → Prop
  | done _, _ => True
  | ask _ next, _ => ∀ x w, (next x).Keeps same w
  | look next, w => ∀ p, (next p w).Keeps same w
  | put w' next, w => same w w' ∧ next.Keeps same w'

/-- If everything is allowed, that is no restriction (`Act.Keeps`). -/
theorem Act.keeps_any {α : Type} {same : κ.World → κ.World → Prop} (hall : ∀ v w, same v w)
    (act : Act κ α) (w : κ.World) : act.Keeps same w := by
  induction act generalizing w with
  | done a => trivial
  | ask r next ih => exact fun x w => ih x w
  | look next ih => exact fun p => ih p w w
  | put w' next ih => exact ⟨hall w w', ih w'⟩

namespace Platform

variable {p q r : Platform κ} {a : Address} {V : Event → Prop} {but : Option Address}
  {m : Machine κ}

theorem Beside.machine (p : Platform κ) (a : Address) (o : Option (Machine κ)) :
    Beside V p (p.modifyContext a fun c => { c with machine := o }) := by
  refine .of_map (fun b c => if b = a then { c with machine := o } else c) (fun b c => ?_)
    (fun _ => context?_modifyContext_eq _) rfl (.refl _)
  split <;> exact ⟨rfl, rfl⟩

theorem FlushedBut.of_eq (h : p.FlushedBut but) (hc : ∀ a, q.context? a = p.context? a) :
    q.FlushedBut but :=
  h.of_contexts fun a c hq hidle => Or.inr ⟨c, hc a ▸ hq, hidle, rfl⟩

theorem Kept.of_eq (hn : p.nextGeneration ≤ q.nextGeneration)
    (hc : ∀ a, q.context? a = p.context? a) : Kept p q :=
  .of_contexts hn fun a c hq => ⟨c, hc a ▸ hq, ⟨rfl, rfl⟩, id, id⟩

/-- Changing the mailbox of a context (`Context.mapMailbox`). -/
theorem Kept.mail (f : List Envelope → List Envelope) :
    Kept p (p.modifyContext a fun c => c.mapMailbox f) :=
  .modifyContext fun _ _ => ⟨⟨rfl, rfl⟩, id, id⟩

theorem FlushedBut.mail (h : p.FlushedBut but) (f : List Envelope → List Envelope) :
    (p.modifyContext a fun c => c.mapMailbox f).FlushedBut but :=
  h.modifyContext fun _ _ hidle => Or.inr ⟨hidle, rfl⟩

/-- An address that was let off need not be, if nobody is idle there (`Context.isIdle`). -/
theorem FlushedBut.busy (h : p.FlushedBut (some a)) {f : Context κ → Context κ}
    (hf : ∀ c, (f c).isIdle = false) : (p.modifyContext a f).FlushedBut none := by
  intro b c _ hc hidle
  rw [context?_modifyContext_eq] at hc
  obtain ⟨d, hd, rfl⟩ := Option.map_eq_some_iff.mp hc
  split at hidle
  · exact absurd hidle (by rw [hf]; simp)
  · rename_i hb
    rw [if_neg hb]
    exact h b d (fun he => hb (Option.some.inj he)) hd hidle

theorem Kept.discard (p : Platform κ) (a : Address) : Kept p (p.discardMail a) :=
  (Kept.mail _).trans (discardMail_aloof (V := Event.Any) p a).kept

theorem FlushedBut.discard (h : p.FlushedBut but) : (p.discardMail a).FlushedBut but :=
  (FlushedBut.mail h _).aloof (discardMail_aloof (V := Event.Any) p a)

/-! ## Lending and giving back -/

/-- What was at hand may be lent meanwhile, and be given back. -/
theorem Kept.giveBack {f : Context κ → Context κ} (hpq : Kept p q)
    (hgen : ∀ c, (f c).generation = c.generation) (hflags : ∀ c, (f c).flags = c.flags)
    (hf : ∀ c d, p.context? a = some d → d.generation = c.generation →
      (d.actor = none → c.actor = none) → (d.machine = none → c.machine = none) →
        (d.actor = none → (f c).actor = none) ∧ (d.machine = none → (f c).machine = none)) :
    Kept p (q.modifyContext a f) := by
  refine ⟨hpq.next, fun b e he hold => ?_⟩
  rw [context?_modifyContext_eq] at he
  obtain ⟨c, hc, rfl⟩ := Option.map_eq_some_iff.mp he
  split at hold
  · rename_i hb
    rw [hgen] at hold
    obtain ⟨d, hd, hdc, hactor, hmachine⟩ := hpq.old b c hc hold
    rw [if_pos hb, hgen, hflags]
    exact ⟨d, hd, hdc, hf c d (hb ▸ hd) hdc.1 hactor hmachine⟩
  · rename_i hb
    rw [if_neg hb]
    exact hpq.old b c hc hold

end Platform

namespace Flow

open Platform

variable {α β : Type} {code : Code κ} {V : Event → Prop} {T : Track code V} {s t : Stage κ}
  {a : Address} {m : Machine κ} {c : Context κ}

/-! ## Deliveries -/

/-- An actor accepts a message (`Event.accepted`). -/
theorem announce_leads {env : Envelope} (hc : s.platform.context? a = some c) :
    Leads T {} { due := some (.arrival a env) } (edit (·.publish (.accepted a env)))
      (fun _ t => t.platform.context? a = some c) s :=
  .edit (.accept hc) (.of_eq (Nat.le_refl _) fun _ => rfl) (fun h => h.of_eq fun _ => rfl) hc

/-- It finds the message in its mailbox (`Platform.putMail`). -/
theorem mail_leads {env : Envelope} (hc : s.platform.context? a = some c)
    (hway : c.way a env = .mail) : Leads T { due := some (.arrival a env) } {}
      (edit fun p => (p.putMail a env).scheduleMail a) (fun _ _ => True) s :=
  have hlook : Aloof V (s.platform.putMail a env) ((s.platform.putMail a env).scheduleMail a) :=
    .look _ a
  .edit (.mail hc hway) ((Kept.mail _).trans hlook.kept)
    (fun h => (FlushedBut.mail h _).aloof hlook) trivial

/-- It takes the message in its own hands (`Platform.putBacklog`). -/
theorem hand_leads {env : Envelope} (hc : s.platform.context? a = some c)
    (hway : c.way a env = .hand) :
    Leads T { due := some (.arrival a env) } (poseOf (.flush a)) (edit (·.putBacklog a env))
      (fun _ _ => True) s :=
  .edit (.hand hc hway) (.modifyContext fun _ _ => ⟨⟨rfl, rfl⟩, id, id⟩) (fun h => (h.mono _).at _)
    trivial

/-- What is transferred is meant for another (`Flow.deliverAt`). -/
theorem deliverAt_leads (a : Address) (env : Envelope) {transferred : Bool} (s : Stage κ)
    (ht : (env.target != a) = transferred) :
    Leads T {} {} (deliverAt a env transferred) (fun _ _ => True) s := by
  subst ht
  unfold deliverAt
  refine .ask ?_
  split
  · exact .pure trivial
  · rename_i c hc
    refine .bind (announce_leads hc) fun _ t _ ht => ?_
    split
    · rename_i hmail
      exact .bind (mail_leads ht (if_pos hmail)) fun _ _ _ _ => .pure trivial
    · rename_i hhand
      refine .bind (hand_leads ht (if_neg hhand)) fun _ u _ _ => ?_
      exact .bind (.invoke trivial) fun _ _ _ _ => .pure trivial

/-- A message that is meant for an actor is delivered to it (`Flow.deliver`). -/
theorem deliver_leads (env : Envelope) (s : Stage κ) :
    Leads T {} {} (deliver env) (fun _ _ => True) s :=
  deliverAt_leads env.target env s (bne_self_eq_false _)

theorem transfer_leads {router : Address} {env : Envelope} (s : Stage κ)
    (hr : router ≠ env.target) : Leads T {} {} (transfer router env) (fun _ _ => True) s := by
  unfold transfer
  refine .bind (.aloof (.publish _ (Or.inl rfl))) fun _ t _ _ => .ask ?_
  split
  · exact deliverAt_leads router env t (bne_iff_ne.mpr hr.symm)
  · exact .bind (.aloof (.drop _ env)) fun _ _ _ _ => .pure trivial

/-- Nobody is the router for its own address (`Platform.router?`). -/
theorem router?_ne {p : Platform κ} {target router : Address}
    (h : p.router? target = some router) : router ≠ target := by
  have hfound := List.find?_some h
  exact bne_iff_ne.mp (Bool.and_eq_true_iff.mp hfound).1

theorem route_leads (env : Envelope) (s : Stage κ) :
    Leads T {} {} (route env) (fun _ _ => True) s := by
  unfold route
  split
  · exact .pure trivial
  · refine .ask ?_
    split
    · rename_i hrouter
      exact transfer_leads s (router?_ne hrouter)
    · exact deliver_leads env s

theorem countM_leads {γ : Type} {f : γ → Flow κ Bool}
    (hf : ∀ x s, Leads T {} {} (f x) (fun _ _ => True) s) (l : List γ) (s : Stage κ) :
    Leads T {} {} (countM f l) (fun _ _ => True) s := by
  induction l generalizing s with
  | nil => exact .done trivial
  | cons x l ih => exact .bind (hf x s) fun b t _ _ => .bind (ih t) fun n _ _ _ => .done trivial

theorem routeToMembers_leads (group : String) (source : Address) (message : Message)
    (s : Stage κ) : Leads T {} {} (routeToMembers group source message) (fun _ _ => True) s := by
  unfold routeToMembers
  exact .ask (countM_leads (fun target t => route_leads ⟨target, source, message⟩ t) _ s)

/-! ## Starting, removing and allocating -/

theorem startAll_leads (as : List Address) (s : Stage κ) :
    Leads T {} {} (startAll (κ := κ) as) (fun _ _ => True) s := by
  induction as generalizing s with
  | nil => exact .pure trivial
  | cons a as ih =>
    unfold startAll
    refine .ask ?_
    split
    · refine .bind (.invoke (c := .start a) trivial) fun x t _ _ => ?_
      split
      · exact ih t
      · exact .pure trivial
    · exact ih s

theorem startTree_leads (a : Address) (s : Stage κ) :
    Leads T {} {} (startTree (κ := κ) a) (fun _ _ => True) s := by
  unfold startTree
  refine .ask (.bind (.invoke (c := .start a) trivial) fun x t _ _ => ?_)
  split
  · exact startAll_leads _ t
  · exact .pure trivial

theorem terminate_leads (code : Code κ) {T : Track code V} (a : Address) (s : Stage κ) :
    Leads T {} {} (modify (Stage.terminate code a)) (fun _ _ => True) s :=
  .tend (f := fun s => ((), s.terminate code a)) (fun _ => terminate_tended a s) fun _ => .nothing

theorem allocate_leads (code : Code κ) {T : Track code V} (parent : Address) (t : Template κ)
    (s : Stage κ) : Leads T {} {} (onStage (Stage.allocate code parent t)) (fun _ _ => True) s :=
  .tend (fun hi => allocate_tended T.same_refl T.freshId parent t s hi.table) fun _ => .nothing

theorem killFor_leads (code : Code κ) {T : Track code V} (caller target : Address)
    (s : Stage κ) : Leads T {} {} (killFor code caller target) (fun _ _ => True) s := by
  unfold killFor
  split
  · exact .bind (terminate_leads code target s) fun _ _ _ _ => .pure trivial
  · exact .pure trivial

/-! ## Application code -/

/-- A script is run on a machine that is lent to it (`Flow.exec`). -/
theorem exec_leads (script : Script κ) (hm : s.platform.Held m) :
    Leads T {} {} (exec m script) (fun x _ => m.Kin x.2) s := by
  unfold exec
  split
  · rename_i m' hpush
    have hkin : m.Kin m' := (Machine.pushFrame_main hpush).toKin
    exact (Leads.resume (hm.kin hkin)).mono fun _ _ hr => hkin.trans hr
  · exact .bind (.aloof (.raise _ _ _)) fun _ _ _ _ => .pure (.refl m)

theorem onBehalf_leads {f : Flow κ α} (hf : Leads T {} {} f (fun _ _ => True) s) :
    Leads T {} {} (onBehalf m f) (fun x _ => m.Kin x.2) s :=
  .bind hf fun _ _ _ _ => .pure (.refl m)

/-- **Requests** keep track (`Flow.answer`). -/
theorem answer_leads {r : Request κ} (hr : ∀ e, r = .trigger e → V e) (hm : s.platform.Held m) :
    Leads T {} {} (answer code m r) (fun x _ => m.Kin x.2) s := by
  cases r with
  | tell target message =>
    unfold answer
    exact .bind (exec_leads _ hm) fun _ _ _ hx => .pure hx
  | broadcast group message => exact onBehalf_leads (routeToMembers_leads group m.address message s)
  | forward env =>
    have forward : Leads T {} {} (α := Bool)
        (if env.target.isRoot || !s.platform.contains env.target then do
          edit (·.dropMessage env)
          pure false
        else deliver env) (fun _ _ => True) s := by
      split
      · exact .bind (.aloof (.drop _ env)) fun _ _ _ _ => .pure trivial
      · exact deliver_leads env s
    exact onBehalf_leads (.ask forward)
  | drop env => exact onBehalf_leads (.aloof (.drop _ env))
  | receive matcher => exact onBehalf_leads (.aloof (.arm _ m.address matcher))
  | kill target => exact onBehalf_leads (killFor_leads code m.address target s)
  | start target => exact onBehalf_leads (.invoke (c := .start target) trivial)
  | exit => exact onBehalf_leads (terminate_leads code m.address s)
  | raise error => exact onBehalf_leads (.aloof (.raise _ m.address error))
  | runTask task => exact onBehalf_leads (.onPlatform (.register _ m.address task))
  | route target => exact onBehalf_leads (.aloof (.putRoute _ target m.address))
  | unroute target => exact onBehalf_leads (.aloof (.removeRoute _ target))
  | join group => exact onBehalf_leads (.onPlatform (.join _ group m.address))
  | exec script => exact exec_leads script hm
  | spawn template =>
    refine onBehalf_leads (.bind (allocate_leads code m.address template s) fun x t _ _ => ?_)
    split
    · exact .pure trivial
    · refine .bind (startTree_leads _ t) fun y u _ _ => ?_
      split
      · exact .pure trivial
      · exact .pure trivial
  | alloc template => exact onBehalf_leads (allocate_leads code m.address template s)
  | trigger e => exact onBehalf_leads (.aloof (.publish _ (Or.inr (hr e rfl))))
  | stop => exact onBehalf_leads (.aloof (.of_contexts (fun _ => rfl) rfl (.refl _)))

/-- **Application code** keeps track, whatever it asks for (`Flow.serve`). -/
theorem serve_leads {act : Act κ α} (hact : act.Publishes V)
    (hkeeps : act.Keeps T.same s.world) (hm : s.platform.Held m) :
    Leads T {} {} (serve code act m) (fun x _ => m.Kin x.2) s := by
  induction act generalizing m s with
  | done a => exact .pure (.refl m)
  | ask r next ih =>
    refine .bind (answer_leads hact.1 hm) fun ⟨x, m'⟩ t hlater hkin => ?_
    have hrest := ih x (hact.2 x) (hkeeps x t.world) ((hm.kept hlater.lent).kin hkin)
    exact hrest.mono fun _ _ hr => hkin.trans hr
  | look next ih => exact .get (ih s.platform s.world (hact _ _) (hkeeps s.platform) hm)
  | put w next ih =>
    refine .bind (.modify (.refl _) hkeeps.1) fun _ t _ ht => ?_
    subst ht
    exact ih hact hkeeps.2 hm

/-- A track that is indifferent to what application code does, and to hooks that are due, is upheld
(`Upheld`). -/
theorem Upheld.of_any (hpub : code.Publishes V) (hall : ∀ v w, T.same v w)
    (hin : ∀ a g hook actor h s, T.holds (some (.opening a g hook actor)) h s → T.holds none h s)
    (hout : ∀ a g hook actor h s, T.holds none h s →
      T.holds (some (.closing a g hook actor)) h s) :
    Upheld T where
  performs m hook actor _ hm :=
    .recast (hin m.address m.generation hook actor · _) (hout m.address m.generation hook actor)
      (serve_leads (hpub.1 _ _ _) (Act.keeps_any hall _ _) hm)
  computes _ _ _ _ hm := serve_leads (hpub.2 _ _ _) (Act.keeps_any hall _ _) hm

/-! ## Actors that act -/

/-- Something is lent while a flow goes on, and then given back. -/
theorem Leads.loan {P P' : Pose κ} (P₁ P₂ P₃ : Pose κ) {s₁ : Stage κ} {f : Flow κ α}
    {G : α → Stage κ → Stage κ} {k : α → Flow κ β} {Q : α → Stage κ → Prop}
    {R : β → Stage κ → Prop} (hout : Move code V T.same P.due s P₁.due s₁)
    (hflushed : s.platform.FlushedBut P.behind → s₁.platform.FlushedBut P₁.behind)
    (hf : Leads T P₁ P₂ f Q s₁)
    (hback : ∀ x t, T.Later s₁ t → Q x t → Move code V T.same P₂.due t P₃.due (G x t) ∧
      Kept s.platform (G x t).platform ∧
        (t.platform.FlushedBut P₂.behind → (G x t).platform.FlushedBut P₃.behind))
    (hk : ∀ x t, Q x t → Leads T P₃ P' (k x) R (G x t)) :
    Leads T P P' (.set s₁ (f.bind fun x => (Flow.modify (G x)).bind fun _ => k x)) R s := by
  refine .enclose (fun h hfit hi₁ => ?_) hf (fun h₀ h x t hfit hfit₂ hlater hx hi₃ => ?_)
  · exact ⟨hi₁, (T.move hout hfit.inv hfit.holds).1, hflushed hfit.flushed⟩
  · obtain ⟨hmove, hlent, hflush⟩ := hback x t hlater hx
    obtain ⟨hx₃, hkept₃⟩ := T.move hmove hfit₂.stay.inv hfit₂.stay.holds
    have hkept := T.kept_trans (T.move hout hfit.inv hfit.holds).2 hlater.kept
    have hall : T.Later s (G x t) := ⟨T.kept_trans hkept hkept₃, hlent⟩
    have hfit₃ : T.Fit P₃ (t :: t :: h) (G x t) := ⟨hi₃, hx₃, hflush hfit₂.flushed⟩
    refine ⟨⟨_, hx₃⟩, (hk x t hx _ hfit₃).mono fun y _ u ⟨hfit', hlater', hy⟩ => ?_⟩
    exact ⟨hfit', hall.trans hlater', hy⟩

/-- The stage, once an actor is taken out of a context (`Context.actor`). -/
def emptied (a : Address) (s : Stage κ) : Stage κ :=
  s.edit (·.modifyContext a fun c => { c with actor := none })

/-- The stage, once an actor is put back, or has got its last call (`Code.stop`) if its incarnation
has gone. -/
def relieved (code : Code κ) (a : Address) (g : Nat) (actor : κ.Actor) (s : Stage κ) : Stage κ :=
  if s.platform.isCurrent a g then
    s.edit (·.modifyContext a fun c => { c with actor := some actor })
  else { s with world := code.stop actor s.world }

theorem emptied_kept (a : Address) (s : Stage κ) : Kept s.platform (emptied a s).platform :=
  .modifyContext fun _ _ => ⟨⟨rfl, rfl⟩, fun _ => rfl, id⟩

/-- An actor that was taken out while its machine is lent is put back (`relieved`). -/
theorem relieved_moves {actor : κ.Actor} (hook : Hook) (hm : s.platform.Held m)
    (hc : s.platform.context? m.address = some c) (hg : c.generation = m.generation)
    (hactor : c.actor = some actor) (hlater : Kept (emptied m.address s).platform t.platform) :
    Move code V T.same (some (.closing m.address m.generation hook actor)) t
        (Due.afterwards c m.address hook) (relieved code m.address m.generation actor t) ∧
      Kept s.platform (relieved code m.address m.generation actor t).platform ∧
        (t.platform.FlushedBut none →
          (relieved code m.address m.generation actor t).platform.FlushedBut none) := by
  have hheld := hm.kept (emptied_kept m.address s)
  have hkept : Kept s.platform t.platform := (emptied_kept _ _).trans hlater
  unfold relieved
  by_cases hcur : t.platform.isCurrent m.address m.generation = true
  · rw [if_pos hcur]
    obtain ⟨d, hd, hdg⟩ := isCurrent_iff.mp hcur
    -- the context has waited for the actor, and it has no machine either
    obtain ⟨hnone, hflags⟩ : d.actor = none ∧ c.flags = d.flags := by
      obtain ⟨e, he, hed, hback, -⟩ := hlater.old _ d hd (hdg ▸ hheld.old)
      unfold emptied Stage.edit at he
      dsimp only at he
      rw [context?_modifyContext, if_pos rfl, hc] at he
      obtain rfl := Option.some.inj he
      exact ⟨hback rfl, hed.2⟩
    have hbusy : d.machine = none := (hheld.kept hlater).lent d hd hdg
    have hdue : Due.afterwards c m.address hook = Due.afterwards d m.address hook := by
      unfold Due.afterwards
      rw [hflags, hg, hdg]
    refine ⟨hdue ▸ hdg ▸ .back hd hnone,
      hkept.giveBack (fun _ => rfl) (fun _ => rfl) ?_, fun h => ?_⟩
    · intro e c' hc' _ _ hmachine
      obtain rfl := Option.some.inj (hc.symm.trans hc')
      exact ⟨fun h => absurd (hactor.symm.trans h) (by simp), hmachine⟩
    · refine h.modifyContext fun e he hidle => ?_
      obtain rfl := Option.some.inj (hd.symm.trans he)
      exact absurd hidle (by simp [Context.isIdle, hbusy])
  · rw [if_neg hcur]
    exact ⟨.gone (Bool.not_eq_true _ ▸ hcur) (hg ▸ Due.leaves_afterwards c _ hook), hkept,
      fun h => h⟩

/-- **An actor at hand acts** on what is due, or on being started (`Flow.act`). -/
theorem act_leads_of (hup : Upheld T) {hook : Hook} {actor : κ.Actor} {x : Option (Due κ)}
    (hm : s.platform.Held m) (hc : s.platform.context? m.address = some c)
    (hg : c.generation = m.generation) (hactor : c.actor = some actor)
    (hx : x = some (.hook m.address c.generation hook) ∨ x = none ∧ hook = .run) :
    Leads T { due := x } { due := Due.afterwards c m.address hook } (act code m hook)
      (fun x _ => m.Kin x.2) s := by
  have hout : Move code V T.same x s (some (.opening m.address c.generation hook actor))
      (emptied m.address s) := .out hc hactor hx
  have hrelieved {t : Stage κ} (hlater : T.Later (emptied m.address s) t) :=
    relieved_moves (T := T) hook hm hc hg hactor hlater.lent
  have hheld := hm.kept (emptied_kept m.address s)
  obtain ⟨address, generation, _, machine, flags, mailbox, receivers, backlog, template⟩ := c
  dsimp only at hg hactor hout
  subst hactor hg
  unfold act
  refine .see ?_
  rw [hc]
  dsimp only
  rw [if_neg (by simp)]
  refine .get (Leads.loan { due := some (.opening m.address m.generation hook actor) }
    { due := some (.closing m.address m.generation hook actor) }
    { due := Due.afterwards _ m.address hook } hout (fun h => ?_)
    (hup.performs m hook actor _ hheld) (fun ⟨result, m'⟩ t hlater hkin => ?_)
    fun ⟨result, m'⟩ t hkin => .pure hkin)
  · exact h.modifyContext fun _ _ hidle => absurd hidle (by simp [Context.isIdle])
  · dsimp only at hkin ⊢
    rw [hkin.address, hkin.generation]
    exact hrelieved hlater

/-- Starting an actor that is not at hand does nothing (`Flow.act`). -/
theorem act_leads (hup : Upheld T) (hm : s.platform.Held m) :
    Leads T {} {} (act code m .run) (fun x _ => m.Kin x.2) s := by
  by_cases h : ∃ c actor, s.platform.context? m.address = some c ∧
      c.generation = m.generation ∧ c.actor = some actor
  · obtain ⟨c, actor, hc, hg, hactor⟩ := h
    have hnone : Due.afterwards c m.address .run = none := if_neg fun h => nomatch h.2
    have hleads := act_leads_of hup hm hc hg hactor (Or.inr ⟨rfl, rfl⟩)
    rwa [hnone] at hleads
  · unfold act
    refine .see ?_
    split
    · rename_i hc
      split
      · exact .pure (.refl m)
      · rename_i hg
        exact absurd ⟨_, _, hc, not_not.mp hg, rfl⟩ h
    · exact .pure (.refl m)

/-- The stage, once a machine is taken out of a context (`Flow.checkOut`). -/
def lending (a : Address) (s : Stage κ) : Stage κ :=
  s.edit (·.modifyContext a fun c => { c with machine := none })

/-- The stage, once a machine is put back into its context, if its incarnation is still there
(`Flow.checkIn`). -/
def returned (m : Machine κ) (s : Stage κ) : Stage κ :=
  s.edit fun p =>
    if p.isCurrent m.address m.generation then
      (p.modifyContext m.address fun c => { c with machine := some m }).enqueue m.address
    else p

theorem lending_kept (a : Address) (s : Stage κ) : Kept s.platform (lending a s).platform :=
  .modifyContext fun _ _ => ⟨⟨rfl, rfl⟩, id, fun _ => rfl⟩

/-- A machine that is taken out is lent (`Platform.Held`). -/
theorem lending_held (hi : s.platform.Inv) (hc : s.platform.context? a = some c)
    (hm : c.machine = some m) :
    m.address = a ∧ m.generation = c.generation ∧ (lending a s).platform.Held m := by
  have hrest := hi.machines a c m hc hm
  refine ⟨hrest.address, hrest.generation, hrest.generation ▸ hi.table.fresh a c hc,
    fun d hd _ => ?_⟩
  dsimp only [lending, Stage.edit] at hd
  rw [hrest.address, context?_modifyContext, if_pos rfl, hc] at hd
  obtain rfl := Option.some.inj hd
  rfl

/-- A machine that was at hand is put back (`returned`). -/
theorem returned_moves (hc : s.platform.context? m.address = some c)
    (hmachine : c.machine ≠ none) (hkept : Kept s.platform t.platform) :
    Move code V T.same none t none (returned m t) ∧ Kept s.platform (returned m t).platform ∧
      (t.platform.FlushedBut none → (returned m t).platform.FlushedBut (some m.address)) := by
  unfold returned
  dsimp only [Stage.edit]
  by_cases hcur : t.platform.isCurrent m.address m.generation = true
  · rw [if_pos hcur]
    have hqueue : Aloof V
        (t.platform.modifyContext m.address fun c => { c with machine := some m }) _ :=
      .enqueue _ m.address
    have hgive : Kept s.platform
        (t.platform.modifyContext m.address fun c => { c with machine := some m }) := by
      refine hkept.giveBack (fun _ => rfl) (fun _ => rfl) fun e d hd _ hactor _ => ?_
      obtain rfl := Option.some.inj (hc.symm.trans hd)
      exact ⟨hactor, fun h => absurd h hmachine⟩
    exact ⟨.beside ((Beside.machine _ m.address _).trans hqueue.toBeside) (T.same_refl _),
      hgive.trans hqueue.kept, fun h => ((h.mono _).at _).aloof hqueue⟩
  · rw [if_neg hcur]
    exact ⟨.beside (.refl _) (T.same_refl _), hkept, fun h => h.mono _⟩

/-- Work on a machine that is taken out (`lending`), and put back afterwards. -/
theorem Leads.borrow {x : Option (Due κ)} {P' : Pose κ} {z : Flow κ α}
    {f : Machine κ → Flow κ (β × Machine κ)} {k : β × Machine κ → Flow κ α}
    {R : α → Stage κ → Prop}
    (hz : (∀ c, s.platform.context? a = some c → c.machine = none) →
      Leads T { due := x } P' z R (lending a s))
    (hf : ∀ c m, s.platform.context? a = some c → c.machine = some m → m.address = a →
      m.generation = c.generation → (lending a s).platform.Held m →
        Leads T { due := x } {} (f m) (fun y _ => m.Kin y.2) (lending a s))
    (hk : ∀ y u, Leads T { behind := some a } P' (k y) R u) :
    Leads T { due := x, behind := some a } P' (checkOut a >>= fun o => match o with
      | none => z
      | some m => f m >>= fun y => checkIn y.2 >>= fun _ => k y) R s := by
  intro h hfit
  have hout : Move code V T.same x s x (lending a s) :=
    .beside (.machine _ a none) (T.same_refl _)
  have hflushed (h : s.platform.FlushedBut (some a)) : (lending a s).platform.FlushedBut none :=
    h.busy fun _ => by simp [Context.isIdle]
  have hask {g : Option (Machine κ) → Flow κ α} (hg : Leads T { due := x, behind := some a } P'
      (.set (lending a s) (g ((s.platform.context? a).bind Context.machine))) R s) :
      Leads T { due := x, behind := some a } P' (checkOut a >>= g) R s := .get hg
  refine hask ?_ h hfit
  cases hm : (s.platform.context? a).bind Context.machine with
  | none =>
    refine .setMove hout (lending_kept a s) hflushed (hz fun c hc => ?_)
    rw [hc] at hm
    exact hm
  | some m =>
    obtain ⟨c, hc, hcm⟩ := Option.bind_eq_some_iff.mp hm
    obtain ⟨haddress, hgeneration, hheld⟩ := lending_held hfit.inv hc hcm
    refine Leads.loan { due := x } {} { behind := some a } hout hflushed
      (hf c m hc hcm haddress hgeneration hheld) (fun y t hlater hkin => ?_)
      fun y t _ => hk y _
    obtain rfl : y.2.address = a := hkin.address.trans haddress
    exact returned_moves hc (by simp [hcm]) ((lending_kept _ _).trans hlater.lent)

/-- Starting an actor (`Flow.actAt`). -/
theorem actAt_leads (hup : Upheld T) (a : Address) (s : Stage κ) :
    Leads T {} (poseOf (.flush a)) (actAt code a .run) (fun _ _ => True) s := by
  unfold actAt
  refine .letOff a ?_
  exact .borrow (fun _ => .behind a trivial) (fun c m _ _ _ _ hm => act_leads hup hm)
    fun y u => .pure trivial

/-- **An idle actor accepts** a message (`Flow.actAt`). -/
theorem actAt_leads_of (hup : Upheld T) {env : Envelope} (hc : s.platform.context? a = some c)
    (hidle : c.isIdle = true) :
    Leads T { due := some (.hook a c.generation (.accept env)), behind := some a }
      (poseOf (.flush a)) (actAt code a (.accept env)) (fun _ _ => True) s := by
  unfold Context.isIdle at hidle
  rw [Bool.and_eq_true, Option.isSome_iff_exists, Option.isSome_iff_exists] at hidle
  obtain ⟨⟨actor, hactor⟩, m, hm⟩ := hidle
  unfold actAt
  refine .borrow (fun hnone => ?_) (fun d m' hd _ ha hg hheld => ?_) fun y u => .pure trivial
  · exact absurd (hm.symm.trans (hnone c hc)) (by simp)
  · obtain rfl := Option.some.inj (hc.symm.trans hd)
    have hc' : (lending a s).platform.context? m'.address = some { c with machine := none } := by
      dsimp only [lending, Stage.edit]
      rw [ha, context?_modifyContext, if_pos rfl, hc]
      rfl
    have hnone : Due.afterwards { c with machine := none } m'.address (.accept env) = none :=
      if_neg fun h => nomatch h.2
    exact hnone ▸ act_leads_of hup hheld hc' hg.symm hactor (Or.inl (ha ▸ rfl))

/-! ## Demands -/

/-- A receiver takes the head of a mailbox (`Platform.takeMatch`): the actor is to act on it. -/
theorem takeMatch_leads {hit : Match} {p : Platform κ} (hc : s.platform.context? a = some c)
    (hactor : c.actor ≠ none) (htake : s.platform.takeMatch a = some (hit, p)) :
    Leads T {} { due := some (.hook a c.generation (.receive hit.tag hit.envelope)) }
      (edit fun _ => p.publish (.received a hit.tag hit.envelope))
      (fun _ t => ∃ d, t.platform.context? a = some d ∧ d.generation = c.generation ∧
        d.flags = c.flags ∧ d.actor = c.actor) s := by
  obtain ⟨d, receiver, rest, _, hd, -, -, -, -, hp⟩ := takeMatch_eq htake
  obtain rfl := Option.some.inj (hc.symm.trans hd)
  have hkept : Kept s.platform p := hp ▸ .modifyContext fun _ _ => ⟨⟨rfl, rfl⟩, id, id⟩
  refine .edit (.takeMatch hc hactor htake) (hkept.trans (.of_eq (Nat.le_refl _) fun _ => rfl))
    (fun h => ?_) ?_
  · have hflushed : p.FlushedBut none := hp ▸ h.modifyContext fun _ _ hidle => Or.inr ⟨hidle, rfl⟩
    exact hflushed.of_eq fun _ => rfl
  · have hd : p.context? a = some { c.mapMailbox List.tail with
        receivers := if receiver.standing then c.receivers else rest } := by
      rw [hp, context?_modifyContext, if_pos rfl, hc]
      rfl
    exact ⟨_, hd, rfl, rfl, rfl⟩

/-- A temporary actor is removed once it has received a message (`afterwards`). -/
theorem part_leads (code : Code κ) {T : Track code V} (hook : Hook) (hway : hook.way = some .mail)
    (v : Stage κ) : Leads T { due := Due.afterwards c a hook } {}
      (when c.flags.temporary (modify (Stage.terminate code a))) (fun _ _ => True) v := by
  unfold Flow.when Due.afterwards
  cases c.flags.temporary with
  | false => exact .done trivial
  | true =>
    rw [if_pos rfl, if_pos ⟨rfl, hway⟩]
    exact .tend (f := fun s => ((), s.terminate code a)) (fun _ => terminate_tended a v) fun hi =>
      .gone (Stage.isCurrent_terminate code (fun c hc => (hi.table.placed a c hc).1) _)

/-- **Reading the mailbox** (`Flow.readMail`): the receiver that takes the head acts on it. -/
theorem readMail_leads (hup : Upheld T) (hm : s.platform.Held m)
    (hcur : s.platform.isCurrent m.address m.generation = true) :
    Leads T {} {} (readMail code m) (fun x _ => m.Kin x.2) s := by
  unfold readMail
  refine .ask ?_
  dsimp only [id]
  split
  · exact .bind (.aloof (.look _ _)) fun _ _ _ _ => .pure (.refl m)
  · rename_i hbusy
    split
    · exact .pure (.refl m)
    · rename_i hit p htake
      obtain ⟨c, -, -, -, hc, -, -, -, htemporary, -⟩ := takeMatch_eq htake
      obtain ⟨actor, hactor⟩ : ∃ actor, c.actor = some actor := by
        rw [hc, Option.any_some, Bool.not_eq_true, Bool.not_eq_false'] at hbusy
        exact Option.isSome_iff_exists.mp hbusy
      have hg : c.generation = m.generation := by
        obtain ⟨d, hd, hdg⟩ := isCurrent_iff.mp hcur
        exact Option.some.inj (hc.symm.trans hd) ▸ hdg
      have hhand : c.actor ≠ none := by simp [hactor]
      refine .bind (takeMatch_leads hc hhand htake) fun _ t hlater ⟨d, hd, hdg, hdf, hdactor⟩ => ?_
      refine .bind (act_leads_of hup (hm.kept hlater.lent) hd (hdg.trans hg)
        (hdactor.trans hactor) (Or.inl (by rw [hdg]))) fun ⟨result, m'⟩ u _ hkin => ?_
      rw [htemporary, ← hdf, hkin.address]
      have rest (v : Stage κ) : Leads T
          { due := Due.afterwards d m.address (.receive hit.tag hit.envelope) } {}
          (when d.flags.temporary (modify (Stage.terminate code m.address)) >>= fun _ =>
            pure (Met.push (.int 1), m')) (fun (x : Met κ × Machine κ) _ => m.Kin x.2) v :=
        .bind (part_leads code _ rfl v) fun _ _ _ _ => .pure hkin
      dsimp only
      split
      · exact .bind (.aloof (.raise _ _ _)) fun _ v _ _ => rest v
      · exact rest u

/-- **Demands** keep track (`Flow.meet`). -/
theorem meet_leads (hup : Upheld T) (d : Demand κ) (hm : s.platform.Held m)
    (hcur : s.platform.isCurrent m.address m.generation = true) :
    Leads T {} {} (meet code m d) (fun x _ => m.Kin x.2) s := by
  cases d with
  | allocate template =>
    refine onBehalf_leads (.bind (allocate_leads code m.address template s) fun x t _ _ => ?_)
    split
    · exact .pure trivial
    · exact .pure trivial
  | start target =>
    exact onBehalf_leads (.bind (.invoke (c := .start target) trivial) fun _ _ _ _ => .pure trivial)
  | send target message =>
    exact onBehalf_leads
      (.bind (route_leads ⟨target, m.address, message⟩ s) fun _ _ _ _ => .pure trivial)
  | drop target message =>
    exact onBehalf_leads (.bind (.aloof (.drop _ _)) fun _ _ _ _ => .pure trivial)
  | arm matcher =>
    exact onBehalf_leads (.bind (.aloof (.arm _ m.address matcher)) fun _ _ _ _ => .pure trivial)
  | countReceivers => exact onBehalf_leads (.ask (.pure trivial))
  | countMail => exact onBehalf_leads (.ask (.pure trivial))
  | takeMail =>
    have htake : Leads T {} {} (onPlatform (·.takeMail m.address)) (fun _ _ => True) s :=
      .onStage (.takeMail m.address) (.mail _) (fun h => h.mail _) trivial
    refine onBehalf_leads (.bind htake fun x t _ _ => ?_)
    split
    · exact .pure trivial
    · exact .pure trivial
  | read => exact readMail_leads hup hm hcur
  | discardMail =>
    have hdiscard : Leads T {} {} (edit (·.discardMail m.address)) (fun _ _ => True) s :=
      .edit (.discard m.address) (.discard _ _) (fun h => h.discard) trivial
    exact onBehalf_leads (.bind hdiscard fun _ _ _ _ => .pure trivial)
  | kill target =>
    exact onBehalf_leads
      (.bind (killFor_leads code m.address target s) fun _ _ _ _ => .pure trivial)
  | route target =>
    exact onBehalf_leads
      (.bind (.aloof (.putRoute _ target m.address)) fun _ _ _ _ => .pure trivial)
  | unroute target =>
    exact onBehalf_leads (.bind (.aloof (.removeRoute _ target)) fun _ _ _ _ => .pure trivial)
  | foreign f args =>
    refine .bind (hup.computes m f args s hm) fun ⟨result, m'⟩ t _ hkin => ?_
    dsimp only
    split
    · exact .pure hkin
    · exact .pure hkin

end Flow

end Troupe
