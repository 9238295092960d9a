import Troupe.Proofs.Machine.Frames
import Troupe.Proofs.Platform.Invariant
import Troupe.Proofs.Stage.Allocation

/-!
# What happens to a stage in one go

A flow replaces the stage in one go, again and again. To say what it makes of actors and their
messages is to say what each of these replacements does to them, and few do anything (`Move`):
messages are accepted (`Event.accepted`), put into a mailbox or a backlog and taken from there
(`Way`), actors are taken out for a hook and put back, and all the rest goes on beside them
(`Platform.Beside`, `Platform.Aloof`). Allocating and removing actors is done in one go too, but
takes a chain of smaller changes (`Tend`, `Tended`).

Sometimes a replacement begins what only later ones finish: a message that was accepted is put into
its place next, and a message that was taken is what the actor acts on next. `Due` names what is
due.

`Platform.Kept` says of a longer way that whatever was lent still is, unless its incarnation has
gone, and `FlushedBut` that idle actors have no backlog.

Headlines:
* **`Move.generations`**: in a move nobody comes or goes.
* **`Tended.context`**: tending to actors leaves the others alone, and new ones are really new.
* **`terminate_tended`**, **`allocate_tended`**: removing (`terminate`) and allocating
  (`alloc_actor`) is tending.
-/

namespace Troupe

variable {κ : App}

/-! ## Events -/

namespace Event

/-- Whether an event tells neither that an actor came or went nor that one accepted or received a
message. -/
def isAside (e : Event) : Bool :=
  e.kind != .actorAllocated && e.kind != .actorRemoved && e.kind != .messageAccepted &&
    e.kind != .messageReceived

/-- An actor accepted a message (`EventKind.messageAccepted`). -/
def accepted (a : Address) (env : Envelope) : Event :=
  withEnvelope (about .messageAccepted a) env

/-- A receiver of an actor took a message (`EventKind.messageReceived`). -/
def received (a : Address) (tag : String) (env : Envelope) : Event :=
  withEnvelope { kind := .messageReceived, address := some a, reason := some tag } env

/-- A message was dropped (`EventKind.messageDropped`). -/
def dropped (env : Envelope) : Event :=
  withEnvelope { kind := .messageDropped } env

theorem kind_of_isAside {e : Event} (h : e.isAside = true) :
    e.kind ≠ .messageAccepted ∧ e.kind ≠ .messageReceived := by
  constructor <;>
  · intro hk
    simp [isAside, hk] at h

theorem isAside_of_isReport {e : Event} (h : e.isReport = true) : e.isAside = true := by
  unfold isReport isOverflow isPanic at h
  unfold isAside
  cases hk : e.kind <;> simp [hk] at h ⊢

end Event

/-! ## Beside the actors -/

/-- The context but for its machine and its receivers. -/
def Context.face (c : Context κ) : Context κ :=
  { c with machine := none, receivers := [] }

/-- What contexts with one `Context.face` share. -/
structure Context.Alike (c d : Context κ) : Prop where
  generation : c.generation = d.generation
  actor : c.actor = d.actor
  flags : c.flags = d.flags
  mailbox : c.mailbox = d.mailbox
  backlog : c.backlog = d.backlog

theorem Context.alike_of_face {c d : Context κ} (h : c.face = d.face) : c.Alike d where
  generation := show c.face.generation = d.face.generation by rw [h]
  actor := show c.face.actor = d.face.actor by rw [h]
  flags := show c.face.flags = d.face.flags by rw [h]
  mailbox := show c.face.mailbox = d.face.mailbox by rw [h]
  backlog := show c.face.backlog = d.face.backlog by rw [h]

/-- One-shot receivers may have been put in front of the others (`Context.receivers`). -/
def Context.Arms (c d : Context κ) : Prop :=
  ∃ new : List Receiver, (∀ r ∈ new, r.standing = false) ∧ d.receivers = new ++ c.receivers

theorem Context.Arms.of_eq {c d : Context κ} (h : d.receivers = c.receivers) : c.Arms d :=
  ⟨[], fun _ hr => absurd hr List.not_mem_nil, h⟩

theorem Context.Arms.trans {c d e : Context κ} (h : c.Arms d) (h' : d.Arms e) : c.Arms e := by
  obtain ⟨new, hnew, hd⟩ := h
  obtain ⟨newer, hnewer, he⟩ := h'
  refine ⟨newer ++ new, fun r hr => ?_, by rw [he, hd, List.append_assoc]⟩
  exact (List.mem_append.mp hr).elim (hnewer r) (hnew r)

namespace Platform

variable {p q r : Platform κ} {a b : Address} {g : Nat} {V : Event → Prop} {c d : Context κ}
  {but : Option Address}

/-- Nobody came or went, nothing happened to actors and their messages (`Context.face`), and
receivers were at most armed. -/
structure Beside (V : Event → Prop) (p q : Platform κ) : Prop where
  faces : ∀ a, (q.context? a).map Context.face = (p.context? a).map Context.face
  next : q.nextGeneration = p.nextGeneration
  bus : p.bus.Grown (fun e => e.isAside = true ∨ V e) q.bus
  arms : ∀ a c d, p.context? a = some c → q.context? a = some d → c.Arms d

/-- Nor was a machine taken or put back (`Context.machine`). -/
structure Aloof (V : Event → Prop) (p q : Platform κ) : Prop extends Beside V p q where
  machines : ∀ a, (q.context? a).map Context.machine = (p.context? a).map Context.machine

/-- Contexts are changed, but not their faces (`Context.face`) and not their receivers. -/
theorem Beside.of_map (f : Address → Context κ → Context κ)
    (hf : ∀ a c, (f a c).face = c.face ∧ (f a c).receivers = c.receivers)
    (hc : ∀ a, q.context? a = (p.context? a).map (f a)) (hn : q.nextGeneration = p.nextGeneration)
    (hb : p.bus.Grown (fun e => e.isAside = true ∨ V e) q.bus) : Beside V p q := by
  refine ⟨fun a => ?_, hn, hb, fun a c d hp hq => ?_⟩
  · rw [hc, Option.map_map]
    exact congrArg (Option.map · _) (funext fun c => (hf a c).1)
  · rw [hc, hp, Option.map_some] at hq
    exact .of_eq (Option.some.inj hq ▸ (hf a c).2)

theorem Beside.of_contexts (hc : ∀ a, q.context? a = p.context? a)
    (hn : q.nextGeneration = p.nextGeneration)
    (hb : p.bus.Grown (fun e => e.isAside = true ∨ V e) q.bus) : Beside V p q :=
  .of_map (fun _ => id) (fun _ _ => ⟨rfl, rfl⟩) (fun a => by rw [hc, Option.map_id]; rfl) hn hb

theorem Beside.refl (p : Platform κ) : Beside V p p :=
  .of_contexts (fun _ => rfl) rfl (.refl _)

theorem Beside.context (h : Beside V p q) (hc : q.context? a = some c) :
    ∃ d, p.context? a = some d ∧ d.Alike c := by
  have hf := h.faces a
  rw [hc] at hf
  obtain ⟨d, hd, hface⟩ := Option.map_eq_some_iff.mp hf.symm
  exact ⟨d, hd, Context.alike_of_face hface⟩

theorem Beside.context' (h : Beside V p q) (hc : p.context? a = some c) :
    ∃ d, q.context? a = some d ∧ d.Alike c := by
  have hf := h.faces a
  rw [hc] at hf
  obtain ⟨d, hd, hface⟩ := Option.map_eq_some_iff.mp hf
  exact ⟨d, hd, Context.alike_of_face hface⟩

theorem Beside.trans (h : Beside V p q) (h' : Beside V q r) : Beside V p r := by
  refine ⟨fun a => (h'.faces a).trans (h.faces a), h'.next.trans h.next, h.bus.trans h'.bus,
    fun a c e hc he => ?_⟩
  obtain ⟨d, hd, -⟩ := h.context' hc
  exact (h.arms a c d hc hd).trans (h'.arms a d e hd he)

theorem Beside.generation? (h : Beside V p q) (a : Address) :
    q.generation? a = p.generation? a := by
  have hface (o : Option (Context κ)) : o.map Context.generation =
      (o.map Context.face).map Context.generation := by
    rw [Option.map_map]
    rfl
  unfold Platform.generation?
  rw [hface, h.faces a, ← hface]

theorem Aloof.refl (p : Platform κ) : Aloof V p p := ⟨.refl p, fun _ => rfl⟩

theorem Aloof.trans (h : Aloof V p q) (h' : Aloof V q r) : Aloof V p r :=
  ⟨h.toBeside.trans h'.toBeside, fun a => (h'.machines a).trans (h.machines a)⟩

theorem Aloof.context (h : Aloof V p q) (hc : q.context? a = some c) :
    ∃ d, p.context? a = some d ∧ d.Alike c ∧ d.machine = c.machine := by
  obtain ⟨d, hd, hlike⟩ := h.toBeside.context hc
  have hm := h.machines a
  rw [hc, hd] at hm
  exact ⟨d, hd, hlike, (Option.some.inj hm).symm⟩

theorem Aloof.of_contexts (hc : ∀ a, q.context? a = p.context? a)
    (hn : q.nextGeneration = p.nextGeneration)
    (hb : p.bus.Grown (fun e => e.isAside = true ∨ V e) q.bus) : Aloof V p q :=
  ⟨.of_contexts hc hn hb, fun a => by rw [hc a]⟩

theorem Aloof.enqueue (p : Platform κ) (a : Address) : Aloof V p (p.enqueue a) := by
  obtain ⟨_, _, _, h⟩ := enqueue_eq p a
  rw [h]
  exact .of_contexts (fun _ => rfl) rfl (.refl _)

theorem Aloof.publish (p : Platform κ) {e : Event} (he : e.isAside = true ∨ V e) :
    Aloof V p (p.publish e) :=
  .of_contexts (fun _ => rfl) rfl (.publish _ he)

theorem Aloof.raise (p : Platform κ) (a : Address) (e : ActorError) :
    Aloof V p (p.raiseAt a e) :=
  .of_contexts (fun _ => rfl) rfl (.publish _ (Or.inl rfl))

theorem Aloof.drop (p : Platform κ) (env : Envelope) : Aloof V p (p.dropMessage env) :=
  .publish p (Or.inl rfl)

theorem discardMail_aloof (p : Platform κ) (a : Address) :
    Aloof V (p.takeMail a).2 (p.discardMail a) := by
  unfold discardMail
  split
  · rename_i heq
    rw [heq]
    exact .drop _ _
  · rename_i heq
    rw [heq]
    exact .refl _

theorem Aloof.look (p : Platform κ) (a : Address) : Aloof V p (p.scheduleMail a) := by
  obtain ⟨_, _, _, _, h⟩ := scheduleMail_eq p a
  rw [h]
  exact .of_contexts (fun _ => rfl) rfl (.refl _)

theorem Aloof.arm (p : Platform κ) (a : Address) (t : Matcher) :
    Aloof V p (p.armReceiver a t) := by
  have hm : Aloof V p
      (p.modifyContext a fun c => { c with receivers := ⟨t, false⟩ :: c.receivers }) := by
    refine ⟨⟨fun b => ?_, rfl, .refl _, fun b c d hc hd => ?_⟩, fun b => ?_⟩
    · rw [context?_modifyContext_eq, Option.map_map]
      refine congrArg (Option.map · _) (funext fun c => ?_)
      dsimp only [Function.comp]
      split <;> rfl
    · rw [context?_modifyContext_eq, hc, Option.map_some] at hd
      obtain rfl := Option.some.inj hd
      split
      · exact ⟨[⟨t, false⟩], fun r hr => List.mem_singleton.mp hr ▸ rfl, rfl⟩
      · exact .of_eq rfl
    · rw [context?_modifyContext_eq, Option.map_map]
      refine congrArg (Option.map · _) (funext fun c => ?_)
      dsimp only [Function.comp]
      split <;> rfl
  exact hm.trans (.look _ a)

theorem Aloof.join (p : Platform κ) (group : String) (a : Address) :
    Aloof V p (p.putMember group a).2 := by
  unfold putMember
  dsimp only
  split
  · exact .refl p
  · exact .of_contexts (fun _ => rfl) rfl (.publish _ (Or.inl rfl))

theorem Aloof.part (p : Platform κ) (group : String) (a : Address) :
    Aloof V p (p.removeMember group a).2 := by
  obtain ⟨_, h⟩ := removeMember_eq p group a
  rw [h]
  exact .of_contexts (fun _ => rfl) rfl (.refl _)

theorem Aloof.putRoute (p : Platform κ) (target router : Address) :
    Aloof V p (p.putRoute target router) :=
  .of_contexts (fun _ => rfl) rfl (.publish _ (Or.inl rfl))

theorem Aloof.removeRoute (p : Platform κ) (target : Address) :
    Aloof V p (p.removeRoute target) := by
  unfold Platform.removeRoute
  split
  · exact .of_contexts (fun _ => rfl) rfl (.publish _ (Or.inl rfl))
  · exact .refl p

theorem Aloof.register (p : Platform κ) (a : Address) (task : κ.Task) :
    Aloof V p (p.registerTask a task).2 :=
  .of_contexts (fun _ => rfl) rfl (.publish _ (Or.inl rfl))

theorem Aloof.schedule (p : Platform κ) (a : Address) (g : Nat) (w : Work κ) :
    Aloof V p (p.schedule a g w) := by
  obtain ⟨_, _, _, h⟩ := schedule_eq p a g w
  rw [h]
  exact .of_contexts (fun _ => rfl) rfl (.refl _)

theorem Aloof.endTurn (p : Platform κ) (a : Address) (deferred : Bool) :
    Aloof V p (p.endTurn a deferred) := by
  cases deferred with
  | true => exact .of_contexts (fun _ => rfl) rfl (.refl _)
  | false =>
    obtain ⟨_, _, _, h⟩ := endTurn_eq p a
    rw [h]
    exact .of_contexts (fun _ => rfl) rfl (.refl _)

theorem Aloof.settle (p : Platform κ) (id : Nat) (o : Outcome) :
    Aloof V p (p.settle id o).2 := by
  cases he : p.entries.get? id with
  | none => rw [settle_none o he]; exact .refl p
  | some e =>
    obtain ⟨_, h⟩ := settle_some o he
    obtain ⟨_, _, _, hu⟩ := unblock_eq p e.owner id
    rw [h, hu]
    exact .of_contexts (fun _ => rfl) rfl (.publish _ (Or.inl rfl))

/-! ## What is lent stays lent -/

/-- What was lent on the way here and belongs to somebody who is still there is lent, and nobody has
come back or behaves in another way. -/
structure Kept (p q : Platform κ) : Prop where
  next : p.nextGeneration ≤ q.nextGeneration
  old : ∀ a c, q.context? a = some c → c.generation < p.nextGeneration →
    ∃ d, p.context? a = some d ∧ (d.generation = c.generation ∧ d.flags = c.flags) ∧
      (d.actor = none → c.actor = none) ∧ (d.machine = none → c.machine = none)

theorem Kept.refl (p : Platform κ) : Kept p p :=
  ⟨Nat.le_refl _, fun _ c hc _ => ⟨c, hc, ⟨rfl, rfl⟩, id, id⟩⟩

theorem Kept.trans (h : Kept p q) (h' : Kept q r) : Kept p r := by
  refine ⟨Nat.le_trans h.next h'.next, fun a c hc hg => ?_⟩
  obtain ⟨d, hd, hdc, hactor, hmachine⟩ := h'.old a c hc (Nat.lt_of_lt_of_le hg h.next)
  obtain ⟨e, he, hed, hactor', hmachine'⟩ := h.old a d hd (hdc.1 ▸ hg)
  exact ⟨e, he, ⟨hed.1.trans hdc.1, hed.2.trans hdc.2⟩, fun hn => hactor (hactor' hn),
    fun hn => hmachine (hmachine' hn)⟩

theorem Kept.of_contexts (hn : p.nextGeneration ≤ q.nextGeneration)
    (h : ∀ a c, q.context? a = some c → ∃ d, p.context? a = some d ∧
      (d.generation = c.generation ∧ d.flags = c.flags) ∧ (d.actor = none → c.actor = none) ∧
        (d.machine = none → c.machine = none)) : Kept p q :=
  ⟨hn, fun a c hc _ => h a c hc⟩

theorem Kept.modifyContext {f : Context κ → Context κ} (hf : ∀ c, p.context? a = some c →
    ((f c).generation = c.generation ∧ (f c).flags = c.flags) ∧
      (c.actor = none → (f c).actor = none) ∧ (c.machine = none → (f c).machine = none)) :
    Kept p (p.modifyContext a f) := by
  refine .of_contexts (Nat.le_refl _) fun b c hc => ?_
  rw [context?_modifyContext_eq] at hc
  obtain ⟨d, hd, rfl⟩ := Option.map_eq_some_iff.mp hc
  refine ⟨d, hd, ?_⟩
  split
  · rename_i hb
    obtain ⟨hgen, hactor, hmachine⟩ := hf d (hb ▸ hd)
    exact ⟨⟨hgen.1.symm, hgen.2.symm⟩, hactor, hmachine⟩
  · exact ⟨⟨rfl, rfl⟩, id, id⟩

theorem Aloof.kept (h : Aloof V p q) : Kept p q := by
  refine .of_contexts (Nat.le_of_eq h.next.symm) fun a c hc => ?_
  obtain ⟨d, hd, hlike, hm⟩ := h.context hc
  exact ⟨d, hd, ⟨hlike.generation, hlike.flags⟩, fun hn => hlike.actor ▸ hn, fun hn => hm ▸ hn⟩

/-- The machine belongs to an incarnation that has none at hand (`Context.machine`). -/
structure Held (p : Platform κ) (m : Machine κ) : Prop where
  old : m.generation < p.nextGeneration
  lent : ∀ c, p.context? m.address = some c → c.generation = m.generation → c.machine = none

theorem Held.kept {m : Machine κ} (h : p.Held m) (hk : Kept p q) : q.Held m := by
  refine ⟨Nat.lt_of_lt_of_le h.old hk.next, fun c hc hg => ?_⟩
  obtain ⟨d, hd, hdc, -, hmachine⟩ := hk.old m.address c hc (hg ▸ h.old)
  exact hmachine (h.lent d hd (hdc.1.trans hg))

theorem Held.kin {m m' : Machine κ} (h : p.Held m) (hm : m.Kin m') : p.Held m' := by
  refine ⟨hm.generation ▸ h.old, fun c hc hg => h.lent c (hm.address ▸ hc) ?_⟩
  exact hg.trans hm.generation

/-! ## Backlogs -/

/-- Idle actors (`Context.isIdle`) have no backlog, except at an address that is let off. -/
def FlushedBut (p : Platform κ) (but : Option Address) : Prop :=
  ∀ a c, some a ≠ but → p.context? a = some c → c.isIdle = true → c.backlog = []

theorem FlushedBut.mono (h : p.FlushedBut none) (but : Option Address) : p.FlushedBut but :=
  fun a c _ => h a c (by simp)

theorem FlushedBut.of_contexts (h : p.FlushedBut but) (hq : ∀ a c, q.context? a = some c →
    c.isIdle = true → c.backlog = [] ∨
      ∃ d, p.context? a = some d ∧ d.isIdle = true ∧ d.backlog = c.backlog) :
    q.FlushedBut but := by
  intro a c hne hc hidle
  rcases hq a c hc hidle with hnil | ⟨d, hd, hd', hback⟩
  · exact hnil
  · exact hback ▸ h a d hne hd hd'

theorem FlushedBut.aloof (h : p.FlushedBut but) (hpq : Aloof V p q) : q.FlushedBut but := by
  refine h.of_contexts fun a c hc hidle => Or.inr ?_
  obtain ⟨d, hd, hlike, hm⟩ := hpq.context hc
  refine ⟨d, hd, ?_, hlike.backlog⟩
  unfold Context.isIdle at hidle ⊢
  rw [hlike.actor, hm]
  exact hidle

theorem FlushedBut.modifyContext (h : p.FlushedBut but) {f : Context κ → Context κ}
    (hf : ∀ c, p.context? a = some c → (f c).isIdle = true → (f c).backlog = [] ∨
      c.isIdle = true ∧ (f c).backlog = c.backlog) : (p.modifyContext a f).FlushedBut but := by
  refine h.of_contexts fun b c hc hidle => ?_
  rw [context?_modifyContext_eq] at hc
  obtain ⟨d, hd, rfl⟩ := Option.map_eq_some_iff.mp hc
  split at hidle
  · rename_i hb
    rw [if_pos hb]
    rcases hf d (hb ▸ hd) hidle with hnil | ⟨hd', hback⟩
    · exact Or.inl hnil
    · exact Or.inr ⟨d, hd, hd', hback.symm⟩
  · rename_i hb
    rw [if_neg hb]
    exact Or.inr ⟨d, hd, hidle, rfl⟩

/-- A change of the context that is let off. -/
theorem FlushedBut.at (h : p.FlushedBut (some a)) (f : Context κ → Context κ) :
    (p.modifyContext a f).FlushedBut (some a) := by
  intro b c hb hc hidle
  rw [context?_modifyContext, if_neg fun he => hb (congrArg some he)] at hc
  exact h b c hb hc hidle

theorem takeBacklog_none (h : p.takeBacklog a = none)
    (hc : p.context? a = some c) (hidle : c.isIdle = true) : c.backlog = [] := by
  unfold takeBacklog at h
  rw [hc] at h
  dsimp only at h
  rw [hidle] at h
  cases hb : c.backlog with
  | nil => rfl
  | cons env rest =>
    rw [hb] at h
    exact absurd h (by simp)

theorem takeBacklog_some {env : Envelope} (h : p.takeBacklog a = some (env, q)) :
    ∃ c rest, p.context? a = some c ∧ c.isIdle = true ∧
      c.backlog = env :: rest ∧ q = p.modifyContext a fun c => { c with backlog := rest } := by
  unfold takeBacklog at h
  split at h
  · rename_i c hc
    split at h
    · rename_i hidle hback
      obtain ⟨rfl, rfl⟩ := Prod.mk.inj (Option.some.inj h)
      exact ⟨c, _, hc, hidle, hback, rfl⟩
    · exact absurd h (by simp)
  · exact absurd h (by simp)

end Platform

/-! ## Changes of the stage -/

open Platform

/-- The two ways in which messages reach an actor: in its mailbox, or in its own hands. -/
inductive Way
  | mail
  | hand
  deriving DecidableEq

/-- The way of a message to whoever lives at an address, as `Flow.deliverAt` has it. Those who are
not buffered take all messages in their own hands, and a buffered router those that are meant for
others. -/
def Context.way (c : Context κ) (a : Address) (env : Envelope) : Way :=
  if c.isBuffered && !(env.target != a && c.flags.router) then .mail else .hand

/-- Only buffered actors get messages in their mailbox (`Way.mail`). -/
theorem Context.isBuffered_of_way {c : Context κ} {a : Address} {env : Envelope}
    (h : c.way a env = .mail) : c.isBuffered = true := by
  unfold way at h
  split at h
  · rename_i hb
    exact (Bool.and_eq_true_iff.mp hb).1
  · exact absurd h (by simp)

/-- What a change has left to do: a message is to be put into its place, an actor is to act, or to
be removed. -/
inductive Due (κ : App)
  /-- An actor accepted a message: it is put into its place next. -/
  | arrival (a : Address) (env : Envelope)
  /-- An incarnation is to act on an occasion next. -/
  | hook (a : Address) (g : Nat) (hook : Hook)
  /-- The actor has been taken out: its code runs next. -/
  | opening (a : Address) (g : Nat) (hook : Hook) (actor : κ.Actor)
  /-- Its code has run: it is put back next. -/
  | closing (a : Address) (g : Nat) (hook : Hook) (actor : κ.Actor)
  /-- An incarnation is temporary and has received its message: it is removed next. -/
  | parting (a : Address) (g : Nat)

/-- The way of the messages on which an actor acts (`Hook.accept`, `Hook.receive`). -/
def Hook.way : Hook → Option Way
  | .run => none
  | .accept _ => some .hand
  | .receive _ _ => some .mail

namespace Due

/-- What is due once an actor is back from its code: a temporary one that has received is removed
(`Flags.temporary`). -/
def afterwards (c : Context κ) (a : Address) (hook : Hook) : Option (Due κ) :=
  if c.flags.temporary = true ∧ hook.way = some .mail then some (.parting a c.generation) else none

/-- Nothing is due, or that an incarnation is removed. -/
inductive Leaves (a : Address) (g : Nat) : Option (Due κ) → Prop
  | nothing : Leaves a g none
  | parting : Leaves a g (some (.parting a g))

theorem leaves_afterwards (c : Context κ) (a : Address) (hook : Hook) :
    Leaves a c.generation (afterwards c a hook) := by
  unfold afterwards
  split
  · exact .parting
  · exact .nothing

/-- Nothing is due, but that an incarnation is removed that is gone. -/
inductive Done (p : Platform κ) : Option (Due κ) → Prop
  | nothing : Done p none
  | gone {a : Address} {g : Nat} : p.isCurrent a g = false → Done p (some (.parting a g))

end Due

variable {same : κ.World → κ.World → Prop} {code : Code κ} {V : Event → Prop} {s t u : Stage κ}
  {a b : Address} {c : Context κ}

/-- What is made of a stage in one go, and what is due before and after. The state of the
application only changes as `same` allows, except that an actor whose incarnation has gone gets its
last call. -/
inductive Move (code : Code κ) (V : Event → Prop) (same : κ.World → κ.World → Prop) :
    Option (Due κ) → Stage κ → Option (Due κ) → Stage κ → Prop
  | beside {x : Option (Due κ)} {s t : Stage κ} :
      Beside V s.platform t.platform → same s.world t.world → Move code V same x s x t
  | accept {a : Address} {env : Envelope} {c : Context κ} {s : Stage κ} :
      s.platform.context? a = some c →
        Move code V same none s (some (.arrival a env)) (s.edit (·.publish (.accepted a env)))
  | mail {a : Address} {env : Envelope} {c : Context κ} {s : Stage κ} :
      s.platform.context? a = some c → c.way a env = .mail →
        Move code V same (some (.arrival a env)) s none
          (s.edit fun p => (p.putMail a env).scheduleMail a)
  | hand {a : Address} {env : Envelope} {c : Context κ} {s : Stage κ} :
      s.platform.context? a = some c → c.way a env = .hand →
        Move code V same (some (.arrival a env)) s none (s.edit (·.putBacklog a env))
  | takeMail {s : Stage κ} (a : Address) :
      Move code V same none s none { s with platform := (s.platform.takeMail a).2 }
  | discard {s : Stage κ} (a : Address) :
      Move code V same none s none (s.edit (·.discardMail a))
  | takeMatch {a : Address} {hit : Match} {p : Platform κ} {c : Context κ} {s : Stage κ} :
      s.platform.context? a = some c → c.actor ≠ none → s.platform.takeMatch a = some (hit, p) →
        Move code V same none s (some (.hook a c.generation (.receive hit.tag hit.envelope)))
          { s with platform := p.publish (.received a hit.tag hit.envelope) }
  | takeBacklog {a : Address} {env : Envelope} {p : Platform κ} {c : Context κ} {s : Stage κ} :
      s.platform.context? a = some c → s.platform.takeBacklog a = some (env, p) →
        Move code V same none s (some (.hook a c.generation (.accept env)))
          { s with platform := p }
  /-- The actor is taken out, to act on an occasion that is due or on being started. -/
  | out {a : Address} {c : Context κ} {actor : κ.Actor} {hook : Hook} {x : Option (Due κ)}
      {s : Stage κ} :
      s.platform.context? a = some c → c.actor = some actor →
        (x = some (.hook a c.generation hook) ∨ x = none ∧ hook = .run) →
          Move code V same x s (some (.opening a c.generation hook actor))
            (s.edit (·.modifyContext a fun c => { c with actor := none }))
  | back {a : Address} {c : Context κ} {hook : Hook} {actor : κ.Actor} {s : Stage κ} :
      s.platform.context? a = some c → c.actor = none →
        Move code V same (some (.closing a c.generation hook actor)) s (Due.afterwards c a hook)
          (s.edit (·.modifyContext a fun c => { c with actor := some actor }))
  | gone {a : Address} {g : Nat} {hook : Hook} {actor : κ.Actor} {y : Option (Due κ)}
      {s : Stage κ} :
      s.platform.isCurrent a g = false → Due.Leaves a g y →
        Move code V same (some (.closing a g hook actor)) s y
          { s with world := code.stop actor s.world }

/-- In a `Move` nobody comes or goes (`Platform.generation?`). -/
theorem Move.generations {x y : Option (Due κ)} (h : Move code V same x s y t) :
    t.platform.nextGeneration = s.platform.nextGeneration ∧
      ∀ a, t.platform.generation? a = s.platform.generation? a := by
  have changed {b : Address} {f : Context κ → Context κ} (hf : ∀ c, (f c).generation = c.generation)
      (a : Address) : (s.platform.modifyContext b f).generation? a = s.platform.generation? a :=
    generation?_modifyContext hf
  cases h with
  | beside hb => exact ⟨hb.next, hb.generation?⟩
  | accept => exact ⟨rfl, fun _ => rfl⟩
  | @mail b env =>
    have hlook : Aloof V (s.platform.putMail b env) _ := .look _ b
    exact ⟨hlook.next, fun a => (hlook.generation? a).trans
      (changed (f := fun c => c.mapMailbox (· ++ [env])) (fun _ => rfl) a)⟩
  | discard b =>
    have hdrop : Aloof V (s.platform.takeMail b).2 _ := discardMail_aloof s.platform b
    exact ⟨hdrop.next, fun a => (hdrop.generation? a).trans
      (changed (f := fun c => c.mapMailbox List.tail) (fun _ => rfl) a)⟩
  | takeMatch _ _ htake =>
    obtain ⟨_, _, _, _, -, -, -, -, -, rfl⟩ := takeMatch_eq htake
    exact ⟨rfl, changed fun _ => rfl⟩
  | takeBacklog _ htake =>
    obtain ⟨_, _, -, -, -, rfl⟩ := takeBacklog_some htake
    exact ⟨rfl, changed fun _ => rfl⟩
  | gone => exact ⟨rfl, fun _ => rfl⟩
  | hand | takeMail | out | back => exact ⟨rfl, changed fun _ => rfl⟩

/-- What allocating and removing actors is made of (`Stage.install`, `Stage.remove`). -/
inductive Tend (code : Code κ) (same : κ.World → κ.World → Prop) (s : Stage κ) : Stage κ → Prop
  | think {w : κ.World} : same s.world w → Tend code same s { s with world := w }
  | install {a : Address} {t : Template κ} :
      s.platform.TableInv → s.platform.context? a = none → Tend code same s (s.install code a t)
  | remove (a : Address) : Tend code same s (s.remove code a)

/-- Allocating and removing actors (`Tend`, one after the other). -/
def Tended (code : Code κ) (same : κ.World → κ.World → Prop) : Stage κ → Stage κ → Prop :=
  Relation.ReflTransGen (Tend code same)

/-! ## Installing and removing -/

namespace Stage

/-- Joining groups (`Platform.putMember`) changes these and the bus only, which tells of members. -/
theorem join_eq (a : Address) (groups : List String) (p : Platform κ) : ∃ sets bus,
    groups.foldl (fun p g => (p.putMember g a).2) p = { p with groups := sets, bus } ∧
      p.bus.Grown (fun e => e.kind = .memberAdded) bus := by
  induction groups generalizing p with
  | nil => exact ⟨p.groups, p.bus, rfl, .refl _⟩
  | cons g groups ih =>
    obtain ⟨sets, bus, h, hg⟩ := ih (p.putMember g a).2
    have hjoin : p.bus.Grown (fun e => e.kind = .memberAdded) (p.putMember g a).2.bus := by
      unfold putMember
      dsimp only
      split
      · exact .refl _
      · exact .publish _ rfl
    obtain ⟨_, _, he, -, -⟩ := putMember_eq p g a
    refine ⟨sets, bus, ?_, hjoin.trans hg⟩
    rw [List.foldl_cons, h, he]

/-- The context of the actor that is installed (`Context.new`). -/
def newcomer (code : Code κ) (t : Template κ) (s : Stage κ) : κ.Actor :=
  (code.build t.factory t.args s.world).1

/-- Installing an actor (`Stage.install`) builds it, tells of it and lets it join its groups. -/
theorem install_eq (code : Code κ) (a : Address) (t : Template κ) (s : Stage κ) :
    ∃ sets bus, s.install code a t =
      { s with
        platform := { s.platform.enrol a (s.newcomer code t)
          (code.init (s.newcomer code t) (code.build t.factory t.args s.world).2).1 t with
            groups := sets, bus }
        world := (code.init (s.newcomer code t) (code.build t.factory t.args s.world).2).2 } ∧
      (s.platform.bus.publish (.about .actorAllocated a)).Grown (fun e => e.kind = .memberAdded)
        bus := by
  obtain ⟨sets, bus, h, hg⟩ := join_eq a t.groups (s.platform.enrol a (s.newcomer code t)
    (code.init (s.newcomer code t) (code.build t.factory t.args s.world).2).1 t)
  refine ⟨sets, bus, ?_, hg⟩
  rw [← h]
  rfl

theorem context?_install (code : Code κ) (a : Address) (t : Template κ) (s : Stage κ) :
    (s.install code a t).platform.context? b = if b = a
      then some (.new a s.platform.nextGeneration s.platform.config.frameLimit (s.newcomer code t)
        (code.init (s.newcomer code t) (code.build t.factory t.args s.world).2).1 t)
      else s.platform.context? b := by
  obtain ⟨_, _, h, -⟩ := install_eq code a t s
  rw [h]
  exact context?_enrol _ _ _

theorem nextGeneration_install (code : Code κ) (a : Address) (t : Template κ) (s : Stage κ) :
    (s.install code a t).platform.nextGeneration = s.platform.nextGeneration + 1 := by
  obtain ⟨_, _, h, -⟩ := install_eq code a t s
  rw [h]
  rfl

/-- Removing an actor (`Stage.remove`) that is not there does nothing. -/
theorem remove_none (code : Code κ) (h : s.platform.context? a = none) : s.remove code a = s := by
  unfold remove
  rw [h]

/-- Removing an actor dismisses it (`Platform.dismiss`), and it gets its last call if it is at hand.
-/
theorem remove_some (code : Code κ) (h : s.platform.context? a = some c) :
    s.remove code a =
      { s with
        platform := s.platform.dismiss a
        world := match c.actor with
          | some actor => code.stop actor s.world
          | none => s.world } := by
  unfold remove
  rw [h]
  rfl

theorem context?_remove (code : Code κ) (a : Address) (s : Stage κ) :
    (s.remove code a).platform.context? b = if b = a then none else s.platform.context? b := by
  cases h : s.platform.context? a with
  | none =>
    rw [remove_none code h]
    split
    · rename_i hb
      rw [hb, h]
    · rfl
  | some c =>
    rw [remove_some code h]
    exact context?_dismiss

theorem nextGeneration_remove (code : Code κ) (a : Address) (s : Stage κ) :
    (s.remove code a).platform.nextGeneration = s.platform.nextGeneration := by
  cases h : s.platform.context? a with
  | none => rw [remove_none code h]
  | some c =>
    rw [remove_some code h]
    obtain ⟨_, _, hd, -⟩ := dismiss_eq s.platform a
    rw [hd]

end Stage

/-! ## Tending -/

open Stage

/-- Whoever lives somewhere after tending to actors lived there before, or has just come
(`newcomer`). -/
theorem Tend.context (h : Tend code same s t) :
    s.platform.nextGeneration ≤ t.platform.nextGeneration ∧
      ∀ a c, t.platform.context? a = some c → s.platform.context? a = some c ∨
        ∃ n actor bh tmpl, s.platform.nextGeneration ≤ c.generation ∧
          c = .new a c.generation n actor bh tmpl := by
  cases h with
  | think => exact ⟨Nat.le_refl _, fun a c hc => Or.inl hc⟩
  | @install b tmpl _ _ =>
    refine ⟨by rw [nextGeneration_install]; exact Nat.le_succ _, fun a c hc => ?_⟩
    rw [context?_install] at hc
    split at hc
    · rename_i ha
      obtain rfl := Option.some.inj hc
      exact Or.inr ⟨_, _, _, _, Nat.le_refl _, by rw [ha]; rfl⟩
    · exact Or.inl hc
  | remove b =>
    refine ⟨by rw [nextGeneration_remove], fun a c hc => ?_⟩
    rw [context?_remove] at hc
    split at hc
    · exact absurd hc (by simp)
    · exact Or.inl hc

/-- **Tending to actors** leaves the others alone, and new ones are really new. -/
theorem Tended.context (h : Tended code same s t) :
    s.platform.nextGeneration ≤ t.platform.nextGeneration ∧
      ∀ a c, t.platform.context? a = some c → s.platform.context? a = some c ∨
        ∃ n actor bh tmpl, s.platform.nextGeneration ≤ c.generation ∧
          c = .new a c.generation n actor bh tmpl := by
  induction h with
  | refl => exact ⟨Nat.le_refl _, fun a c hc => Or.inl hc⟩
  | tail _ hstep ih =>
    obtain ⟨hle, hold⟩ := ih
    obtain ⟨hle', hold'⟩ := hstep.context
    refine ⟨Nat.le_trans hle hle', fun a c hc => ?_⟩
    rcases hold' a c hc with hc | ⟨n, actor, bh, tmpl, hnew, hform⟩
    · exact hold a c hc
    · exact Or.inr ⟨n, actor, bh, tmpl, Nat.le_trans hle hnew, hform⟩

/-- Whoever lives somewhere is older than the next one to come. -/
theorem Tended.fresh (h : Tended code same s t)
    (hs : ∀ a c, s.platform.context? a = some c → c.generation < s.platform.nextGeneration)
    (hc : t.platform.context? a = some c) : c.generation < t.platform.nextGeneration := by
  induction h generalizing a c with
  | refl => exact hs a c hc
  | tail _ hstep ih =>
    cases hstep with
    | think => exact ih hc
    | install =>
      rw [context?_install] at hc
      rw [nextGeneration_install]
      split at hc
      · exact Option.some.inj hc ▸ Nat.lt_succ_self _
      · exact Nat.lt_succ_of_lt (ih hc)
    | remove =>
      rw [context?_remove] at hc
      rw [nextGeneration_remove]
      split at hc
      · exact absurd hc (by simp)
      · exact ih hc

/-- Tending to actors tells of those who come and go (`Event.coming`), and of members. -/
theorem Tended.tells (h : Tended code same s t) : s.platform.bus.Grown (fun e =>
    e.kind = .actorAllocated ∨ e.kind = .actorRemoved ∨ e.kind = .memberAdded) t.platform.bus := by
  induction h with
  | refl => exact .refl _
  | @tail t _ _ hstep ih =>
    refine ih.trans ?_
    cases hstep with
    | think => exact .refl _
    | @install a tmpl =>
      obtain ⟨_, _, heq, hg⟩ := install_eq code a tmpl t
      rw [heq]
      exact (Bus.Grown.publish _ (Or.inl rfl)).trans (hg.mono fun _ he => Or.inr (Or.inr he))
    | remove a =>
      cases hc : t.platform.context? a with
      | none =>
        rw [remove_none code hc]
        exact .refl _
      | some c =>
        obtain ⟨_, _, hd, -⟩ := dismiss_eq t.platform a
        rw [remove_some code hc, hd]
        exact .publish _ (Or.inr (Or.inl rfl))

/-- Tending to actors accepts and receives no messages. -/
theorem Tended.bus (h : Tended code same s t) : s.platform.bus.Grown
    (fun e => e.kind ≠ .messageAccepted ∧ e.kind ≠ .messageReceived) t.platform.bus := by
  refine h.tells.mono fun e he => ?_
  rcases he with he | he | he <;> simp [he]

theorem Tended.kept (h : Tended code same s t) : Kept s.platform t.platform := by
  obtain ⟨hle, hold⟩ := h.context
  refine ⟨hle, fun a c hc hg => ?_⟩
  rcases hold a c hc with hc | ⟨_, _, _, _, hnew, -⟩
  · exact ⟨c, hc, ⟨rfl, rfl⟩, id, id⟩
  · exact absurd hg (Nat.not_lt.mpr hnew)

theorem Tended.flushed {but : Option Address} (h : Tended code same s t)
    (hs : s.platform.FlushedBut but) : t.platform.FlushedBut but := by
  refine hs.of_contexts fun a c hc hidle => ?_
  rcases h.context.2 a c hc with hc | ⟨_, _, _, _, -, hform⟩
  · exact Or.inr ⟨c, hc, hidle, rfl⟩
  · rw [hform]
    exact Or.inl rfl

theorem terminateWithin_tended (n : Nat) (a : Address) (s : Stage κ) :
    Tended code same s (s.terminateWithin code n a) := by
  induction n generalizing a s with
  | zero => exact .refl
  | succ n ih =>
    have all (as : List Address) (s : Stage κ) :
        Tended code same s (as.foldl (fun s c => s.terminateWithin code n c) s) := by
      induction as generalizing s with
      | nil => exact .refl
      | cons a as ihs => exact Relation.ReflTransGen.trans (ih a s) (ihs _)
    rw [terminateWithin]
    split
    · dsimp only
      split
      · exact all _ s
      · exact .tail (all _ s) (.remove a)
    · exact .refl

/-- **Removing actors** (`Stage.terminate`) is tending. -/
theorem terminate_tended (a : Address) (s : Stage κ) : Tended code same s (s.terminate code a) :=
  terminateWithin_tended _ a s

theorem place_tended (hrefl : ∀ w, same w w) (hid : ∀ w, same w (code.freshId w).2)
    (parent : Address) (id : Option String) (s : Stage κ) :
    Tended code same s (s.place code parent id).2 := by
  have think (w : κ.World) (hw : same s.world w) : Tended code same s { s with world := w } :=
    .single (.think hw)
  unfold place
  split
  · exact .refl
  · cases id with
    | some id =>
      dsimp only
      split
      · exact think _ (hrefl _)
      · split <;> exact think _ (hrefl _)
    | none =>
      dsimp only
      split
      · exact think _ (hid _)
      · split <;> exact think _ (hid _)

mutual

/-- **Allocating actors** (`Stage.allocate`) is tending. -/
theorem allocate_tended (hrefl : ∀ w, same w w) (hid : ∀ w, same w (code.freshId w).2)
    (parent : Address) : ∀ (t : Template κ) (s : Stage κ), s.platform.TableInv →
      Tended code same s (allocate code parent t s).2
  | .mk id factory args trap groups children, s, h => by
    rw [allocate]
    have hplace := place_tended hrefl hid parent id s
    obtain ⟨hsame, hfree⟩ := place_platform code parent id s
    generalize s.place code parent id = placed at hplace hsame hfree
    obtain ⟨_ | ⟨text, a⟩, s'⟩ := placed
    · exact hplace
    · obtain ⟨hroot, hdiscard, hparent, hnone, hid'⟩ := hfree text a rfl
      dsimp only at hsame
      rw [← hsame] at h hparent hnone
      have hup : Upkeep s'.platform
          (s'.install code a (.mk (some text) factory args trap groups children)).platform :=
        install_upkeep hroot hdiscard hparent hnone (congrArg some hid'.symm)
      have hall := allocateAll_tended hrefl hid a children _ (TableInv.upkeep hup h)
      have hdone := Relation.ReflTransGen.trans
        (Relation.ReflTransGen.tail hplace (.install h hnone)) hall
      dsimp only
      split
      · rename_i heq
        rw [heq] at hdone
        exact hdone
      · rename_i heq
        rw [heq] at hdone
        exact Relation.ReflTransGen.trans hdone (terminate_tended a _)

theorem allocateAll_tended (hrefl : ∀ w, same w w) (hid : ∀ w, same w (code.freshId w).2)
    (parent : Address) : ∀ (ts : List (Template κ)) (s : Stage κ), s.platform.TableInv →
      Tended code same s (allocateAll code parent ts s).2
  | [], _, _ => .refl
  | t :: ts, s, h => by
    rw [allocateAll]
    have hfirst := allocate_tended hrefl hid parent t s h
    have hup := allocate_upkeep code parent t s h
    split
    · rename_i heq
      rw [heq] at hfirst
      exact hfirst
    · rename_i heq
      rw [heq] at hfirst hup
      exact Relation.ReflTransGen.trans hfirst
        (allocateAll_tended hrefl hid parent ts _ (TableInv.upkeep hup h))

end

/-- Judging an error (`Stage.judge`) goes on beside the actors. -/
theorem judge_aloof (hrefl : ∀ w, same w w) (htrans : ∀ v w x, same v w → same w x → same v x)
    (hjudge : ∀ trap e w, same w (code.judge trap e w).2) (r : Raised κ) (levels : List Address)
    (s : Stage κ) : Aloof V s.platform (judge code r levels s).2.platform ∧
      same s.world (judge code r levels s).2.world := by
  induction levels generalizing s with
  | nil => exact ⟨.refl _, hrefl _⟩
  | cons level above ih =>
    have onward (next : Stage κ) (hp : Aloof V s.platform next.platform)
        (hn : same s.world next.world) : Aloof V s.platform (judge code r above next).2.platform ∧
          same s.world (judge code r above next).2.world :=
      ⟨hp.trans (ih next).1, htrans _ _ _ hn (ih next).2⟩
    rw [judge]
    cases s.platform.trapAt? r level with
    | none =>
      dsimp only
      split
      · exact ⟨.refl _, hrefl _⟩
      · exact onward _ (.publish s.platform (Or.inl rfl)) (hrefl _)
    | some trap =>
      have hw := hjudge trap r.error s.world
      dsimp only
      split
      · exact ⟨.refl _, hw⟩
      · exact ⟨.refl _, hw⟩
      · exact ⟨.publish _ (Or.inl rfl), hw⟩
      · split
        · exact ⟨.refl _, hw⟩
        · exact onward _ (.publish s.platform (Or.inl rfl)) hw

end Troupe
