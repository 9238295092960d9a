import Mathlib.Logic.Relation
import Troupe.Platform.Mail
import Troupe.Proofs.Event.Tidings
import Troupe.Proofs.Machine.Ownership
import Troupe.Stage.Removal
import Troupe.Table.Lemmas

/-!
# What a step of the platform's work can do

The work of a platform nests to any depth, but all of it is made of few changes.

* `Platform.Step`: what scripts, hooks and deliveries do. Two of them change who lives where:
  `Platform.enrol` puts a new incarnation at an address (what `alloc_actor` does to the table),
  `Platform.dismiss` takes one away (what `terminate` does).
* `Platform.Loan`: an actor or a machine is taken out of its context (`checkout_instance`,
  `checkout_runtime`).
* `Platform.Turning`: what only working off the queues (`drain`) and operations from outside do
  besides.
* `Platform.Dealing`: tasks are asked and settled, and between operations the application does what
  it likes with the bus.

`Nested`, `Rounds` and `Outer` are sequences of these: the work inside of a call, all work but that
on tasks, and all work. Every invariant of the platform is kept by each of these changes, and so by
all work (`Nested.keeps`, `Rounds.keeps`, `Outer.keeps`).

Beside each function of the scheduler stands an equation that says which fields it touches
(`enqueue_eq`, `schedule_eq`, `scheduleMail_eq`, `unblock_eq`, `settle_eq`, `endTurn_eq`,
`dismiss_eq`), so that no later proof unfolds it.

An actor or a machine that is taken out for a while is *lent* (`ActorLent`, `MachineLent`).
`Repaid p q` says that nothing is lent at `q` that was not lent at `p`.

Headlines:
* **`Step.repaid`**: steps leave nothing lent.
* `Upkeep.still`: allocating and removing actors queues and raises nothing and stops nobody.
* `turn_slot`, `turn_skipped`, `turn_idle`: what the next turn is.
-/

namespace Troupe

variable {κ : App}

/-- A sound machine (`Machine.Sound`) of an incarnation with no script on it, and with room for one.
-/
structure Machine.AtRest (m : Machine κ) (a : Address) (g : Nat) : Prop where
  address : m.address = a
  generation : m.generation = g
  frames : m.frames = []
  room : 0 < m.maxFrames
  sound : m.Sound

namespace Platform

variable {p q r : Platform κ} {a b : Address} {g : Nat}

/-! ## Contexts after a change -/

theorem isLive_iff : p.isLive a = true ↔ ∃ c, p.context? a = some c := by
  rw [isLive, Table.contains_eq, Option.isSome_iff_exists]
  rfl

theorem isCurrent_iff : p.isCurrent a g = true ↔ ∃ c, p.context? a = some c ∧ c.generation = g := by
  simp only [isCurrent, generation?, beq_iff_eq, Option.map_eq_some_iff]

theorem context?_modifyContext (f : Context κ → Context κ) :
    (p.modifyContext a f).context? b = if b = a then (p.context? a).map f else p.context? b :=
  Table.get?_modify _ _ _ _

theorem context?_modifyContext_eq (f : Context κ → Context κ) :
    (p.modifyContext a f).context? b = (p.context? b).map fun c => if b = a then f c else c := by
  rw [context?_modifyContext]
  split
  · rename_i h
    rw [h]
  · simp

theorem modifyContext_congr {f g : Context κ → Context κ}
    (h : ∀ c, p.context? a = some c → f c = g c) :
    p.modifyContext a f = p.modifyContext a g := by
  have htable : p.contexts.modify a f = p.contexts.modify a g := by
    refine Table.ext_get? fun k => ?_
    rw [Table.get?_modify, Table.get?_modify]
    by_cases hk : k = a
    · rw [if_pos hk, if_pos hk]
      exact Option.map_congr h
    · rw [if_neg hk, if_neg hk]
  unfold modifyContext
  rw [htable]

theorem modifyContext_id (p : Platform κ) (a : Address) : p.modifyContext a id = p := by
  have htable : p.contexts.modify a id = p.contexts := by
    refine Table.ext_get? fun k => ?_
    rw [Table.get?_modify]
    by_cases hk : k = a
    · rw [if_pos hk, Option.map_id, hk]
      rfl
    · rw [if_neg hk]
  unfold modifyContext
  rw [htable]

theorem modifyContext_modifyContext (p : Platform κ) (a : Address) (f g : Context κ → Context κ) :
    (p.modifyContext a f).modifyContext a g = p.modifyContext a (g ∘ f) := by
  have htable : (p.contexts.modify a f).modify a g = p.contexts.modify a (g ∘ f) := by
    refine Table.ext_get? fun k => ?_
    simp only [Table.get?_modify]
    by_cases hk : k = a
    · simp [hk]
    · simp [hk]
  unfold modifyContext
  rw [htable]

/-- What is changed and changed back is as it was (`modifyContext`). -/
theorem modifyContext_back {c : Context κ} (hc : p.context? a = some c)
    {f g : Context κ → Context κ} (h : g (f c) = c) : (p.modifyContext a f).modifyContext a g = p := by
  rw [modifyContext_modifyContext]
  refine (modifyContext_congr fun d hd => ?_).trans (p.modifyContext_id a)
  obtain rfl := Option.some.inj (hc.symm.trans hd)
  exact h

/-- Queueing an address (`enqueue`) changes the queues only. -/
theorem enqueue_eq (p : Platform κ) (a : Address) : ∃ queued runQueue waitQueue,
    p.enqueue a = { p with queued, runQueue, waitQueue } := by
  unfold enqueue
  split
  · exact ⟨_, _, _, rfl⟩
  · split <;> exact ⟨_, _, _, rfl⟩

/-- Scheduling (`schedule`) changes the queues and the slots of the address only. -/
theorem schedule_eq (p : Platform κ) (a : Address) (g : Nat) (w : Work κ) :
    ∃ queued runQueue waitQueue, p.schedule a g w =
      { p with
        pending := p.pending.insert a ((p.pending.get? a).getD [] ++ [⟨g, w⟩])
        queued, runQueue, waitQueue } :=
  enqueue_eq _ a

/-- Looking after the mailbox (`scheduleMail`) changes the queues and slots only. -/
theorem scheduleMail_eq (p : Platform κ) (a : Address) : ∃ pending queued runQueue waitQueue,
    p.scheduleMail a = { p with pending, queued, runQueue, waitQueue } := by
  unfold scheduleMail
  split
  · exact ⟨_, _, _, _, rfl⟩
  · dsimp only
    split
    · exact ⟨_, _, _, _, rfl⟩
    · obtain ⟨_, _, _, h⟩ := schedule_eq p a ‹Context κ›.generation .mail
      exact ⟨_, _, _, _, h⟩

@[simp] theorem context?_enqueue : (p.enqueue a).context? b = p.context? b := by
  obtain ⟨_, _, _, h⟩ := enqueue_eq p a
  rw [h]
  rfl

@[simp] theorem context?_schedule (w : Work κ) :
    (p.schedule a g w).context? b = p.context? b := by
  obtain ⟨_, _, _, h⟩ := schedule_eq p a g w
  rw [h]
  rfl

@[simp] theorem context?_scheduleMail : (p.scheduleMail a).context? b = p.context? b := by
  obtain ⟨_, _, _, _, h⟩ := scheduleMail_eq p a
  rw [h]
  rfl

/-- Freeing an address from a task (`unblock`) changes the queues and the blocked sets only. -/
theorem unblock_eq (p : Platform κ) (a : Address) (id : Nat) : ∃ blocked runQueue waitQueue,
    p.unblock a id = { p with blocked, runQueue, waitQueue } := by
  unfold unblock
  split
  · exact ⟨_, _, _, rfl⟩
  · dsimp only
    split
    · exact ⟨_, _, _, rfl⟩
    · split <;> exact ⟨_, _, _, rfl⟩

/-- A turn (`turn`) is given up by an address that is blocked, which then waits, or that has no
slots. -/
theorem turn_skipped (h : p.turn = .skipped q) : ∃ a rest, p.runQueue = a :: rest ∧
    ((p.isBlocked a = true ∧ q =
        { p with
          runQueue := rest
          queued := KeySet.put (p.queued.erase a) a
          waitQueue := p.waitQueue ++ [a] }) ∨
      ((∀ s slots, p.pending.get? a ≠ some (s :: slots)) ∧
        q = { p with runQueue := rest, queued := p.queued.erase a })) := by
  unfold turn at h
  split at h
  · exact absurd h (by simp)
  · rename_i a rest hr
    refine ⟨a, rest, hr, ?_⟩
    dsimp only at h
    split at h
    · rename_i hb
      exact Or.inl ⟨hb, (Turn.skipped.inj h).symm⟩
    · split at h
      · rename_i hp
        refine Or.inr ⟨fun s slots hs => ?_, (Turn.skipped.inj h).symm⟩
        simp only [popSlot, hs] at hp
        exact absurd hp (by simp)
      · exact absurd h (by simp)

/-- A turn (`turn`) that runs a slot takes the oldest one of the next address. -/
theorem turn_slot {s : Slot κ} (h : p.turn = .slot a s q) : ∃ rest slots,
    p.runQueue = a :: rest ∧ p.isBlocked a = false ∧ p.pending.get? a = some (s :: slots) ∧ q =
      { p with
        runQueue := rest
        queued := p.queued.erase a
        pending := if slots.isEmpty then p.pending.erase a else p.pending.insert a slots
        running := p.running.insert a s } := by
  unfold turn at h
  split at h
  · exact absurd h (by simp)
  · rename_i b rest hr
    dsimp only at h
    split at h
    · exact absurd h (by simp)
    · rename_i hb
      simp only [popSlot] at h
      split at h
      · exact absurd h (by simp)
      · rename_i s' p' hp
        obtain ⟨rfl, rfl, rfl⟩ := Turn.slot.inj h
        split at hp
        · rename_i slots hs
          obtain ⟨rfl, rfl⟩ := Prod.mk.inj (Option.some.inj hp)
          exact ⟨rest, slots, hr, by simpa [isBlocked] using hb, hs, rfl⟩
        · exact absurd hp (by simp)

/-- There is no next turn (`turn`) just when nobody waits for it. -/
theorem turn_idle (h : p.turn = .idle) : p.runQueue = [] := by
  unfold turn at h
  split at h
  · assumption
  · dsimp only at h
    split at h
    · exact absurd h (by simp)
    · split at h <;> exact absurd h (by simp)

theorem unblock_with (p : Platform κ) (entries : Table Nat TaskEntry) (bus : Bus) (a : Address)
    (id : Nat) : unblock { p with entries, bus } a id = { p.unblock a id with entries, bus } := by
  cases hb : p.blocked.get? a with
  | none => simp only [unblock, hb]
  | some ids =>
    simp only [unblock, hb]
    split
    · rfl
    · split <;> rfl

/-- Settling a task (`settle`) that is not on record does nothing. -/
theorem settle_none {id : Nat} (o : Outcome) (h : p.entries.get? id = none) :
    (p.settle id o).2 = p := by
  simp only [settle, h]

/-- Settling a task (`settle`) frees its owner from it. If the incarnation that registered it is
alive, its entry is settled and the owner is answered; if not, the entry is gone. -/
theorem settle_some {id : Nat} {e : TaskEntry} (o : Outcome) (h : p.entries.get? id = some e) :
    ∃ reason, p.settle id o =
      (if p.isCurrent e.owner e.generation then some e.owner else none,
        { p.unblock e.owner id with
          entries :=
            if p.isCurrent e.owner e.generation then p.entries.insert id { e with outcome := some o }
            else (p.entries.insert id { e with outcome := some o }).erase id
          bus := p.bus.publish
            { kind := .taskSettled, address := some e.owner, task := some id, reason } }) := by
  have ends (q : Platform κ) (entries : Table Nat TaskEntry) (bus : Bus)
      (hq : q = { p.unblock e.owner id with entries, bus }) :
      (if q.isCurrent e.owner e.generation then (some e.owner, q)
        else (none, { q with entries := q.entries.erase id })) =
        (if p.isCurrent e.owner e.generation then some e.owner else none,
          { p.unblock e.owner id with
            entries := if p.isCurrent e.owner e.generation then entries else entries.erase id
            bus }) := by
    have hcurrent : q.isCurrent e.owner e.generation = p.isCurrent e.owner e.generation := by
      obtain ⟨_, _, _, hu⟩ := unblock_eq p e.owner id
      rw [hq, hu]
      rfl
    rw [hcurrent, hq]
    split <;> rfl
  simp only [settle, h]
  exact ⟨_, ends _ _ _ (unblock_with p _ _ _ _)⟩

/-- Settling a task (`settle`) changes entries, blocked sets, queues and the bus only. -/
theorem settle_eq (p : Platform κ) (id : Nat) (o : Outcome) :
    ∃ entries blocked runQueue waitQueue bus,
      (p.settle id o).2 = { p with entries, blocked, runQueue, waitQueue, bus } := by
  cases he : p.entries.get? id with
  | none => exact ⟨_, _, _, _, _, settle_none o he⟩
  | some entry =>
    obtain ⟨_, h⟩ := settle_some o he
    obtain ⟨_, _, _, hu⟩ := unblock_eq p entry.owner id
    rw [hu] at h
    rw [h]
    exact ⟨_, _, _, _, _, rfl⟩

theorem endTurn_eq (p : Platform κ) (a : Address) : ∃ queued runQueue waitQueue,
    p.endTurn a false = { p with running := p.running.erase a, queued, runQueue, waitQueue } := by
  obtain ⟨_, _, _, h⟩ := enqueue_eq { p with running := p.running.erase a } a
  exact ⟨_, _, _, h⟩

/-- Joining a group (`putMember`) changes that group and the bus only. -/
theorem putMember_eq (p : Platform κ) (group : String) (a : Address) : ∃ groups bus,
    (p.putMember group a).2 = { p with groups, bus } ∧
      (groups = p.groups ∨ p.isLive a = true ∧
        groups = p.groups.insert group (((p.groups.get? group).getD ∅).put a)) ∧
      p.bus.SameTold bus := by
  unfold putMember
  dsimp only
  split
  · exact ⟨_, _, rfl, Or.inl rfl, .refl _⟩
  · rename_i h
    rw [Bool.or_eq_true, Bool.not_eq_true', not_or, Bool.not_eq_false] at h
    exact ⟨_, _, rfl, Or.inr ⟨h.1, rfl⟩, .publish _ rfl⟩

theorem removeMember_eq (p : Platform κ) (group : String) (a : Address) : ∃ groups,
    (p.removeMember group a).2 = { p with groups } := by
  unfold removeMember
  split
  · exact ⟨_, rfl⟩
  · exact ⟨_, rfl⟩

@[simp] theorem context?_putMember (group : String) :
    (p.putMember group a).2.context? b = p.context? b := by
  obtain ⟨_, _, h, -⟩ := putMember_eq p group a
  rw [h]
  rfl

/-- Taking a match (`takeMatch`) takes the head of the mailbox, and the first receiver unless it is
a standing one. -/
theorem takeMatch_eq {hit : Match} (h : p.takeMatch a = some (hit, q)) :
    ∃ c receiver rest box, p.context? a = some c ∧ c.receivers = receiver :: rest ∧
      c.mailbox = some (hit.envelope :: box) ∧
      receiver.matcher.select hit.envelope.message = some hit.tag ∧
      hit.temporary = c.flags.temporary ∧
      q = p.modifyContext a fun d =>
        { d.mapMailbox List.tail with
          receivers := if receiver.standing then c.receivers else rest } := by
  simp only [takeMatch, Option.bind_eq_bind, Option.bind_eq_some_iff, Option.pure_def,
    Option.some.injEq, Prod.mk.injEq] at h
  obtain ⟨c, hc, receiver, hr, box, hb, head, hh, tag, ht, rfl, rfl⟩ := h
  obtain ⟨rest, hrest⟩ : ∃ rest, c.receivers = receiver :: rest := List.head?_eq_some_iff.mp hr
  obtain ⟨tail, rfl⟩ : ∃ tail, box = head :: tail := List.head?_eq_some_iff.mp hh
  exact ⟨c, receiver, rest, tail, hc, hrest, hb, ht, rfl, by rw [hrest]; rfl⟩

/-! ## Actors that come and go -/

/-- The platform with a new incarnation at an address (`Context.new`). -/
def enrol (p : Platform κ) (a : Address) (actor : κ.Actor) (b : Behaviour) (t : Template κ) :
    Platform κ :=
  { p with
    nextGeneration := p.nextGeneration + 1
    contexts := p.contexts.insert a
      (.new a p.nextGeneration p.config.frameLimit actor b t) }.publish (.about .actorAllocated a)

/-- The platform without the actor at an address (`forget`, `unschedule`). -/
def dismiss (p : Platform κ) (a : Address) : Platform κ :=
  ((p.forget a).unschedule a).publish (.about .actorRemoved a)

theorem context?_enrol (actor : κ.Actor) (bh : Behaviour) (t : Template κ) :
    (p.enrol a actor bh t).context? b = if b = a
      then some (.new a p.nextGeneration p.config.frameLimit actor bh t) else p.context? b :=
  Table.get?_insert _ _ _ _

/-- Whoever lives at an address after enrolling an actor is that actor (`enrol`) or lived there
before. -/
theorem context?_enrol_eq_some {actor : κ.Actor} {bh : Behaviour} {t : Template κ}
    {c : Context κ} : (p.enrol a actor bh t).context? b = some c ↔
      (b = a ∧ c = .new a p.nextGeneration p.config.frameLimit actor bh t) ∨
        (b ≠ a ∧ p.context? b = some c) :=
  Table.get?_insert_eq_some

/-- Dismissing an actor (`dismiss`) changes the table, the routes and groups, and what was scheduled
for its address; if the address waited, it waits no more. -/
theorem dismiss_eq (p : Platform κ) (a : Address) : ∃ queued waitQueue,
    p.dismiss a =
      { p with
        contexts := p.contexts.erase a
        routes := p.routes.retain fun target router => target != a && router != a
        groups := (p.groups.mapValues fun _ set => set.erase a).retain fun _ set => !set.isEmpty
        bus := p.bus.publish (.about .actorRemoved a)
        pending := p.pending.erase a
        blocked := p.blocked.erase a
        entries := p.entries.retain fun _ e => e.owner != a || e.outcome.isNone
        queued, waitQueue } ∧
      ((a ∈ p.waitQueue ∧ queued = p.queued.erase a ∧ waitQueue = p.waitQueue.erase a) ∨
        (a ∉ p.waitQueue ∧ queued = p.queued ∧ waitQueue = p.waitQueue)) := by
  unfold dismiss unschedule forget
  dsimp only
  split
  · rename_i hw
    exact ⟨_, _, rfl, Or.inl ⟨hw, rfl, rfl⟩⟩
  · rename_i hw
    exact ⟨_, _, rfl, Or.inr ⟨hw, rfl, rfl⟩⟩

theorem context?_dismiss :
    (p.dismiss a).context? b = if b = a then none else p.context? b := by
  obtain ⟨_, _, h, -⟩ := dismiss_eq p a
  rw [h]
  exact Table.get?_erase _ _ _

theorem context?_dismiss_eq_some {c : Context κ} :
    (p.dismiss a).context? b = some c ↔ b ≠ a ∧ p.context? b = some c := by
  obtain ⟨_, _, h, -⟩ := dismiss_eq p a
  rw [h]
  exact Table.get?_erase_eq_some

/-! ## The changes -/

/-- What scripts, hooks and deliveries do to a platform. -/
inductive Step (p : Platform κ) : Platform κ → Prop
  /-- The platform tells of what it does. Of tasks it tells when it registers and settles them. -/
  | publish {e : Event} : e.isOfTask = false → Step p (p.publish e)
  | raise (a : Address) (e : ActorError) : Step p (p.raiseAt a e)
  | fail (e : PlatformError) : Step p (p.fail e)
  | stop : Step p p.stop
  | reroute (routes : Table Address Address) : Step p { p with routes }
  | join (group : String) (a : Address) : Step p (p.putMember group a).2
  /-- A new incarnation comes, under a parent that is there, at an address where nobody lives. -/
  | enrol {a : Address} (actor : κ.Actor) (b : Behaviour) {t : Template κ} :
      a ≠ .root → a ≠ .discard → p.contains a.parent = true → p.context? a = none →
        t.id = some a.id → Step p (p.enrol a actor b t)
  /-- An actor without children goes. -/
  | dismiss {a : Address} : (∀ k c, p.context? k = some c → k.parent ≠ a) → Step p (p.dismiss a)
  | mail (a : Address) (env : Envelope) : Step p ((p.putMail a env).scheduleMail a)
  | arm (a : Address) (t : Matcher) : Step p (p.armReceiver a t)
  | look (a : Address) : Step p (p.scheduleMail a)
  | takeMatch {a : Address} {hit : Match} {q : Platform κ} :
      p.takeMatch a = some (hit, q) → Step p q
  | takeMail (a : Address) : Step p (p.takeMail a).2
  | backlog (a : Address) (f : List Envelope → List Envelope) :
      Step p (p.modifyContext a fun c => { c with backlog := f c.backlog })
  | returnActor (a : Address) (actor : κ.Actor) :
      Step p (p.modifyContext a fun c => { c with actor := some actor })
  | returnMachine {m : Machine κ} : m.AtRest m.address m.generation →
      p.isCurrent m.address m.generation = true →
        Step p ((p.modifyContext m.address fun c => { c with machine := some m }).enqueue m.address)
  | register (a : Address) (task : κ.Task) : Step p (p.registerTask a task).2

/-- Taking an actor or a machine out of its context (`Context.actor`, `Context.machine`). -/
inductive Loan (p : Platform κ) : Platform κ → Prop
  | actor (a : Address) : Loan p (p.modifyContext a fun c => { c with actor := none })
  | machine (a : Address) : Loan p (p.modifyContext a fun c => { c with machine := none })

/-- The code of the incarnation's actor is running (`Context.actor`). -/
def ActorLent (p : Platform κ) (a : Address) (g : Nat) : Prop :=
  ∃ c, p.context? a = some c ∧ c.generation = g ∧ c.actor = none

/-- The machine of the incarnation is in use (`Context.machine`). -/
def MachineLent (p : Platform κ) (a : Address) (g : Nat) : Prop :=
  ∃ c, p.context? a = some c ∧ c.generation = g ∧ c.machine = none

/-- Whatever was lent on the way from `p` to `q` has been given back. -/
structure Repaid (p q : Platform κ) : Prop where
  actor : ∀ a g, q.ActorLent a g → p.ActorLent a g
  machine : ∀ a g, q.MachineLent a g → p.MachineLent a g

theorem Repaid.refl (p : Platform κ) : Repaid p p :=
  ⟨fun _ _ h => h, fun _ _ h => h⟩

theorem Repaid.trans (h : Repaid p q) (h' : Repaid q r) : Repaid p r :=
  ⟨fun a g hr => h.actor a g (h'.actor a g hr), fun a g hr => h.machine a g (h'.machine a g hr)⟩

/-- A change of contexts that neither takes actors nor machines out leaves nothing lent (`Repaid`).
-/
theorem Repaid.of_contexts (h : ∀ a c, q.context? a = some c → (c.actor = none ∨ c.machine = none) →
    ∃ c₀, p.context? a = some c₀ ∧ c₀.generation = c.generation ∧
      (c.actor = none → c₀.actor = none) ∧ (c.machine = none → c₀.machine = none)) :
    Repaid p q := by
  refine ⟨fun a g hl => ?_, fun a g hl => ?_⟩
  · obtain ⟨c, hc, rfl, hn⟩ := hl
    obtain ⟨c₀, hc₀, hg, ha, -⟩ := h a c hc (Or.inl hn)
    exact ⟨c₀, hc₀, hg, ha hn⟩
  · obtain ⟨c, hc, rfl, hn⟩ := hl
    obtain ⟨c₀, hc₀, hg, -, hm⟩ := h a c hc (Or.inr hn)
    exact ⟨c₀, hc₀, hg, hm hn⟩

theorem Repaid.of_eq (h : ∀ a, q.context? a = p.context? a) : Repaid p q :=
  of_contexts fun a c hc _ => ⟨c, h a ▸ hc, rfl, id, id⟩

theorem Repaid.modifyContext {f : Context κ → Context κ}
    (hf : ∀ c, (f c).generation = c.generation ∧ ((f c).actor = none → c.actor = none) ∧
      ((f c).machine = none → c.machine = none)) : Repaid p (p.modifyContext a f) := by
  refine of_contexts fun b c hc _ => ?_
  rw [context?_modifyContext_eq] at hc
  obtain ⟨c₀, hc₀, rfl⟩ := Option.map_eq_some_iff.mp hc
  refine ⟨c₀, hc₀, ?_⟩
  split
  · exact ⟨(hf c₀).1.symm, (hf c₀).2⟩
  · exact ⟨rfl, id, id⟩

/-- **Steps leave nothing lent.** (`Repaid`) -/
theorem Step.repaid (h : Step p q) : Repaid p q := by
  have same (f : Context κ → Context κ) (a : Address)
      (hf : ∀ c, (f c).generation = c.generation ∧ (f c).actor = c.actor ∧
        (f c).machine = c.machine) : Repaid p (p.modifyContext a f) :=
    .modifyContext fun c => ⟨(hf c).1, fun h => (hf c).2.1 ▸ h, fun h => (hf c).2.2 ▸ h⟩
  cases h with
  | publish | raise | fail | stop | reroute | register => exact .of_eq fun _ => rfl
  | join group a => exact .of_eq fun _ => context?_putMember group
  | enrol actor bh _ _ _ _ _ =>
    refine .of_contexts fun b c hc hl => ?_
    rcases context?_enrol_eq_some.mp hc with ⟨-, rfl⟩ | ⟨-, hc⟩
    · exact absurd hl (by simp [Context.new])
    · exact ⟨c, hc, rfl, id, id⟩
  | dismiss =>
    refine .of_contexts fun b c hc _ => ?_
    exact ⟨c, (context?_dismiss_eq_some.mp hc).2, rfl, id, id⟩
  | mail a env =>
    have h : Repaid p (p.putMail a env) := same _ a fun _ => ⟨rfl, rfl, rfl⟩
    exact h.trans (.of_eq fun _ => context?_scheduleMail)
  | arm a t =>
    have h := same (fun c => { c with receivers := ⟨t, false⟩ :: c.receivers }) a
      fun _ => ⟨rfl, rfl, rfl⟩
    exact h.trans (.of_eq fun _ => context?_scheduleMail)
  | look a => exact .of_eq fun _ => context?_scheduleMail
  | takeMatch h =>
    obtain ⟨_, _, _, _, _, _, _, _, _, rfl⟩ := takeMatch_eq h
    exact same _ _ fun _ => ⟨rfl, rfl, rfl⟩
  | takeMail a => exact same _ a fun _ => ⟨rfl, rfl, rfl⟩
  | backlog a f => exact same _ a fun _ => ⟨rfl, rfl, rfl⟩
  | returnActor a actor => exact .modifyContext fun c => ⟨rfl, fun h => absurd h (by simp), id⟩
  | @returnMachine m _ _ =>
    have h : Repaid p (p.modifyContext m.address fun c => { c with machine := some m }) :=
      .modifyContext fun c => ⟨rfl, id, fun h => absurd h (by simp)⟩
    exact h.trans (.of_eq fun _ => context?_enqueue)

/-! ## Steps that set nothing going -/

/-- Nothing has been queued or raised (`Platform.runQueue`, `Platform.raised`), and nobody stopped
the platform. -/
structure Still (p q : Platform κ) : Prop where
  runQueue : q.runQueue = p.runQueue
  raised : q.raised = p.raised
  stopped : q.stopped = p.stopped

theorem Still.refl (p : Platform κ) : Still p p := ⟨rfl, rfl, rfl⟩

theorem Still.trans (h : Still p q) (h' : Still q r) : Still p r :=
  ⟨h'.runQueue.trans h.runQueue, h'.raised.trans h.raised, h'.stopped.trans h.stopped⟩

/-- What allocating and removing actors is made of: steps that set nothing going (`Step`). -/
def Upkeep : Platform κ → Platform κ → Prop :=
  Relation.ReflTransGen fun p q => Step p q ∧ Still p q

theorem Upkeep.single (h : Step p q) (hs : Still p q) : Upkeep p q :=
  Relation.ReflTransGen.single ⟨h, hs⟩

theorem Upkeep.refl (p : Platform κ) : Upkeep p p := Relation.ReflTransGen.refl

theorem Upkeep.trans (h : Upkeep p q) (h' : Upkeep q r) : Upkeep p r :=
  Relation.ReflTransGen.trans h h'

theorem Upkeep.publish (p : Platform κ) {e : Event} (he : e.isOfTask = false) :
    Upkeep p (p.publish e) :=
  .single (.publish he) ⟨rfl, rfl, rfl⟩

theorem Upkeep.join (p : Platform κ) (group : String) (a : Address) :
    Upkeep p (p.putMember group a).2 := by
  refine .single (.join group a) ?_
  obtain ⟨_, _, h, -⟩ := putMember_eq p group a
  rw [h]
  exact ⟨rfl, rfl, rfl⟩

theorem Upkeep.reroute (p : Platform κ) (routes : Table Address Address) :
    Upkeep p { p with routes } :=
  .single (.reroute routes) ⟨rfl, rfl, rfl⟩

theorem Upkeep.putRoute (p : Platform κ) (target router : Address) :
    Upkeep p (p.putRoute target router) :=
  (Upkeep.publish p rfl).trans (.reroute _ _)

theorem Upkeep.removeRoute (p : Platform κ) (target : Address) :
    Upkeep p (p.removeRoute target) := by
  unfold Platform.removeRoute
  split
  · exact (Upkeep.reroute p _).trans (.publish _ rfl)
  · exact .refl p

theorem Upkeep.enrol (actor : κ.Actor) (b : Behaviour) {t : Template κ} (hr : a ≠ .root)
    (hd : a ≠ .discard) (hp : p.contains a.parent = true) (hn : p.context? a = none)
    (ht : t.id = some a.id) : Upkeep p (p.enrol a actor b t) :=
  .single (.enrol actor b hr hd hp hn ht) ⟨rfl, rfl, rfl⟩

theorem Upkeep.dismiss (h : ∀ k c, p.context? k = some c → k.parent ≠ a) :
    Upkeep p (p.dismiss a) := by
  refine .single (.dismiss h) ?_
  obtain ⟨_, _, h, -⟩ := dismiss_eq p a
  rw [h]
  exact ⟨rfl, rfl, rfl⟩

theorem Upkeep.still (h : Upkeep p q) : Still p q := by
  induction h with
  | refl => exact .refl p
  | tail _ h ih => exact ih.trans h.2

theorem Upkeep.repaid (h : Upkeep p q) : Repaid p q := by
  induction h with
  | refl => exact .refl p
  | tail _ h ih => exact ih.trans h.1.repaid

/-! ## Mail that is waited for -/

/-- A slot for the mail of an incarnation (`Work.mail`) is waiting. -/
def HasMailSlot (p : Platform κ) (a : Address) (g : Nat) : Prop :=
  ∃ slots, p.pending.get? a = some slots ∧ ∃ s ∈ slots, s.generation = g ∧ s.work.isMail = true

/-- If the incarnation at an address has mail and a receiver, a slot for its mail is waiting. The
incarnation `but`, if one is named, is let off. -/
def AwakeBut (p : Platform κ) (a : Address) (but : Option Nat) : Prop :=
  ∀ c, p.context? a = some c → some c.generation ≠ but → c.hasMail = true → c.receivers ≠ [] →
    p.HasMailSlot a c.generation

/-- The incarnation whose mail a slot looks after (`Work.isMail`). -/
def excused (s : Slot κ) : Option Nat :=
  if s.work.isMail then some s.generation else none

/-- The incarnation at an address whose mail is being looked after (`Platform.running`). -/
def attended (p : Platform κ) (a : Address) : Option Nat :=
  (p.running.get? a).bind excused

/-- If the incarnation at an address has mail and a receiver, a slot for its mail is waiting
(`HasMailSlot`). -/
def Awake (p : Platform κ) (a : Address) : Prop :=
  p.AwakeBut a none

/-! ## Tasks that are asked -/

/-- The numbers of the tasks that are asked (`Platform.tasks`). -/
def taskIds (p : Platform κ) : List Nat :=
  p.tasks.map Prod.fst

/-- A task of an owner is on record and not settled (`Platform.entries`). -/
def Unsettled (p : Platform κ) (id : Nat) (owner : Address) : Prop :=
  ∃ e, p.entries.get? id = some e ∧ e.outcome = none ∧ e.owner = owner

/-- Unsettled tasks are asked (`taskIds`), but for one in hand. -/
def Unpolled (p : Platform κ) (hand : Option Nat) : Prop :=
  ∀ id owner, p.Unsettled id owner → id ∈ p.taskIds ∨ hand = some id

/-! ## Working off queues and tasks -/

/-- What is done to a platform besides steps and loans (`Step`, `Loan`) by working off its queues
and by operations. -/
inductive Turning (p : Platform κ) : Platform κ → Prop
  | judge {r : Raised κ} {rest : List (Raised κ)} :
      p.raised = r :: rest → Turning p { p with raised := rest }
  | skip {q : Platform κ} : p.turn = .skipped q → Turning p q
  /-- An address of which no slot is running takes its turn. -/
  | begin {a : Address} {s : Slot κ} {q : Platform κ} :
      p.running.contains a = false → p.turn = .slot a s q → Turning p q
  /-- The slot of an address ends, with its mail looked after. -/
  | finish {a : Address} : p.Awake a → Turning p (p.endTurn a false)
  | schedule {a : Address} {g : Nat} (s : Script κ) :
      p.isCurrent a g = true → Turning p (p.schedule a g (.script s))
  | part (group : String) (a : Address) : Turning p (p.removeMember group a).2
  /-- The audience has its turn. -/
  | hear {bus : Bus} : p.bus.SameTold bus → Turning p { p with bus }

/-- What is not work on queues: tasks are asked and settled (`Platform.settle`), and between
operations the application does what it likes with the bus. -/
inductive Dealing (p : Platform κ) : Platform κ → Prop
  | poll {id : Nat} {t t' : κ.Task} {rest : List (Nat × κ.Task)} :
      p.tasks = (id, t) :: rest → Dealing p { p with tasks := rest ++ [(id, t')] }
  /-- A finished task is taken, with no other in hand. -/
  | take {id : Nat} {t : κ.Task} {rest : List (Nat × κ.Task)} :
      p.Unpolled none → p.tasks = (id, t) :: rest → Dealing p { p with tasks := rest }
  | settle {id : Nat} (o : Outcome) : id ∉ p.taskIds → Dealing p (p.settle id o).2
  | bus (bus : Bus) : Dealing p { p with bus }

/-- What is done about tasks (`Dealing`) touches tasks, entries, blocked sets, queues and the bus
only. -/
theorem Dealing.eq (h : Dealing p q) : ∃ tasks entries blocked runQueue waitQueue bus,
    q = { p with tasks, entries, blocked, runQueue, waitQueue, bus } := by
  cases h with
  | poll | take => exact ⟨_, _, _, _, _, _, rfl⟩
  | @settle id o _ =>
    obtain ⟨_, _, _, _, _, hq⟩ := settle_eq p id o
    exact ⟨_, _, _, _, _, _, hq⟩
  | bus bus => exact ⟨_, _, _, _, _, bus, rfl⟩

/-! ## Work

The application may publish events of its own. What they tell of is up to the application, so all
work is relative to `V`, which is true of the events that the application publishes. -/

/-- An event is published because the application asks for it (`Operation.trigger`). -/
inductive Announce (V : Event → Prop) (p : Platform κ) : Platform κ → Prop
  | publish {e : Event} : V e → Announce V p (p.publish e)

/-- One change that scripts, hooks and deliveries make (`Step`, `Loan`, `Announce`). -/
inductive Change (V : Event → Prop) (p q : Platform κ) : Prop
  | step : Step p q → Change V p q
  | loan : Loan p q → Change V p q
  | announce : Announce V p q → Change V p q

/-- The work of scripts, hooks and deliveries (`Change`). -/
def Nested (V : Event → Prop) : Platform κ → Platform κ → Prop :=
  Relation.ReflTransGen (Change V)

/-- All work but that on tasks (`Change`, `Turning`). -/
def Rounds (V : Event → Prop) : Platform κ → Platform κ → Prop :=
  Relation.ReflTransGen fun p q => Change V p q ∨ Turning p q

/-- All work (`Rounds`, `Dealing`). -/
def Outer (V : Event → Prop) : Platform κ → Platform κ → Prop :=
  Relation.ReflTransGen fun p q => Rounds V p q ∨ Dealing p q

variable {V : Event → Prop}

theorem Nested.refl (p : Platform κ) : Nested V p p := Relation.ReflTransGen.refl

theorem Nested.trans (h : Nested V p q) (h' : Nested V q r) : Nested V p r :=
  Relation.ReflTransGen.trans h h'

theorem Rounds.refl (p : Platform κ) : Rounds V p p := Relation.ReflTransGen.refl

theorem Rounds.trans (h : Rounds V p q) (h' : Rounds V q r) : Rounds V p r :=
  Relation.ReflTransGen.trans h h'

theorem Outer.refl (p : Platform κ) : Outer V p p := Relation.ReflTransGen.refl

theorem Outer.trans (h : Outer V p q) (h' : Outer V q r) : Outer V p r :=
  Relation.ReflTransGen.trans h h'

theorem Nested.rounds (h : Nested V p q) : Rounds V p q :=
  Relation.ReflTransGen.mono (fun _ _ => Or.inl) _ _ h

theorem Rounds.outer (h : Rounds V p q) : Outer V p q := .single (Or.inl h)

theorem Step.nested (h : Step p q) : Nested V p q := .single (.step h)

theorem Upkeep.nested (h : Upkeep p q) : Nested V p q :=
  Relation.ReflTransGen.mono (fun _ _ h => .step h.1) _ _ h

theorem Loan.nested (h : Loan p q) : Nested V p q := .single (.loan h)

theorem Announce.nested (h : Announce V p q) : Nested V p q := .single (.announce h)

theorem Turning.rounds (h : Turning p q) : Rounds V p q := .single (Or.inr h)

theorem Dealing.outer (h : Dealing p q) : Outer V p q := .single (Or.inr h)

/-- What every step and every loan keeps, nested work keeps (`Nested`), if it does not depend on the
bus. -/
theorem Nested.keeps {P : Platform κ → Prop} (hs : ∀ p q, Step p q → P p → P q)
    (hl : ∀ p q, Loan p q → P p → P q) (hb : ∀ (p : Platform κ) bus, P p → P { p with bus })
    (h : Nested V p q) (hp : P p) : P q := by
  induction h with
  | refl => exact hp
  | tail _ h ih =>
    cases h with
    | step h => exact hs _ _ h ih
    | loan h => exact hl _ _ h ih
    | announce h =>
      cases h
      exact hb _ _ ih

/-- What nested work and turning keep, all work keeps but that on tasks (`Rounds`). -/
theorem Rounds.keeps {P : Platform κ → Prop} (hi : ∀ p q, Nested V p q → P p → P q)
    (ht : ∀ p q, Turning p q → P p → P q) (h : Rounds V p q) (hp : P p) : P q := by
  induction h with
  | refl => exact hp
  | tail _ h ih => exact h.elim (fun h => hi _ _ (.single h) ih) fun h => ht _ _ h ih

/-- What such work keeps, and dealing with tasks and the bus does not disturb, all work keeps
(`Outer`). -/
theorem Outer.keeps {P : Platform κ → Prop} (hr : ∀ p q, Rounds V p q → P p → P q)
    (hd : ∀ p q, Dealing p q → P p → P q) (h : Outer V p q) (hp : P p) : P q := by
  induction h with
  | refl => exact hp
  | tail _ h ih => exact h.elim (fun h => hr _ _ h ih) fun h => hd _ _ h ih

end Platform

end Troupe
