import Mathlib.Logic.Basic
import Troupe.Platform.Mail
import Troupe.Proofs.Event.Tidings

/-!
# Platforms without observers

A platform can be watched: instructions may be published (`Config.logOps`), and the bus keeps events
for receivers, in a window of a size of its own (`Config.busCapacity`). `Platform.plain` takes that
away, together with the events about instructions and the reports of the audience, and leaves
everything else (`Event.isNews` says what is left on the bus).

What a platform does it does just so without observers: every question has the same answer on the
plain platform (`context?_plain`, `router?_plain`, `descendants_plain` and so on), and every change
made there leads to the plain form of what it leads to here (`plain_schedule`, `plain_unschedule`,
`registerTask_plain`, `settle_plain` and so on). These equations are simp lemmas, one beside the
other for each function of the platform.

Headlines:
* **`Grown.plain`**: reports make no difference to the news.
* **`turn_plain`**: the next turn of the plain platform is the plain form of the next turn.
-/

namespace Troupe

variable {κ : App}

/-- Whether an event tells of something else than an instruction or the audience (`Event.isReport`).
-/
def Event.isNews (e : Event) : Bool :=
  !e.isReport && e.kind != .opExecuted

/-- The knobs without those for observers (`Config.busCapacity`, `Config.logOps`). -/
def Config.plain (c : Config) : Config :=
  { c with busCapacity := 0, logOps := false }

/-- The news on a bus (`Event.isNews`), with nobody to read them. -/
def Bus.plain (b : Bus) : Bus :=
  ⟨0, b.published.filter Event.isNews, ∅, 0⟩

/-- The platform without observers (`Config.plain`, `Bus.plain`). -/
def Platform.plain (p : Platform κ) : Platform κ :=
  { p with config := p.config.plain, bus := p.bus.plain }

namespace Bus

variable {b b' : Bus} {e : Event}

theorem plain_publish (b : Bus) (he : e.isNews = true) :
    (b.publish e).plain = b.plain.publish e := by
  unfold plain publish
  rw [Array.filter_push, if_pos he]

theorem plain_publish_of_not (b : Bus) (he : e.isNews = false) : (b.publish e).plain = b.plain := by
  unfold plain publish
  rw [Array.filter_push, if_neg (Bool.eq_false_iff.mp he)]

@[simp] theorem plain_plain (b : Bus) : b.plain.plain = b.plain := by
  unfold plain
  rw [Array.filter_filter]
  simp only [Bool.and_self]

/-- Reports (`Event.isReport`) make no difference to the news. -/
theorem Grown.plain (h : Grown (fun e => e.isReport = true) b b') : b'.plain = b.plain := by
  obtain ⟨es, hes, hreports⟩ := h
  have hnone : es.filter Event.isNews = [] :=
    List.filter_eq_nil_iff.mpr fun e he => by simp [Event.isNews, hreports e he]
  have hsame : b'.published.filter Event.isNews = b.published.filter Event.isNews := by
    rw [← Array.toList_inj, Array.toList_filter, Array.toList_filter, hes, List.filter_append,
      hnone, List.append_nil]
  unfold Bus.plain
  rw [hsame]

end Bus

namespace Platform

variable {p : Platform κ} {a : Address} {e : Event}

theorem plain_publish (p : Platform κ) (he : e.isNews = true) :
    (p.publish e).plain = p.plain.publish e := by
  unfold plain publish
  rw [p.bus.plain_publish he]

theorem plain_publish_of_not (p : Platform κ) (he : e.isNews = false) :
    (p.publish e).plain = p.plain := by
  unfold plain publish
  rw [p.bus.plain_publish_of_not he]

@[simp] theorem plain_plain (p : Platform κ) : p.plain.plain = p.plain := by
  unfold plain
  rw [p.bus.plain_plain]
  rfl

/-! ## Questions -/

section Questions

variable (p : Platform κ) (a : Address)

@[simp] theorem groups_plain : p.plain.groups = p.groups := rfl

@[simp] theorem raised_plain : p.plain.raised = p.raised := rfl

@[simp] theorem runQueue_plain : p.plain.runQueue = p.runQueue := rfl

@[simp] theorem pending_plain : p.plain.pending = p.pending := rfl

@[simp] theorem blocked_plain : p.plain.blocked = p.blocked := rfl

@[simp] theorem tasks_plain : p.plain.tasks = p.tasks := rfl

@[simp] theorem entries_plain : p.plain.entries = p.entries := rfl

@[simp] theorem stopped_plain : p.plain.stopped = p.stopped := rfl

@[simp] theorem fatal_plain : p.plain.fatal = p.fatal := rfl

@[simp] theorem context?_plain : p.plain.context? a = p.context? a := rfl

@[simp] theorem isLive_plain : p.plain.isLive a = p.isLive a := rfl

@[simp] theorem contains_plain : p.plain.contains a = p.contains a := rfl

@[simp] theorem size_plain : p.plain.size = p.size := rfl

@[simp] theorem generation?_plain : p.plain.generation? a = p.generation? a := rfl

@[simp] theorem isCurrent_plain (g : Nat) : p.plain.isCurrent a g = p.isCurrent a g := rfl

@[simp] theorem template?_plain : p.plain.template? a = p.template? a := rfl

@[simp] theorem descendants_plain : p.plain.descendants a = p.descendants a := rfl

@[simp] theorem directChildren_plain : p.plain.directChildren a = p.directChildren a := rfl

@[simp] theorem isBlocked_plain : p.plain.isBlocked a = p.isBlocked a := rfl

@[simp] theorem hasSlots_plain : p.plain.hasSlots a = p.hasSlots a := rfl

@[simp] theorem mailboxLength?_plain : p.plain.mailboxLength? a = p.mailboxLength? a := rfl

@[simp] theorem receiverCount_plain : p.plain.receiverCount a = p.receiverCount a := rfl

@[simp] theorem members_plain (group : String) : p.plain.members group = p.members group := rfl

@[simp] theorem router?_plain : p.plain.router? a = p.router? a := rfl

end Questions

/-! ## Changes -/

section Changes

variable (p : Platform κ) (a : Address)

@[simp] theorem plain_modifyContext (f : Context κ → Context κ) :
    (p.modifyContext a f).plain = p.plain.modifyContext a f := rfl

@[simp] theorem plain_stop : p.stop.plain = p.plain.stop := rfl

@[simp] theorem plain_fail (e : PlatformError) : (p.fail e).plain = p.plain.fail e := rfl

@[simp] theorem plain_raiseAt (e : ActorError) : (p.raiseAt a e).plain = p.plain.raiseAt a e := by
  unfold raiseAt
  dsimp only
  rw [← p.plain_publish rfl]
  rfl

@[simp] theorem plain_dropMessage (env : Envelope) :
    (p.dropMessage env).plain = p.plain.dropMessage env :=
  p.plain_publish rfl

@[simp] theorem plain_putRoute (router : Address) :
    (p.putRoute a router).plain = p.plain.putRoute a router := by
  unfold putRoute
  dsimp only
  rw [← p.plain_publish rfl]
  rfl

@[simp] theorem plain_removeRoute : (p.removeRoute a).plain = p.plain.removeRoute a := by
  unfold removeRoute
  rw [apply_ite plain]
  exact if_congr Iff.rfl (plain_publish _ rfl) rfl

@[simp] theorem plain_enqueue : (p.enqueue a).plain = p.plain.enqueue a := by
  unfold enqueue
  rw [apply_ite plain, apply_ite plain]
  rfl

@[simp] theorem plain_schedule (g : Nat) (work : Work κ) :
    (p.schedule a g work).plain = p.plain.schedule a g work :=
  plain_enqueue _ a

@[simp] theorem plain_scheduleMail : (p.scheduleMail a).plain = p.plain.scheduleMail a := by
  unfold scheduleMail
  rw [context?_plain]
  cases p.context? a with
  | none => rfl
  | some c =>
    dsimp only
    rw [apply_ite plain, plain_schedule]
    rfl

@[simp] theorem plain_putMember (group : String) :
    (p.putMember group a).2.plain = (p.plain.putMember group a).2 := by
  unfold putMember
  dsimp only
  rw [apply_ite Prod.snd, apply_ite plain, apply_ite Prod.snd]
  exact if_congr Iff.rfl rfl (plain_publish _ rfl)

@[simp] theorem putMember_plain (group : String) :
    (p.plain.putMember group a).1 = (p.putMember group a).1 := by
  unfold putMember
  dsimp only
  rw [apply_ite Prod.fst, apply_ite Prod.fst]
  rfl

/-- What comes of a change of the plain platform is what comes of the change, in its plain form. -/
theorem removeMember_plain (group : String) :
    p.plain.removeMember group a = Prod.map id plain (p.removeMember group a) := by
  unfold removeMember
  rw [groups_plain]
  cases p.groups.get? group <;> rfl

@[simp] theorem plain_putMail (env : Envelope) :
    (p.putMail a env).plain = p.plain.putMail a env := rfl

@[simp] theorem plain_putBacklog (env : Envelope) :
    (p.putBacklog a env).plain = p.plain.putBacklog a env := rfl

theorem takeBacklog_plain :
    p.plain.takeBacklog a = (p.takeBacklog a).map (Prod.map id plain) := by
  unfold takeBacklog
  rw [context?_plain]
  cases p.context? a with
  | none => rfl
  | some c =>
    dsimp only
    split <;> rfl

@[simp] theorem plain_armReceiver (matcher : Matcher) :
    (p.armReceiver a matcher).plain = p.plain.armReceiver a matcher := by
  unfold armReceiver
  exact plain_scheduleMail _ a

theorem takeMatch_plain : p.plain.takeMatch a = (p.takeMatch a).map (Prod.map id plain) := by
  unfold takeMatch
  rw [context?_plain]
  cases p.context? a with
  | none => rfl
  | some c =>
    cases hreceiver : c.receivers.head? with
    | none => simp [hreceiver]
    | some receiver =>
      cases hbox : c.mailbox with
      | none => simp [hreceiver, hbox]
      | some box =>
        cases hhead : box.head? with
        | none => simp [hreceiver, hbox, hhead]
        | some head => cases htag : receiver.matcher.select head.message <;>
            simp [hreceiver, hbox, hhead, htag]

theorem takeMail_plain : p.plain.takeMail a = Prod.map id plain (p.takeMail a) := rfl

@[simp] theorem plain_discardMail : (p.discardMail a).plain = p.plain.discardMail a := by
  unfold discardMail
  rw [takeMail_plain]
  cases h : p.takeMail a with
  | mk env p' => cases env <;> simp

theorem popSlot_plain : p.plain.popSlot a = (p.popSlot a).map (Prod.map id plain) := by
  unfold popSlot
  rw [pending_plain]
  cases p.pending.get? a with
  | none => rfl
  | some slots => cases slots <;> rfl

@[simp] theorem plain_putBackSlot (slot : Slot κ) :
    (p.putBackSlot a slot).plain = p.plain.putBackSlot a slot := rfl

/-- The turn of the plain platform (`Platform.turn`). -/
def Turn.plain : Turn κ → Turn κ
  | .idle => .idle
  | .skipped p => .skipped p.plain
  | .slot a s p => .slot a s p.plain

theorem turn_plain : p.plain.turn = p.turn.plain := by
  unfold turn
  rw [runQueue_plain]
  cases p.runQueue with
  | nil => rfl
  | cons a rest =>
    dsimp only
    rw [apply_ite Turn.plain]
    refine if_congr Iff.rfl rfl ?_
    have hpop : popSlot { p.plain with runQueue := rest, queued := p.plain.queued.erase a } a =
        (popSlot { p with runQueue := rest, queued := p.queued.erase a } a).map
          (Prod.map id plain) :=
      popSlot_plain { p with runQueue := rest, queued := p.queued.erase a } a
    rw [hpop]
    cases popSlot { p with runQueue := rest, queued := p.queued.erase a } a <;> rfl

@[simp] theorem plain_endTurn (deferred : Bool) :
    (p.endTurn a deferred).plain = p.plain.endTurn a deferred := by
  cases deferred with
  | true => rfl
  | false => exact plain_enqueue _ a

@[simp] theorem plain_unschedule : (p.unschedule a).plain = p.plain.unschedule a := by
  unfold unschedule
  dsimp only
  rw [apply_ite plain]
  rfl

theorem registerTask_plain (task : κ.Task) :
    p.plain.registerTask a task = Prod.map id plain (p.registerTask a task) := by
  unfold registerTask
  refine Prod.ext rfl ?_
  refine Eq.symm (plain_publish _ ?_)
  rfl

@[simp] theorem plain_unblock (id : Nat) : (p.unblock a id).plain = p.plain.unblock a id := by
  unfold unblock
  rw [blocked_plain]
  cases p.blocked.get? a with
  | none => rfl
  | some ids =>
    dsimp only
    rw [apply_ite plain, apply_ite plain]
    rfl

theorem settle_plain (id : Nat) (outcome : Outcome) :
    p.plain.settle id outcome = Prod.map (fun x => x) plain (p.settle id outcome) := by
  unfold settle
  rw [entries_plain]
  cases p.entries.get? id with
  | none => rfl
  | some entry =>
    have hsame {e : Event} (he : e.isNews = true) (entries : Table Nat TaskEntry) :
        (({ p.plain with entries } : Platform κ).publish e).unblock entry.owner id =
          ((({ p with entries } : Platform κ).publish e).unblock entry.owner id).plain := by
      rw [plain_unblock, plain_publish _ he]
      rfl
    dsimp only
    rw [hsame rfl, isCurrent_plain, apply_ite (Prod.map (fun x => x) plain)]
    rfl

end Changes

end Platform

end Troupe
