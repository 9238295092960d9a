import Troupe.Proofs.Watch.Occasions

/-!
# The receivers of an incarnation

The receivers of an actor are a stack: the one that was armed last is asked first (`arm_receiver`,
`take_match`). From the stages of a life it can be read off which one-shot receivers an incarnation
got and which messages it received (`armings`, `receipts`). Each message that it receives uses up
the latest receiver that is still open (`openings`), and this is all that ever becomes of receivers:
the stack is what is open, on top of the standing receiver with which the incarnation has come, if
it has one (`Stacked`, `Behaviour.standing`).

`Receives` and `Context.Arms` are the two things that can happen to the receivers of whoever stays
(`Handles`), and `Balanced` is what they keep: what is open stands on top of what is standing, as
`Stacked.served` and `Stacked.rearmed` have it. Whoever is gone or has not come yet has no part in
it (`Stacked.gone`, `Stacked.born`).

Headlines:
* **`receivers_new`**: an incarnation comes with a one-shot receiver, with a standing one, or with
  none.
* **`Move.handles`**: in a move a receiver takes a message, or further receivers are armed at most.
* **`Move.receives`**: a message is received only if the first receiver took it.
* **`Stacked.move`**, **`Stacked.tended`**: moves and tending to actors keep the stack.
* `Track.receivers`, `upheld_receivers`: the receivers of all incarnations are kept track of.
-/

namespace Troupe

variable {κ : App}

open Platform

/-! ## Reading off -/

/-- The receiver that stays whatever it receives (`Receiver.standing`). -/
def Behaviour.standing (b : Behaviour) : List Receiver :=
  if b.flags.immutable then (b.matcher.map fun matcher => ⟨matcher, true⟩).toList else []

/-- The standing receivers of a context (`Receiver.standing`). -/
def Context.standing (c : Context κ) : List Receiver :=
  c.receivers.filter Receiver.standing

/-- The receivers of an incarnation (`Context.receivers`), the one that is asked first in front. -/
def Platform.receivers (p : Platform κ) (a : Address) (g : Nat) : List Receiver :=
  match p.context? a with
  | some c => if c.generation = g then c.receivers else []
  | none => []

/-- The one-shot receivers that an incarnation gets from one stage to the next
(`Platform.receivers`). -/
def armed (a : Address) (g : Nat) (s t : Stage κ) : List Receiver :=
  ((t.platform.receivers a g).take
    ((t.platform.receivers a g).length - (s.platform.receivers a g).length)).filter (!·.standing)

/-- What an incarnation receives from one stage to the next (`went`, by `Way.mail`). -/
def receipt (a : Address) (g : Nat) (s t : Stage κ) : List Hook :=
  (went a g s t .mail).flatMap Way.mail.occasions

/-- What an incarnation received, in order (`takings`). -/
def receipts (a : Address) (g : Nat) (h : List (Stage κ)) : List Hook :=
  (takings a g .mail h).flatMap Way.mail.occasions

/-- The one-shot receivers that an incarnation got (`armed`), the latest in front. -/
def armings (a : Address) (g : Nat) : List (Stage κ) → List Receiver
  | t :: s :: h => armed a g s t ++ armings a g (s :: h)
  | [_] | [] => []

/-- Those of them that are still open: each message that is received uses up the latest (`receipt`).
-/
def openings (a : Address) (g : Nat) : List (Stage κ) → List Receiver
  | t :: s :: h => armed a g s t ++ (openings a g (s :: h)).drop (receipt a g s t).length
  | [_] | [] => []

/-- The context with which an incarnation has come. -/
def debut (a : Address) (g : Nat) : List (Stage κ) → Option (Context κ)
  | s :: h => (debut a g h).or ((s.platform.context? a).filter (·.generation = g))
  | [] => none

/-- The first receiver of an incarnation takes the head of the mailbox (`Matcher.select`), and is
gone then unless it is a standing one. The bus tells of it. -/
inductive Receives (a : Address) (g : Nat) (s t : Stage κ) : Event → Prop
  | intro {c : Context κ} {receiver : Receiver} {rest : List Receiver} {env : Envelope}
      {box : List Envelope} {tag : String} : s.platform.context? a = some c → c.generation = g →
      c.receivers = receiver :: rest → c.mailbox = some (env :: box) →
      receiver.matcher.select env.message = some tag →
      t.platform.context? a = some { c with
        mailbox := some box
        receivers := if receiver.standing then receiver :: rest else rest } →
      s.platform.bus.since t.platform.bus = [.received a tag env] →
      Receives a g s t (.received a tag env)

section

variable {code : Code κ} {V : Event → Prop} {same : κ.World → κ.World → Prop} {a b : Address}
  {g : Nat} {s t : Stage κ} {x y : Option (Due κ)} {h : List (Stage κ)} {c d : Context κ}
  {p : Platform κ} {e : Event}

theorem receipts_cons :
    receipts a g (t :: s :: h) = receipts a g (s :: h) ++ receipt a g s t := by
  unfold receipts
  rw [takings_cons, List.flatMap_append]
  rfl

theorem openings_sublist (h : List (Stage κ)) : (openings a g h).Sublist (armings a g h) := by
  induction h with
  | nil => exact .refl _
  | cons t h ih =>
    cases h with
    | nil => exact .refl _
    | cons s h => exact (List.Sublist.refl _).append ((List.drop_sublist _ _).trans ih)

theorem armings_oneShot (h : List (Stage κ)) : ∀ r ∈ armings a g h, r.standing = false := by
  induction h with
  | nil => exact fun _ hr => absurd hr List.not_mem_nil
  | cons t h ih =>
    cases h with
    | nil => exact fun _ hr => absurd hr List.not_mem_nil
    | cons s h =>
      intro r hr
      rcases List.mem_append.mp hr with hr | hr
      · simpa using (List.mem_filter.mp hr).2
      · exact ih r hr

/-! ## The context with which an incarnation has come -/

theorem debut_of_live (hc : s.platform.context? a = some c) (hg : c.generation = g) :
    debut a g (s :: h) = (debut a g h).or (some c) := by
  show (debut a g h).or ((s.platform.context? a).filter _) = _
  rw [hc, Option.filter_some, if_pos (decide_eq_true hg)]

theorem debut_of_gone (hs : s.platform.isCurrent a g = false) :
    debut a g (s :: h) = debut a g h := by
  show (debut a g h).or ((s.platform.context? a).filter _) = _
  have hnone : (s.platform.context? a).filter (·.generation = g) = none := by
    rw [Option.filter_eq_none_iff]
    intro c hc hg
    exact absurd (hs.symm.trans (Ledger.current hc (of_decide_eq_true hg))) (by simp)
  rw [hnone, Option.or_none]

/-- Whoever has come has come. -/
theorem debut_cons (hd : debut a g h = some d) : debut a g (s :: h) = some d := by
  show (debut a g h).or _ = _
  rw [hd, Option.some_or]

/-- **An incarnation comes** (`Context.new`) with a one-shot receiver, with a standing one, or with
none. -/
theorem receivers_new (n : Nat) (actor : κ.Actor) (b : Behaviour) (tmpl : Template κ) :
    (Context.new a g n actor b tmpl).standing = b.standing ∧
      (Context.new a g n actor b tmpl).receivers =
        (Context.new a g n actor b tmpl).receivers.filter (!·.standing) ++
          (Context.new a g n actor b tmpl).standing := by
  unfold Context.standing Context.new Behaviour.standing
  cases b.matcher <;> cases b.flags.immutable <;> exact ⟨rfl, rfl⟩

/-! ## One step of an incarnation -/

theorem receivers_eq (hc : p.context? a = some c) (hg : c.generation = g) :
    p.receivers a g = c.receivers := by
  unfold Platform.receivers
  rw [hc]
  exact if_pos hg

theorem receivers_gone (hp : p.isCurrent a g = false) : p.receivers a g = [] := by
  unfold Platform.receivers
  cases hc : p.context? a with
  | none => rfl
  | some c => exact if_neg fun hg => absurd (hp.symm.trans (Ledger.current hc hg)) (by simp)

/-- Whoever is gone gets no receivers (`armed`). -/
theorem armed_gone (ht : t.platform.isCurrent a g = false) : armed a g s t = [] := by
  unfold armed
  rw [receivers_gone ht, List.take_nil]
  rfl

/-- Where nothing is taken (`went`), nothing is received. -/
theorem receipt_of_went (h : went a g s t .mail = []) : receipt a g s t = [] := by
  unfold receipt
  rw [h]
  rfl

theorem receipt_gone (ht : t.platform.isCurrent a g = false) : receipt a g s t = [] := by
  refine receipt_of_went (went_away ?_)
  unfold stays
  rw [ht, Bool.and_false]

/-- What was put in front of the receivers is what was armed (`armed`). -/
theorem armed_eq {new : List Receiver} (hc : s.platform.context? a = some c)
    (hg : c.generation = g) (hd : t.platform.context? a = some d) (hdg : d.generation = g)
    (hnew : ∀ r ∈ new, r.standing = false) (harms : d.receivers = new ++ c.receivers) :
    armed a g s t = new := by
  unfold armed
  rw [receivers_eq hc hg, receivers_eq hd hdg, harms, List.length_append, Nat.add_sub_cancel,
    List.take_left, List.filter_eq_self]
  exact fun r hr => by simp [hnew r hr]

/-- What happens to the receivers of an incarnation that stays: the first one takes a message
(`Receives`), or further ones are armed at most. -/
inductive Handles (a : Address) (s t : Stage κ) (c d : Context κ) : Prop
  | receives {e : Event} : Receives a c.generation s t e → Handles a s t c d
  | arms : c.Arms d → receipt a c.generation s t = [] → Handles a s t c d

/-- A message that a receiver took is received (`receipt`). -/
theorem Receives.receipt (hr : Receives a g s t e) :
    ∃ tag env, receipt a g s t = [.receive tag env] ∧ e = .received a tag env := by
  obtain ⟨hc, hg, -, hbox, -, hd, hbus⟩ := hr
  rename_i c receiver rest env box tag
  refine ⟨tag, env, ?_, rfl⟩
  have hhead : c.waiting .mail = env :: box := by simp [Context.waiting, hbox]
  have hwent := (Ledger.taken hc hg hd ⟨rfl, by simp [Context.isBuffered, hbox], rfl⟩ hhead).2
  unfold Troupe.receipt
  rw [hwent, hbus]
  rfl

/-- Nothing is armed when a message is received (`armed`). -/
theorem Receives.armed (hr : Receives a g s t e) : armed a g s t = [] := by
  obtain ⟨hc, hg, hfront, -, -, hd, -⟩ := hr
  unfold Troupe.armed
  rw [receivers_eq hc hg, receivers_eq hd hg, hfront, Nat.sub_eq_zero_of_le, List.take_zero]
  · rfl
  · dsimp only
    split <;> simp

/-! ## Moves -/

/-- Just one event was published (`Bus.publish`). -/
theorem eq_of_published {bus : Bus} {e' : Event} (he : e ∈ bus.since (bus.publish e')) :
    e = e' := by
  rw [since_publish] at he
  exact List.mem_singleton.mp he

/-- The first receiver takes the head of the mailbox (`Platform.takeMatch`). -/
theorem receives_takeMatch {hit : Match} {q : Platform κ} (hc : s.platform.context? a = some c)
    (htake : s.platform.takeMatch a = some (hit, q)) :
    Receives a c.generation s { s with platform := q.publish (.received a hit.tag hit.envelope) }
      (.received a hit.tag hit.envelope) := by
  obtain ⟨d, receiver, rest, box, hd, hrest, hbox, hselect, -, rfl⟩ := takeMatch_eq htake
  obtain rfl := Option.some.inj (hd.symm.trans hc)
  refine .intro hc rfl hrest hbox hselect ?_ (since_publish _ _)
  show (s.platform.modifyContext a _).context? a = _
  rw [context?_modifyContext, if_pos rfl, hc, Option.map_some]
  unfold Context.mapMailbox
  rw [hbox, hrest]
  rfl

/-- Dropping the head of a mailbox (`Platform.discardMail`) is taking it. -/
theorem context?_discardMail : (p.discardMail b).context? a = (p.takeMail b).2.context? a := by
  unfold discardMail
  split
  · rename_i heq
    rw [heq]
    rfl
  · rename_i heq
    rw [heq]

/-- If nothing more is to be received (`Due.errand`), nothing was. -/
theorem Move.receipt_nil (hm : Move code V same x s y t)
    (hxy : Due.errand a g .mail y = Due.errand a g .mail x) : receipt a g s t = [] := by
  have herrand := hm.errand (a := a) (g := g) (w := .mail)
  rw [hxy] at herrand
  exact List.append_right_eq_self.mp herrand

/-- What a `Move` makes of the receivers of whoever lives somewhere, and of its actor. -/
inductive Alters (a : Address) (x y : Option (Due κ)) (s t : Stage κ) (c d : Context κ) : Prop
  /-- A receiver takes a message, of whoever is at hand, and if nothing is due. -/
  | receives {e : Event} : Receives a c.generation s t e → x = none → c.actor ≠ none →
      d.actor = c.actor → Alters a x y s t c d
  /-- Receivers are armed at most. If the actor was not at hand it still is not, or it is back from
  its code. -/
  | arms : c.Arms d → receipt a c.generation s t = [] → ((c.actor = none → d.actor = none) ∨
      ∃ o actor, x = some (.closing a c.generation o actor) ∧ y = Due.afterwards c a o) →
        Alters a x y s t c d

theorem Move.alters (hm : Move code V same x s y t) (hc : s.platform.context? a = some c) :
    ∃ d, t.platform.context? a = some d ∧ c.Stays d ∧ Alters a x y s t c d := by
  obtain ⟨d, hd, hcd, -⟩ := hm.passes hc
  refine ⟨d, hd, hcd, ?_⟩
  have quiet := hm.receipt_nil (a := a) (g := c.generation)
  -- what the context is like if one is changed, or none
  have changed {b : Address} {f : Context κ → Context κ} (P : Context κ → Prop)
      (ht : t.platform.context? a = (s.platform.modifyContext b f).context? a)
      (hf : b = a → P (f c)) (hsame : P c) : P d := by
    rcases context?_changed (f := f) b hc with ⟨hba, he⟩ | ⟨-, he⟩
    · exact Option.some.inj (hd.symm.trans (ht.trans he)) ▸ hf hba
    · exact Option.some.inj (hd.symm.trans (ht.trans he)) ▸ hsame
  have plain {b : Address} {f : Context κ → Context κ}
      (ht : t.platform.context? a = (s.platform.modifyContext b f).context? a)
      (hf : b = a → (f c).receivers = c.receivers ∧ (f c).actor = c.actor)
      (hxy : Due.errand a c.generation .mail y = Due.errand a c.generation .mail x) :
      Alters a x y s t c d := by
    obtain ⟨hreceivers, hactor⟩ :=
      changed (fun d => d.receivers = c.receivers ∧ d.actor = c.actor) ht hf ⟨rfl, rfl⟩
    exact .arms (.of_eq hreceivers) (quiet hxy) (Or.inl fun hn => hactor.trans hn)
  have kept (ht : t.platform.context? a = s.platform.context? a)
      (hxy : Due.errand a c.generation .mail y = Due.errand a c.generation .mail x) :
      Alters a x y s t c d := by
    obtain rfl := Option.some.inj (hd.symm.trans (ht.trans hc))
    exact .arms (.of_eq rfl) (quiet hxy) (Or.inl id)
  cases hm with
  | beside hb =>
    obtain ⟨e, he, hlike⟩ := hb.context hd
    obtain rfl := Option.some.inj (he.symm.trans hc)
    exact .arms (hb.arms a e d hc hd) (quiet rfl) (Or.inl fun hn => hlike.actor ▸ hn)
  | accept => exact kept rfl rfl
  | @mail b env =>
    exact plain (f := fun c => c.mapMailbox (· ++ [env])) context?_scheduleMail
      (fun _ => ⟨rfl, rfl⟩) rfl
  | hand | takeMail => exact plain rfl (fun _ => ⟨rfl, rfl⟩) rfl
  | discard b =>
    exact plain (f := fun c => c.mapMailbox List.tail) context?_discardMail
      (fun _ => ⟨rfl, rfl⟩) rfl
  | @takeMatch b hit q e _ he hactor htake =>
    by_cases hba : b = a
    · subst hba
      obtain rfl := Option.some.inj (he.symm.trans hc)
      refine .receives (receives_takeMatch hc htake) rfl hactor ?_
      obtain ⟨_, _, _, _, -, -, -, -, -, rfl⟩ := takeMatch_eq htake
      exact changed (fun d => d.actor = e.actor) rfl (fun _ => rfl) rfl
    · obtain ⟨_, _, _, _, -, -, -, -, -, rfl⟩ := takeMatch_eq htake
      exact plain rfl (fun h => absurd h hba) (errand_elsewhere hba _ _)
  | takeBacklog _ htake =>
    obtain ⟨_, _, -, -, -, rfl⟩ := takeBacklog_some htake
    refine plain rfl (fun _ => ⟨rfl, rfl⟩) ?_
    exact if_neg (by simp [Hook.way])
  | out _ _ hx =>
    refine .arms (.of_eq ?_) (quiet (errand_opening _ hx)) (Or.inl ?_)
    · exact changed (fun d => d.receivers = c.receivers) rfl (fun _ => rfl) rfl
    · exact changed (fun d => c.actor = none → d.actor = none) rfl (fun _ _ => rfl) id
  | @back b e o actor _ he =>
    have hxy := ((Due.leaves_afterwards e b o).silent a).2 c.generation .mail
    by_cases hba : b = a
    · subst hba
      obtain rfl := Option.some.inj (he.symm.trans hc)
      refine .arms (.of_eq ?_) (quiet hxy) (Or.inr ⟨o, actor, rfl, rfl⟩)
      exact changed (fun d => d.receivers = e.receivers) rfl (fun _ => rfl) rfl
    · exact plain rfl (fun h => absurd h hba) hxy
  | gone _ hleaves => exact kept rfl ((hleaves.silent a).2 c.generation .mail)

/-- **In a move** a receiver of an incarnation takes a message, or further ones are armed at most
(`Handles`). -/
theorem Move.handles (hm : Move code V same x s y t) (hc : s.platform.context? a = some c) :
    ∃ d, t.platform.context? a = some d ∧ c.Stays d ∧ Handles a s t c d := by
  obtain ⟨d, hd, hcd, halters⟩ := hm.alters hc
  refine ⟨d, hd, hcd, ?_⟩
  cases halters with
  | receives hr => exact .receives hr
  | arms harms hnone => exact .arms harms hnone

/-- **A message is received** only if the first receiver took it (`Receives`). -/
theorem Move.receives (hm : Move code V same x s y t)
    (he : e ∈ s.platform.bus.since t.platform.bus) (hk : e.kind = .messageReceived) :
    V e ∨ ∃ a g, Receives a g s t e := by
  have aside (hg : s.platform.bus.Grown (fun e => e.isAside = true ∨ V e) t.platform.bus) :
      V e ∨ ∃ a g, Receives a g s t e :=
    (hg.since e he).symm.imp id fun hside => absurd hk (Event.kind_of_isAside hside).2
  cases hm with
  | beside hb => exact aside hb.bus
  | accept =>
    rw [eq_of_published he] at hk
    exact absurd hk (by simp [Event.accepted, Event.withEnvelope, Event.about])
  | @mail b env =>
    have hlook : Aloof V (s.platform.putMail b env) _ := .look _ b
    exact aside hlook.bus
  | discard b =>
    have hdrop : Aloof V (s.platform.takeMail b).2 _ := discardMail_aloof s.platform b
    exact aside hdrop.bus
  | @takeMatch b hit q c _ hc _ htake =>
    have hreceives := receives_takeMatch hc htake
    obtain ⟨_, _, _, _, -, -, -, -, -, rfl⟩ := takeMatch_eq htake
    obtain rfl : e = .received b hit.tag hit.envelope := eq_of_published he
    exact Or.inr ⟨b, c.generation, hreceives⟩
  | takeBacklog _ htake =>
    obtain ⟨_, _, -, -, -, rfl⟩ := takeBacklog_some htake
    exact aside (.refl _)
  | hand | takeMail | out | back | gone => exact aside (.refl _)

/-- Tending to actors (`Tended`) leaves the receivers of those who stay as they are. -/
theorem Tended.handles (ht : Tended code same s t) (hi : s.platform.Inv)
    (hc : s.platform.context? a = some c) (hd : t.platform.context? a = some d)
    (hg : d.generation = c.generation) : Handles a s t c d := by
  have hnone : receipt a c.generation s t = [] := receipt_of_went (ht.went hi)
  rcases ht.context.2 a d hd with hd' | ⟨_, _, _, _, hnew, -⟩
  · obtain rfl := Option.some.inj (hc.symm.trans hd')
    exact .arms (.of_eq rfl) hnone
  · exact absurd (hi.table.fresh a c hc) (Nat.not_lt.mpr (hg ▸ hnew))

/-! ## The stack -/

/-- What is known of the receivers of an incarnation: they are its `openings` on top of its
`Context.standing`. -/
structure Stacked (a : Address) (g : Nat) (h : List (Stage κ)) (s : Stage κ) : Prop where
  /-- It has come with a context of its own. -/
  came : ∀ d, debut a g (s :: h) = some d → ∃ n actor b tmpl, d = .new a g n actor b tmpl
  /-- It has behaved in one way all along. -/
  flags : ∀ r ∈ s :: h, ∀ c, r.platform.context? a = some c → c.generation = g →
    ∃ d, debut a g (s :: h) = some d ∧ c.flags = d.flags
  /-- What is open is on top of the standing receiver. -/
  stack : ∀ c d, s.platform.context? a = some c → c.generation = g →
    debut a g (s :: h) = some d → c.receivers = openings a g (s :: h) ++ d.standing
  /-- If there is no standing receiver, each message that was received has used up another. -/
  balance : ∀ d, debut a g (s :: h) = some d → d.standing = [] →
    (receipts a g (s :: h)).length + (openings a g (s :: h)).length = (armings a g (s :: h)).length
  unborn : s.platform.nextGeneration ≤ g →
    debut a g (s :: h) = none ∧ receipts a g (s :: h) = [] ∧ armings a g (s :: h) = []

namespace Stacked

/-- Whoever is gone, or has not come yet, has no part in a change (`Platform.isCurrent`). -/
theorem gone (hs : Stacked a g h s) (ht : t.platform.isCurrent a g = false)
    (hnext : s.platform.nextGeneration ≤ t.platform.nextGeneration) : Stacked a g (s :: h) t := by
  have hdebut : debut a g (t :: s :: h) = debut a g (s :: h) := debut_of_gone ht
  have harmings : armings a g (t :: s :: h) = armings a g (s :: h) := by
    rw [armings, armed_gone ht, List.nil_append]
  have hopenings : openings a g (t :: s :: h) = openings a g (s :: h) := by
    rw [openings, armed_gone ht, receipt_gone ht]
    rfl
  have hreceipts : receipts a g (t :: s :: h) = receipts a g (s :: h) := by
    rw [receipts_cons, receipt_gone ht, List.append_nil]
  have hnobody (c : Context κ) (hc : t.platform.context? a = some c) (hg : c.generation = g) :
      False := absurd (ht.symm.trans (Ledger.current hc hg)) (by simp)
  refine ⟨?_, fun r hr c hc hg => ?_, fun c _ hc hg => (hnobody c hc hg).elim, ?_, fun hg => ?_⟩
  · rw [hdebut]
    exact hs.came
  · rw [hdebut]
    rcases List.mem_cons.mp hr with rfl | hr
    · exact (hnobody c hc hg).elim
    · exact hs.flags r hr c hc hg
  · rw [hdebut, harmings, hopenings, hreceipts]
    exact hs.balance
  · rw [hdebut, harmings, hreceipts]
    exact hs.unborn (Nat.le_trans hnext hg)

/-- The incarnation has just come. -/
theorem born (hs : Stacked a g h s) (hold : s.platform.nextGeneration ≤ g)
    (hgone : s.platform.isCurrent a g = false) (hd : t.platform.context? a = some d)
    {n : Nat} {actor : κ.Actor} {b : Behaviour} {tmpl : Template κ}
    (hnew : d = .new a g n actor b tmpl) (hnext : g < t.platform.nextGeneration) :
    Stacked a g (s :: h) t := by
  obtain ⟨hnone, hreceipts, harmings⟩ := hs.unborn hold
  have hdg : d.generation = g := hnew ▸ rfl
  have hdebut : debut a g (t :: s :: h) = some d := by
    rw [debut_of_live hd hdg, hnone, Option.none_or]
  have harmed : armed a g s t = d.receivers.filter (!·.standing) := by
    unfold armed
    rw [receivers_gone hgone, receivers_eq hd hdg, List.length_nil, Nat.sub_zero, List.take_length]
  have hreceipt : receipt a g s t = [] := by
    refine receipt_of_went (went_away ?_)
    unfold Troupe.stays
    rw [hgone, Bool.false_and]
  have hopen : openings a g (s :: h) = [] :=
    List.sublist_nil.mp (harmings ▸ openings_sublist (s :: h))
  have hopenings : openings a g (t :: s :: h) = d.receivers.filter (!·.standing) := by
    rw [openings, harmed, hopen, List.drop_nil, List.append_nil]
  refine ⟨fun e he => ?_, fun r hr c hc hg => ?_, fun c e hc hg he => ?_, fun e he _ => ?_,
    fun hle => absurd hnext (Nat.not_lt.mpr hle)⟩
  · exact ⟨n, actor, b, tmpl, Option.some.inj (he.symm.trans hdebut) ▸ hnew⟩
  · refine ⟨d, hdebut, ?_⟩
    rcases List.mem_cons.mp hr with rfl | hr
    · rw [Option.some.inj (hc.symm.trans hd)]
    · obtain ⟨e, he, -⟩ := hs.flags r hr c hc hg
      exact absurd (hnone.symm.trans he) (by simp)
  · obtain rfl := Option.some.inj (hc.symm.trans hd)
    obtain rfl := Option.some.inj (he.symm.trans hdebut)
    rw [hopenings, hnew]
    exact (receivers_new n actor b tmpl).2
  · rw [hopenings, receipts_cons, hreceipts, hreceipt, armings, harmed, harmings]
    simp

/-- What is open (`openings`) is on top of what is standing, and it balances if nothing is. -/
def Balanced (a : Address) (h : List (Stage κ)) (c : Context κ) (standing : List Receiver) : Prop :=
  c.receivers = openings a c.generation h ++ standing ∧
    (standing = [] → (receipts a c.generation h).length + (openings a c.generation h).length =
      (armings a c.generation h).length)

/-- Who receives a message uses up what is on top (`Receives`), unless it is standing. -/
theorem served {standing : List Receiver} (hstanding : ∀ r ∈ standing, r.standing = true)
    (hbalanced : Balanced a (s :: h) c standing) (hc : s.platform.context? a = some c)
    (hd : t.platform.context? a = some d) (hr : Receives a c.generation s t e) :
    Balanced a (t :: s :: h) d standing := by
  obtain ⟨hstack, hbalance⟩ := hbalanced
  have hnothing := hr.armed
  obtain ⟨tag, env, hreceipt, -⟩ := hr.receipt
  obtain ⟨hc', -, hfront, -, -, hd', -⟩ := hr
  rename_i c' receiver rest env' box tag'
  obtain rfl := Option.some.inj (hc'.symm.trans hc)
  obtain rfl := Option.some.inj (hd'.symm.trans hd)
  unfold Balanced
  rw [receipts_cons, openings, armings]
  dsimp only
  rw [hnothing, hreceipt]
  cases hopen : openings a c'.generation (s :: h) with
  | nil =>
    -- the standing receiver takes the message
    rw [hopen, hfront, List.nil_append] at hstack
    have hfirst : receiver ∈ standing := hstack ▸ List.mem_cons_self
    rw [if_pos (hstanding receiver hfirst)]
    exact ⟨hstack, fun hnone => absurd (hnone ▸ hfirst) List.not_mem_nil⟩
  | cons o os =>
    rw [hopen, hfront] at hstack
    obtain ⟨rfl, rfl⟩ := List.cons.inj hstack
    have hshot : receiver.standing = false :=
      armings_oneShot _ _ ((openings_sublist _).subset (hopen ▸ List.mem_cons_self))
    rw [if_neg (by simp [hshot])]
    refine ⟨rfl, fun hnone => ?_⟩
    have hsum := hbalance hnone
    rw [hopen] at hsum
    simp only [List.length_append, List.length_cons, List.length_nil, List.nil_append,
      List.drop_succ_cons, List.drop_zero] at hsum ⊢
    omega

/-- What is armed (`Context.Arms`) is open. -/
theorem rearmed {standing : List Receiver} (hbalanced : Balanced a (s :: h) c standing)
    (hc : s.platform.context? a = some c) (hd : t.platform.context? a = some d)
    (hdg : d.generation = c.generation) (harms : c.Arms d)
    (hnone : receipt a c.generation s t = []) : Balanced a (t :: s :: h) d standing := by
  obtain ⟨hstack, hbalance⟩ := hbalanced
  obtain ⟨new, hnew, harms⟩ := harms
  unfold Balanced
  rw [hdg, receipts_cons, openings, armings, armed_eq hc rfl hd hdg hnew harms, hnone, harms,
    hstack, List.length_nil, List.drop_zero, List.append_nil]
  refine ⟨(List.append_assoc _ _ _).symm, fun hnone => ?_⟩
  have hsum := hbalance hnone
  simp only [List.length_append]
  omega

/-- The incarnation stays, and `Handles` its receivers. -/
theorem stays (hs : Stacked a g h s) (hc : s.platform.context? a = some c)
    (hg : c.generation = g) (hd : t.platform.context? a = some d) (hcd : c.Stays d)
    (hhandles : Handles a s t c d) (hold : g < s.platform.nextGeneration)
    (hnext : s.platform.nextGeneration ≤ t.platform.nextGeneration) : Stacked a g (s :: h) t := by
  subst hg
  have hdg := hcd.generation
  obtain ⟨e, he, hflags⟩ := hs.flags s List.mem_cons_self c hc rfl
  have hstack := hs.stack c e hc rfl he
  have hdebut : debut a c.generation (t :: s :: h) = some e := debut_cons he
  have hmade (f : Context κ) (hf : debut a c.generation (t :: s :: h) = some f) : f = e :=
    Option.some.inj (hf.symm.trans hdebut)
  obtain ⟨hstack', hbalance⟩ : Balanced a (t :: s :: h) d e.standing := by
    cases hhandles with
    | receives hr =>
      exact served (fun r hr => (List.mem_filter.mp hr).2) ⟨hstack, hs.balance e he⟩ hc hd hr
    | arms harms hnone => exact rearmed ⟨hstack, hs.balance e he⟩ hc hd hdg harms hnone
  rw [hdg] at hstack' hbalance
  refine ⟨fun f hf => ?_, fun r hr f hf hfg => ?_, fun d' f hd' hdg' hf => ?_, fun f hf hnone => ?_,
    fun hle => absurd hold (Nat.not_lt.mpr (Nat.le_trans hnext hle))⟩
  · exact hmade f hf ▸ hs.came e he
  · refine ⟨e, hdebut, ?_⟩
    rcases List.mem_cons.mp hr with rfl | hr
    · rw [Option.some.inj (hf.symm.trans hd), hcd.flags, hflags]
    · obtain ⟨e', he', hsame⟩ := hs.flags r hr f hf hfg
      rw [hsame, Option.some.inj (he'.symm.trans he)]
  · rw [Option.some.inj (hd'.symm.trans hd), hmade f hf]
    exact hstack'
  · exact hbalance (hmade f hf ▸ hnone)

/-- **A move** (`Move`) keeps the stack. -/
theorem move (hs : Stacked a g h s) (hm : Move code V same x s y t) (hi : s.platform.Inv) :
    Stacked a g (s :: h) t := by
  obtain ⟨hnext, hgen⟩ := hm.generations
  by_cases hcur : s.platform.isCurrent a g = true
  · obtain ⟨c, hc, hg⟩ := isCurrent_iff.mp hcur
    obtain ⟨d, hd, hcd, hhandles⟩ := hm.handles hc
    exact hs.stays hc hg hd hcd hhandles (hg ▸ hi.table.fresh a c hc) (Nat.le_of_eq hnext.symm)
  · refine hs.gone ?_ (Nat.le_of_eq hnext.symm)
    rw [isCurrent_congr (hgen a)]
    exact Bool.not_eq_true _ ▸ hcur

/-- **Tending to actors** (`Tended`) keeps the stack. -/
theorem tended (hs : Stacked a g h s) (ht : Tended code same s t) (hi : s.platform.Inv) :
    Stacked a g (s :: h) t := by
  obtain ⟨hnext, hold⟩ := ht.context
  by_cases hcur : t.platform.isCurrent a g = true
  · obtain ⟨d, hd, rfl⟩ := isCurrent_iff.mp hcur
    rcases hold a d hd with hc | ⟨n, actor, b, tmpl, hnew, hform⟩
    · exact hs.stays hc rfl hd (.refl d) (ht.handles hi hc hd rfl) (hi.table.fresh a d hc) hnext
    · refine hs.born hnew ?_ hd hform (ht.fresh hi.table.fresh hd)
      rw [← Bool.not_eq_true, isCurrent_iff]
      rintro ⟨c, hc, hcg⟩
      exact absurd (hi.table.fresh a c hc) (Nat.not_lt.mpr (hcg ▸ hnew))
  · exact hs.gone (by rwa [← Bool.not_eq_true]) hnext

end Stacked

/-- What happens to receivers from one stage to the next (`Handles`). -/
structure Handled (V : Event → Prop) (s t : Stage κ) : Prop where
  receives : ∀ e ∈ s.platform.bus.since t.platform.bus, e.kind = .messageReceived →
    V e ∨ ∃ a g, Receives a g s t e
  handles : ∀ a c d, s.platform.context? a = some c → t.platform.context? a = some d →
    d.generation = c.generation → Handles a s t c d

theorem Move.handled (hm : Move code V same x s y t) : Handled V s t where
  receives _ he hk := hm.receives he hk
  handles a c d hc hd _ := by
    obtain ⟨d', hd', -, hhandles⟩ := hm.handles hc
    exact Option.some.inj (hd'.symm.trans hd) ▸ hhandles

theorem Tended.handled (ht : Tended code same s t) (hi : s.platform.Inv) : Handled V s t where
  receives _ he hk := absurd hk (ht.bus.since _ he).2
  handles _ _ _ hc hd hg := ht.handles hi hc hd hg

/-! ## Keeping track -/

/-- **The receivers of all incarnations** are kept track of (`Stacked`). -/
def Track.receivers (code : Code κ) (V : Event → Prop) : Track code V where
  same _ _ := True
  holds _ h s := (∀ a g, Stacked a g h s) ∧ (s :: h).IsChain fun t s => Handled V s t
  kept _ _ := True
  same_refl _ := trivial
  same_trans _ _ _ _ _ := trivial
  kept_refl _ := trivial
  kept_trans _ _ := trivial
  freshId _ := trivial
  judge _ _ _ := trivial
  poll _ _ := trivial
  move hm hi hs := ⟨⟨fun a g => (hs.1 a g).move hm hi, .cons_cons hm.handled hs.2⟩, trivial⟩
  tend ht _ hi hs :=
    ⟨⟨fun a g => (hs.1 a g).tended ht hi, .cons_cons (ht.handled hi) hs.2⟩, trivial⟩

open Troupe.Flow in
/-- Whatever application code does, receivers are a stack (`Upheld`). -/
theorem upheld_receivers (hpub : code.Publishes V) : Upheld (Track.receivers code V) :=
  .of_any hpub (fun _ _ => trivial) (fun _ _ _ _ _ _ hs => hs) fun _ _ _ _ _ _ hs => hs

/-- In the beginning nobody has come. -/
theorem stacked_new (config : Config) (trap : Option κ.Trap) (subs : List Subscriber)
    (w : κ.World) : Stacked a g [] (.new config trap subs w) := by
  have hnobody := Moment.context?_new config trap subs w a
  have hdebut : debut a g [.new config trap subs w] = none := by
    show (none : Option (Context κ)).or (Option.filter _ _) = none
    rw [hnobody]
    rfl
  refine ⟨fun d hd => ?_, fun r hr c hc => ?_, fun c d hc => ?_, fun _ _ _ => rfl,
    fun _ => ⟨hdebut, rfl, rfl⟩⟩
  · exact absurd (hdebut.symm.trans hd) (by simp)
  · rw [List.mem_singleton.mp hr] at hc
    exact absurd (hnobody.symm.trans hc) (by simp)
  · exact absurd (hnobody.symm.trans hc) (by simp)

open Moment in
/-- Receivers are not touched between operations (`Outlook`). -/
theorem outlook_receivers (code : Code κ) {V : Event → Prop} {start : κ.World → Prop}
    {mean : Stage κ → Stage κ → Prop} (hmean : ∀ s t, mean s t →
      s.platform.bus.Grown (fun e => e.isReport = true ∨ V e) t.platform.bus) :
    Outlook (Track.receivers code V) start mean fun _ => True :=
  .of_beside (fun config trap subs w _ => ⟨⟨fun _ _ => stacked_new config trap subs w,
      .singleton _⟩, trivial⟩)
    (fun s t hst => ⟨trivial, hmean s t hst⟩) fun _ _ _ _ => trivial

end

end Troupe
