import Troupe.Proofs.Watch.Comings

/-!
# The ledger of an incarnation

Messages reach an incarnation in one of two ways (`Way`): in its mailbox, or in its own hands. From
the stages of a life it can be read off what was put there, what was taken from there, and what the
bus told (`posted`, `takings`, `announced`). A change of the stage counts for an incarnation only if
it is there before and after it (`stays`).

What is kept is a ledger (`Ledger`): what was put into a place is what was taken from there,
followed by what still waits; each message was taken from the head, and the bus tells what became of
those that were taken from a mailbox (`Fate`). And the messages that were put somewhere are those of
which the bus told that they were accepted, in that order, but for one at most that is put somewhere
next (`Due.announcement`).

What a change of the stage is for an incarnation that stays is a `Passage`, which knows only a few
cases, and a passage is entered into the ledger.

Each change of the platform that concerns mail is one case of it: `passes_mail` and `passes_hand`
put a message into its place, `passes_takeMatch`, `passes_takeMail` and `passes_takeBacklog` take
one from there, `passes_discard` drops one, and `Passes.quiet` and `Passes.told` are for all others.

Headlines:
* **`Move.passes`**: a move is a passage for whoever lives somewhere.
* **`Ledger.pass`**: a passage is entered into the ledger.
* **`Ledger.move`**, **`Ledger.tended`**: moves and tending to actors keep the ledger.
* `Track.ledger`, `upheld_ledger`: the ledgers of all incarnations are kept.
-/

namespace Troupe

variable {κ : App}

open Platform

/-! ## Reading off -/

/-- What was published on a bus since (`Bus.published`). -/
def Bus.since (b b' : Bus) : List Event :=
  b'.published.toList.drop b.published.size

/-- The messages that wait in a way: in the `Context.mailbox`, or in the `Context.backlog`. -/
def Context.waiting (c : Context κ) : Way → List Envelope
  | .mail => c.mailbox.getD []
  | .hand => c.backlog

theorem Context.Alike.waiting {c d : Context κ} (h : c.Alike d) (w : Way) :
    c.waiting w = d.waiting w := by
  cases w with
  | mail => exact congrArg (Option.getD · []) h.mailbox
  | hand => exact h.backlog

/-- The messages that wait for an incarnation in a way (`Context.waiting`). -/
def Platform.waiting (p : Platform κ) (a : Address) (g : Nat) (w : Way) : List Envelope :=
  match p.context? a with
  | some c => if c.generation = g then c.waiting w else []
  | none => []

/-- What comes of the stages of a life, the latest first, if something comes of each two that follow
one another. -/
def tally {β : Type} (f : Stage κ → Stage κ → List β) : List (Stage κ) → List β
  | t :: s :: h => tally f (s :: h) ++ f s t
  | [_] | [] => []

section Step

variable (a : Address) (g : Nat) (s t : Stage κ)

/-- Whether an incarnation is there on both stages (`Platform.isCurrent`). -/
def stays : Bool :=
  s.platform.isCurrent a g && t.platform.isCurrent a g

/-- What is put into a place (`Platform.waiting`) from one stage to the next. -/
def came (w : Way) : List Envelope :=
  if stays a g s t then
    (t.platform.waiting a g w).drop (s.platform.waiting a g w).length
  else []

/-- What is taken from a place (`Platform.waiting`) from one stage to the next, and what is
published meanwhile (`Bus.since`). -/
def went (w : Way) : List (Envelope × List Event) :=
  if stays a g s t then
    ((s.platform.waiting a g w).take
      ((s.platform.waiting a g w).length - (t.platform.waiting a g w).length)).map
        fun env => (env, s.platform.bus.since t.platform.bus)
  else []

/-- What the bus tells of messages that an incarnation accepts from one stage to the next
(`Event.accepted`). -/
def told : List Event :=
  if stays a g s t then
    (s.platform.bus.since t.platform.bus).filter fun e =>
      e.kind == .messageAccepted && e.address == some a
  else []

end Step

/-- What was put somewhere for an incarnation (`came`), in order. -/
def posted (a : Address) (g : Nat) : List (Stage κ) → List (Way × Envelope) :=
  tally fun s t => (came a g s t .mail).map (.mail, ·) ++ (came a g s t .hand).map (.hand, ·)

/-- What was put into one place, in order (`posted`). -/
def arrivals (a : Address) (g : Nat) (w : Way) (h : List (Stage κ)) : List Envelope :=
  (posted a g h).filterMap fun x => if x.1 = w then some x.2 else none

/-- What was taken from one place (`went`), in order, each message with what was published then. -/
def takings (a : Address) (g : Nat) (w : Way) : List (Stage κ) → List (Envelope × List Event) :=
  tally fun s t => went a g s t w

/-- What the bus told of messages that an incarnation accepted (`told`). -/
def announced (a : Address) (g : Nat) : List (Stage κ) → List Event :=
  tally (told a g)

/-- What the bus tells of a message that was taken from a mailbox: that a receiver took it
(`Event.received`), that it was dropped, or nothing, if the actor's script has taken it. -/
inductive Fate (a : Address) : Envelope × List Event → Prop
  | received (tag : String) (env : Envelope) : Fate a (env, [.received a tag env])
  | dropped (env : Envelope) : Fate a (env, [.dropped env])
  | dequeued (env : Envelope) : Fate a (env, [])

/-- What the bus has told of a message that is to be put somewhere next (`Event.accepted`). -/
def Due.announcement (a : Address) : Option (Due κ) → List Event
  | some (.arrival b env) => if b = a then [.accepted b env] else []
  | _ => []

/-- The occasions to act that come of a message that was taken: one in its own hands is accepted
(`Hook.accept`), one that a receiver took is received. -/
def Way.occasions : Way → Envelope × List Event → List Hook
  | .hand, (env, _) => [.accept env]
  | .mail, (env, es) => es.filterMap fun e =>
      if e.kind = .messageReceived then some (.receive (e.reason.getD "") env) else none

/-- The occasion on which an incarnation is to act next, because of a message that came in a way
(`Way`). -/
def Due.errand (a : Address) (g : Nat) (w : Way) : Option (Due κ) → List Hook
  | some (.hook b l occasion) | some (.opening b l occasion _) =>
    if (b = a ∧ l = g) ∧ occasion.way = some w then [occasion] else []
  | some (.arrival _ _) | some (.closing _ _ _ _) | some (.parting _ _) | none => []

theorem Due.length_announcement (a : Address) (x : Option (Due κ)) :
    (announcement a x).length ≤ 1 := by
  unfold announcement
  split
  · split <;> simp
  · simp

theorem Due.length_errand (a : Address) (g : Nat) (w : Way) (x : Option (Due κ)) :
    (errand a g w x).length ≤ 1 := by
  unfold errand
  split
  all_goals first
    | (split <;> simp)
    | simp

/-- Whoever is removed next is not to act (`Due.errand`), and accepts nothing (`Due.announcement`).
-/
theorem Due.Leaves.silent {b : Address} {l : Nat} {y : Option (Due κ)} (h : Due.Leaves b l y)
    (a : Address) : Due.announcement a y = [] ∧ ∀ g w, Due.errand a g w y = [] := by
  cases h <;> exact ⟨rfl, fun _ _ => rfl⟩

theorem Due.Done.silent {p : Platform κ} {x : Option (Due κ)} (h : Due.Done p x) (a : Address) :
    Due.announcement a x = [] ∧ ∀ g w, Due.errand a g w x = [] := by
  cases h <;> exact ⟨rfl, fun _ _ => rfl⟩

/-- The ledger of an incarnation: its `arrivals` and its `takings`, what it is to be told of, and
what waits. -/
structure Ledger (V : Event → Prop) (a : Address) (g : Nat) (x : Option (Due κ))
    (h : List (Stage κ)) (s : Stage κ) : Prop where
  balance : ∀ c, s.platform.context? a = some c → c.generation = g → ∀ w,
    arrivals a g w (s :: h) = (takings a g w (s :: h)).map Prod.fst ++ c.waiting w
  behind : ∀ w, (takings a g w (s :: h)).map Prod.fst <+: arrivals a g w (s :: h)
  fates : ∀ y ∈ takings a g .mail (s :: h), Fate a y
  ways : ∀ c, s.platform.context? a = some c → c.generation = g →
    ∀ y ∈ posted a g (s :: h), y.1 = c.way a y.2
  unborn : s.platform.nextGeneration ≤ g → posted a g (s :: h) = [] ∧
    (∀ w, takings a g w (s :: h) = []) ∧ announced a g (s :: h) = []
  heard : Echoes (∀ e, V e → e.kind ≠ .messageAccepted)
    ((posted a g (s :: h)).map (fun y => .accepted a y.2) ++
      if s.platform.isCurrent a g then Due.announcement a x else []) (announced a g (s :: h))

/-! ## Lists -/

section Lists

variable {a : Address} {g : Nat} {w : Way} {s t : Stage κ} {h : List (Stage κ)} {b b' : Bus}
  {e : Event} {P : Event → Prop}

theorem since_self (b : Bus) : b.since b = [] := by
  unfold Bus.since
  exact List.drop_eq_nil_of_le (by simp)

theorem since_publish (b : Bus) (e : Event) : b.since (b.publish e) = [e] := by
  unfold Bus.since Bus.publish
  rw [Array.toList_push]
  exact List.drop_left' (by simp)

theorem Bus.Grown.since (hg : b.Grown P b') : ∀ e ∈ b.since b', P e := by
  obtain ⟨es, hes, hP⟩ := hg
  unfold Bus.since
  rw [hes, List.drop_left' (by simp)]
  exact hP

theorem posted_cons : posted a g (t :: s :: h) = posted a g (s :: h) ++
    ((came a g s t .mail).map (.mail, ·) ++ (came a g s t .hand).map (.hand, ·)) := rfl

theorem takings_cons :
    takings a g w (t :: s :: h) = takings a g w (s :: h) ++ went a g s t w := rfl

theorem announced_cons :
    announced a g (t :: s :: h) = announced a g (s :: h) ++ told a g s t := rfl

theorem arrivals_cons :
    arrivals a g w (t :: s :: h) = arrivals a g w (s :: h) ++ came a g s t w := by
  unfold arrivals
  rw [posted_cons, List.filterMap_append, List.filterMap_append, List.filterMap_map,
    List.filterMap_map]
  cases w <;> simp

end Lists

/-! ## One step of an incarnation -/

/-- What becomes of the context of an incarnation that stays: it is buffered or not as before, and
keeps its flags. -/
structure Context.Stays (c d : Context κ) : Prop where
  generation : d.generation = c.generation
  isBuffered : d.isBuffered = c.isBuffered
  flags : d.flags = c.flags

theorem Context.Stays.refl (c : Context κ) : c.Stays c := ⟨rfl, rfl, rfl⟩

theorem Context.Stays.way {c d : Context κ} (h : c.Stays d) (a : Address) (env : Envelope) :
    d.way a env = c.way a env := by
  unfold Context.way
  rw [h.isBuffered, h.flags]

theorem Context.Stays.mapMailbox (c : Context κ) (f : List Envelope → List Envelope) :
    c.Stays (c.mapMailbox f) :=
  ⟨rfl, Option.isSome_map, rfl⟩

/-- What a change of the stage is for an incarnation that is there before and after it (`stays`). -/
inductive Passage (V : Event → Prop) (a : Address) (x y : Option (Due κ)) (c d : Context κ)
    (es : List Event) : Prop
  | idle : (∀ w, d.waiting w = c.waiting w) →
      ((∀ e, V e → e.kind ≠ .messageAccepted) → ∀ e ∈ es, e.kind ≠ .messageAccepted ∨
        e.address ≠ some a) → Due.announcement a y = Due.announcement a x →
          (∀ w, Due.errand a c.generation w y = Due.errand a c.generation w x) →
            Passage V a x y c d es
  | accepts (env : Envelope) : (∀ w, d.waiting w = c.waiting w) → es = [.accepted a env] →
      x = none → y = some (.arrival a env) → Passage V a x y c d es
  | gets (w : Way) (env : Envelope) : d.waiting w = c.waiting w ++ [env] →
      (∀ v, v ≠ w → d.waiting v = c.waiting v) → es = [] → x = some (.arrival a env) → y = none →
        c.way a env = w → Passage V a x y c d es
  | loses (w : Way) (env : Envelope) : c.waiting w = env :: d.waiting w →
      (∀ v, v ≠ w → d.waiting v = c.waiting v) → (∀ e ∈ es, e.kind ≠ .messageAccepted) →
        Due.announcement a x = [] → Due.announcement a y = [] →
          (w = .mail → Fate a (env, es)) → (∀ v, Due.errand a c.generation v x = []) →
            (∀ v, Due.errand a c.generation v y = if v = w then w.occasions (env, es) else []) →
              Passage V a x y c d es

namespace Ledger

variable {V : Event → Prop} {a : Address} {g : Nat} {x y : Option (Due κ)} {s t : Stage κ}
  {h : List (Stage κ)} {c d : Context κ}

theorem waiting_eq {p : Platform κ} (hc : p.context? a = some c) (hg : c.generation = g)
    (w : Way) : p.waiting a g w = c.waiting w := by
  unfold Platform.waiting
  rw [hc]
  exact if_pos hg

theorem current {p : Platform κ} (hc : p.context? a = some c) (hg : c.generation = g) :
    p.isCurrent a g = true :=
  isCurrent_iff.mpr ⟨c, hc, hg⟩

/-- An incarnation that is not there before or not after a change takes no part in it (`posted`,
`takings`, `announced`). -/
theorem away (hst : stays a g s t = false) (w : Way) :
    posted a g (t :: s :: h) = posted a g (s :: h) ∧
      takings a g w (t :: s :: h) = takings a g w (s :: h) ∧
      announced a g (t :: s :: h) = announced a g (s :: h) := by
  rw [posted_cons, takings_cons, announced_cons]
  simp [came, went, told, hst]

/-- The incarnation is gone, and nothing was due that it accepted (`Due.announcement`). -/
theorem absent (hl : Ledger V a g x h s)
    (hx : s.platform.isCurrent a g = true → Due.announcement a x = [])
    (ht : t.platform.isCurrent a g = false)
    (hnext : s.platform.nextGeneration ≤ t.platform.nextGeneration) :
    Ledger V a g y (s :: h) t := by
  have hst : stays a g s t = false := by
    unfold stays
    rw [ht, Bool.and_false]
  have hgone (c : Context κ) (hc : t.platform.context? a = some c) (hg : c.generation = g) :
      False := absurd (ht.symm.trans (current hc hg)) (by simp)
  have harrive (w : Way) : arrivals a g w (t :: s :: h) = arrivals a g w (s :: h) :=
    congrArg (List.filterMap _) (away hst w).1
  refine ⟨fun c hc hg => (hgone c hc hg).elim, fun w => ?_, ?_, fun c hc hg => (hgone c hc hg).elim,
    fun hg => ?_, ?_⟩
  · rw [harrive, (away hst w).2.1]
    exact hl.behind w
  · rw [(away hst .mail).2.1]
    exact hl.fates
  · obtain ⟨hp, htk, ha⟩ := hl.unborn (Nat.le_trans hnext hg)
    exact ⟨(away hst .mail).1.trans hp, fun w => (away hst w).2.1.trans (htk w),
      (away hst .mail).2.2.trans ha⟩
  · rw [(away hst .mail).2.2, (away hst .mail).1, ht]
    have hnone : (if s.platform.isCurrent a g then Due.announcement a x else []) = [] := by
      split
      · exact hx ‹_›
      · rfl
    have hheard := hl.heard
    rw [hnone] at hheard
    exact hheard

/-- The incarnation has just come: nothing waits for it yet. -/
theorem born (hl : Ledger V a g x h s) (hs : s.platform.nextGeneration ≤ g)
    (hst : stays a g s t = false) (hc : t.platform.context? a = some c)
    (hempty : ∀ w, c.waiting w = []) (hold : g < t.platform.nextGeneration)
    (hy : Due.announcement a y = []) : Ledger V a g y (s :: h) t := by
  obtain ⟨hp, htk, ha⟩ := hl.unborn hs
  have hposted : posted a g (t :: s :: h) = [] := (away hst .mail).1.trans hp
  have htakings (w : Way) : takings a g w (t :: s :: h) = [] := (away hst w).2.1.trans (htk w)
  have hnone (w : Way) : arrivals a g w (t :: s :: h) = [] := by
    unfold arrivals
    rw [hposted]
    rfl
  refine ⟨fun d hd hdg w => ?_, fun w => ?_, ?_, fun d hd hdg y hmem => ?_,
    fun hle => absurd hold (Nat.not_lt.mpr hle), .of_eq ?_⟩
  · obtain rfl := Option.some.inj (hc.symm.trans hd)
    rw [hnone, htakings, hempty]
    rfl
  · rw [hnone, htakings]
    exact List.prefix_rfl
  · rw [htakings]
    exact fun _ hy => absurd hy List.not_mem_nil
  · rw [hposted] at hmem
    exact absurd hmem List.not_mem_nil
  · rw [(away hst .mail).2.2, ha, hposted, hy]
    simp

/-- What a step adds to a ledger: what it puts into each place (`came`) and takes from there
(`went`), and what it tells (`told`). -/
theorem step (hl : Ledger V a g x h s) (hc : s.platform.context? a = some c)
    (hg : c.generation = g) (hd : t.platform.context? a = some d)
    (hkind : c.Stays d) (hnext : s.platform.nextGeneration ≤ t.platform.nextGeneration)
    (hbalance : ∀ w, c.waiting w ++ came a g s t w =
      (went a g s t w).map Prod.fst ++ d.waiting w)
    (hfates : ∀ y ∈ went a g s t .mail, Fate a y)
    (hways : ∀ w, ∀ env ∈ came a g s t w, w = c.way a env)
    (hold : g < s.platform.nextGeneration)
    (htold : Echoes (∀ e, V e → e.kind ≠ .messageAccepted)
      (((came a g s t .mail).map (.accepted a) ++ (came a g s t .hand).map (.accepted a)) ++
        Due.announcement a y) (Due.announcement a x ++ told a g s t)) :
    Ledger V a g y (s :: h) t := by
  have hdg : d.generation = g := hkind.generation.trans hg
  have harrive (w : Way) : arrivals a g w (t :: s :: h) =
      ((takings a g w (s :: h)).map Prod.fst ++ (went a g s t w).map Prod.fst) ++ d.waiting w := by
    rw [arrivals_cons, hl.balance c hc hg, List.append_assoc, hbalance, List.append_assoc]
  refine ⟨fun e he heg w => ?_, fun w => ?_, ?_, fun e he heg => ?_, fun hle => ?_, ?_⟩
  · obtain rfl := Option.some.inj (hd.symm.trans he)
    rw [harrive, takings_cons, List.map_append]
  · rw [harrive, takings_cons, List.map_append]
    exact List.prefix_append _ _
  · rw [takings_cons]
    exact fun y hy => (List.mem_append.mp hy).elim (hl.fates y) (hfates y)
  · obtain rfl := Option.some.inj (hd.symm.trans he)
    rw [posted_cons]
    intro y hy
    rw [hkind.way]
    rcases List.mem_append.mp hy with hy | hy
    · exact hl.ways c hc hg y hy
    · rcases List.mem_append.mp hy with hy | hy <;>
      · obtain ⟨env, henv, rfl⟩ := List.mem_map.mp hy
        exact hways _ env henv
  · exact absurd hold (Nat.not_lt.mpr (Nat.le_trans hnext hle))
  · have hheard := hl.heard
    rw [current hc hg, if_pos rfl] at hheard
    have hnext := hheard.next htold
    rw [announced_cons, posted_cons, current hd hdg, if_pos rfl, List.map_append, List.map_append,
      List.map_map, List.map_map, List.append_assoc]
    exact hnext

/-! ### What comes and goes in a step -/

section Staying

variable {w : Way}

theorem stays_of (hc : s.platform.context? a = some c) (hg : c.generation = g)
    (hd : t.platform.context? a = some d) (hcd : c.Stays d) : stays a g s t = true := by
  unfold stays
  rw [current hc hg, current hd (hcd.generation.trans hg)]
  rfl

theorem came_eq (hc : s.platform.context? a = some c) (hg : c.generation = g)
    (hd : t.platform.context? a = some d) (hcd : c.Stays d) :
    came a g s t w = (d.waiting w).drop (c.waiting w).length := by
  unfold came
  rw [if_pos (stays_of hc hg hd hcd), waiting_eq hc hg, waiting_eq hd (hcd.generation.trans hg)]

theorem went_eq (hc : s.platform.context? a = some c) (hg : c.generation = g)
    (hd : t.platform.context? a = some d) (hcd : c.Stays d) :
    went a g s t w = ((c.waiting w).take ((c.waiting w).length - (d.waiting w).length)).map
      fun env => (env, s.platform.bus.since t.platform.bus) := by
  unfold went
  rw [if_pos (stays_of hc hg hd hcd), waiting_eq hc hg, waiting_eq hd (hcd.generation.trans hg)]

/-- What waits is the same: nothing `came` and nothing `went`. -/
theorem still (hc : s.platform.context? a = some c) (hg : c.generation = g)
    (hd : t.platform.context? a = some d) (hcd : c.Stays d) (h : d.waiting w = c.waiting w) :
    came a g s t w = [] ∧ went a g s t w = [] := by
  rw [came_eq hc hg hd hcd, went_eq hc hg hd hcd, h, List.drop_length, Nat.sub_self, List.take_zero]
  exact ⟨rfl, rfl⟩

/-- A message more waits: it `came`. -/
theorem entered {env : Envelope} (hc : s.platform.context? a = some c) (hg : c.generation = g)
    (hd : t.platform.context? a = some d) (hcd : c.Stays d)
    (h : d.waiting w = c.waiting w ++ [env]) : came a g s t w = [env] ∧ went a g s t w = [] := by
  rw [came_eq hc hg hd hcd, went_eq hc hg hd hcd, h, List.drop_left, List.length_append,
    Nat.sub_eq_zero_of_le (by simp)]
  exact ⟨rfl, rfl⟩

/-- The head of what waits is taken: it `went`. -/
theorem taken {env : Envelope} (hc : s.platform.context? a = some c) (hg : c.generation = g)
    (hd : t.platform.context? a = some d) (hcd : c.Stays d)
    (h : c.waiting w = env :: d.waiting w) : came a g s t w = [] ∧
      went a g s t w = [(env, s.platform.bus.since t.platform.bus)] := by
  rw [came_eq hc hg hd hcd, went_eq hc hg hd hcd, h]
  refine ⟨List.drop_eq_nil_of_le (by simp), ?_⟩
  rw [List.length_cons, Nat.add_sub_cancel_left]
  rfl

theorem told_nil (h : ∀ e ∈ s.platform.bus.since t.platform.bus,
    e.kind ≠ .messageAccepted ∨ e.address ≠ some a) : told a g s t = [] := by
  unfold told
  split
  · rw [List.filter_eq_nil_iff]
    intro e he
    rcases h e he with hk | ha
    · simp [hk]
    · simp [ha]
  · rfl

end Staying

/-- In a `Passage` nothing happens to what waits in a way, or one message more waits, or the head of
what waits is taken. -/
theorem either {es : List Event} (hp : Passage V a x y c d es) (w : Way) :
    d.waiting w = c.waiting w ∨
      (∃ env, d.waiting w = c.waiting w ++ [env] ∧ c.way a env = w) ∨
      ∃ env, c.waiting w = env :: d.waiting w ∧ (w = .mail → Fate a (env, es)) := by
  cases hp with
  | idle hsame | accepts _ hsame => exact Or.inl (hsame w)
  | gets v env hput hsame _ _ _ hway =>
    by_cases hv : w = v
    · subst hv
      exact Or.inr (Or.inl ⟨env, hput, hway⟩)
    · exact Or.inl (hsame w hv)
  | loses v env htake hsame _ _ _ hfate =>
    by_cases hv : w = v
    · subst hv
      exact Or.inr (Or.inr ⟨env, htake, hfate⟩)
    · exact Or.inl (hsame w hv)

/-- What was due and what comes is told in a `Passage`. -/
theorem tells (hc : s.platform.context? a = some c) (hg : c.generation = g)
    (hd : t.platform.context? a = some d) (hcd : c.Stays d)
    (hp : Passage V a x y c d (s.platform.bus.since t.platform.bus)) :
    Echoes (∀ e, V e → e.kind ≠ .messageAccepted)
      (((came a g s t .mail).map (.accepted a) ++ (came a g s t .hand).map (.accepted a)) ++
        Due.announcement a y) (Due.announcement a x ++ told a g s t) := by
  have hstill {w : Way} (h : d.waiting w = c.waiting w) : came a g s t w = [] :=
    (still hc hg hd hcd h).1
  cases hp with
  | idle hsame hquiet hdue _ =>
    rw [hstill (hsame _), hstill (hsame _), hdue]
    refine ⟨List.sublist_append_left _ _, fun hV => ?_⟩
    rw [told_nil (hquiet hV), List.append_nil]
    rfl
  | accepts env hsame hes hx hy =>
    have htold : told a g s t = [.accepted a env] := by
      unfold told
      rw [if_pos (stays_of hc hg hd hcd), hes]
      exact List.filter_cons_of_pos (by simp [Event.accepted, Event.withEnvelope, Event.about])
    rw [hstill (hsame _), hstill (hsame _), htold, hx, hy]
    exact .of_eq (by simp [Due.announcement])
  | gets w env hput hsame hes hx hy _ =>
    have hcame := (entered hc hg hd hcd hput).1
    rw [told_nil (by rw [hes]; exact fun _ he => absurd he List.not_mem_nil), hx, hy]
    cases w with
    | mail => exact .of_eq (by simp [hcame, hstill (hsame .hand (by simp)), Due.announcement])
    | hand => exact .of_eq (by simp [hcame, hstill (hsame .mail (by simp)), Due.announcement])
  | loses w env htake hsame hes hx hy _ _ _ =>
    have hcame (v : Way) : came a g s t v = [] := by
      by_cases hv : v = w
      · exact hv ▸ (taken hc hg hd hcd htake).1
      · exact hstill (hsame v hv)
    rw [hcame, hcame, told_nil fun e he => Or.inl (hes e he), hx, hy]
    exact .of_eq rfl

/-- **A passage** (`Passage`) is entered into the ledger. -/
theorem pass (hl : Ledger V a g x h s) (hi : s.platform.Inv) (hc : s.platform.context? a = some c)
    (hg : c.generation = g) (hd : t.platform.context? a = some d)
    (hcd : c.Stays d) (hnext : s.platform.nextGeneration ≤ t.platform.nextGeneration)
    (hp : Passage V a x y c d (s.platform.bus.since t.platform.bus)) :
    Ledger V a g y (s :: h) t := by
  refine hl.step hc hg hd hcd hnext (fun w => ?balance) ?fates (fun w env henv => ?ways)
    (hg ▸ hi.table.fresh a c hc) (tells hc hg hd hcd hp)
  case balance =>
    rcases either hp w with hw | ⟨env, hw, -⟩ | ⟨env, hw, -⟩
    · obtain ⟨hcame, hwent⟩ := still hc hg hd hcd hw
      rw [hcame, hwent, hw, List.append_nil]
      rfl
    · obtain ⟨hcame, hwent⟩ := entered hc hg hd hcd hw
      rw [hcame, hwent, hw]
      rfl
    · obtain ⟨hcame, hwent⟩ := taken hc hg hd hcd hw
      rw [hcame, hwent, hw, List.append_nil]
      rfl
  case fates =>
    rcases either hp .mail with hw | ⟨env, hw, -⟩ | ⟨env, hw, hfate⟩
    · rw [(still hc hg hd hcd hw).2]
      exact fun _ hy => absurd hy List.not_mem_nil
    · rw [(entered hc hg hd hcd hw).2]
      exact fun _ hy => absurd hy List.not_mem_nil
    · rw [(taken hc hg hd hcd hw).2]
      exact fun _ hy => List.mem_singleton.mp hy ▸ hfate rfl
  case ways =>
    rcases either hp w with hw | ⟨env', hw, hway⟩ | ⟨env', hw, -⟩
    · rw [(still hc hg hd hcd hw).1] at henv
      exact absurd henv List.not_mem_nil
    · rw [(entered hc hg hd hcd hw).1] at henv
      exact List.mem_singleton.mp henv ▸ hway.symm
    · rw [(taken hc hg hd hcd hw).1] at henv
      exact absurd henv List.not_mem_nil

/-- What is taken in a passage is what the incarnation is to act on next (`Due.errand`). -/
theorem errand (hc : s.platform.context? a = some c) (hg : c.generation = g)
    (hd : t.platform.context? a = some d) (hcd : c.Stays d)
    (hp : Passage V a x y c d (s.platform.bus.since t.platform.bus)) (w : Way) :
    Due.errand a g w x ++ (went a g s t w).flatMap w.occasions = Due.errand a g w y := by
  subst hg
  have hstill {w : Way} := still (w := w) hc rfl hd hcd
  cases hp with
  | idle hsame _ _ herrand =>
    rw [(hstill (hsame w)).2, herrand]
    exact List.append_nil _
  | accepts env hsame _ hx hy =>
    rw [(hstill (hsame w)).2, hx, hy]
    rfl
  | gets v env hput hsame _ hx hy _ =>
    have hnone : went a c.generation s t w = [] := by
      by_cases hv : w = v
      · exact hv ▸ (entered hc rfl hd hcd hput).2
      · exact (hstill (hsame w hv)).2
    rw [hnone, hx, hy]
    rfl
  | loses v env htake hsame _ _ _ _ hx hy =>
    rw [hx, hy]
    by_cases hv : w = v
    · subst hv
      rw [(taken hc rfl hd hcd htake).2, if_pos rfl]
      exact List.append_nil _
    · rw [(hstill (hsame w hv)).2, if_neg hv]
      rfl

end Ledger

/-! ## Moves -/

section Moves

variable {code : Code κ} {V : Event → Prop} {same : κ.World → κ.World → Prop}
  {x y : Option (Due κ)} {s t : Stage κ} {a b : Address} {c d : Context κ} {g : Nat}

/-- What becomes of whoever lives somewhere if a context is changed (`Platform.modifyContext`). -/
theorem context?_changed {p : Platform κ} {f : Context κ → Context κ} (b : Address)
    (hc : p.context? a = some c) :
    (b = a ∧ (p.modifyContext b f).context? a = some (f c)) ∨
      (b ≠ a ∧ (p.modifyContext b f).context? a = some c) := by
  rw [context?_modifyContext_eq, hc, Option.map_some]
  by_cases h : a = b
  · exact Or.inl ⟨h.symm, by rw [if_pos h]⟩
  · exact Or.inr ⟨Ne.symm h, by rw [if_neg h]⟩

/-- What a change of the stage is for whoever lives at an address (`Passage`). -/
def Passes (V : Event → Prop) (a : Address) (x y : Option (Due κ)) (c : Context κ)
    (s t : Stage κ) : Prop :=
  ∃ d, t.platform.context? a = some d ∧ c.Stays d ∧
    Passage V a x y c d (s.platform.bus.since t.platform.bus)

/-- Nothing is told, and nothing that concerns mail is changed. -/
theorem Passes.quiet (hd : t.platform.context? a = some d) (hcd : c.Stays d)
    (hw : ∀ w, d.waiting w = c.waiting w) (hbus : t.platform.bus = s.platform.bus)
    (hdue : Due.announcement a y = Due.announcement a x)
    (herrand : ∀ w, Due.errand a c.generation w y = Due.errand a c.generation w x) :
    Passes V a x y c s t := by
  refine ⟨d, hd, hcd, .idle hw (fun _ e he => ?_) hdue herrand⟩
  rw [hbus, since_self] at he
  exact absurd he List.not_mem_nil

/-- Something is told of that is not a message that is accepted. -/
theorem Passes.told {e : Event} (hc : t.platform.context? a = some c)
    (hbus : t.platform.bus = s.platform.bus.publish e)
    (he : e.kind ≠ .messageAccepted ∨ e.address ≠ some a)
    (hdue : Due.announcement a y = Due.announcement a x)
    (herrand : ∀ w, Due.errand a c.generation w y = Due.errand a c.generation w x) :
    Passes V a x y c s t := by
  refine ⟨c, hc, .refl c, .idle (fun _ => rfl) (fun _ e' he' => ?_) hdue herrand⟩
  rw [hbus, since_publish] at he'
  exact List.mem_singleton.mp he' ▸ he

/-- The head of a mailbox is taken, and something may be told of it. -/
theorem Passes.takeHead {env : Envelope} {box : List Envelope} {es : List Event}
    (hc : c.mailbox = some (env :: box)) (hd : t.platform.context? a = some d) (hcd : c.Stays d)
    (hbox : d.mailbox = some box) (hback : d.backlog = c.backlog)
    (hbus : s.platform.bus.since t.platform.bus = es) (hfate : Fate a (env, es))
    (hx : Due.announcement a x = []) (hy : Due.announcement a y = [])
    (herrand : ∀ w, Due.errand a c.generation w x = [])
    (herrand' : ∀ w, Due.errand a c.generation w y = if w = .mail
      then Way.mail.occasions (env, es) else []) : Passes V a x y c s t := by
  refine ⟨d, hd, hcd, .loses .mail env ?_ (fun v hv => ?_) (fun e he => ?_) hx hy (fun _ => ?_)
    herrand (hbus ▸ herrand')⟩
  · show c.mailbox.getD [] = env :: d.mailbox.getD []
    rw [hc, hbox]
    rfl
  · cases v with
    | mail => exact absurd rfl hv
    | hand => exact hback
  · rw [hbus] at he
    cases hfate with
    | received tag => exact List.mem_singleton.mp he ▸ by simp [Event.received, Event.withEnvelope]
    | dropped => exact List.mem_singleton.mp he ▸ by simp [Event.dropped, Event.withEnvelope]
    | dequeued => exact absurd he List.not_mem_nil
  · exact hbus ▸ hfate

/-- The head of a mailbox is taken (`Platform.takeMail`), if there is one. -/
theorem passes_takeMail (b : Address) (hc : s.platform.context? a = some c) :
    Passes V a none none c s { s with platform := (s.platform.takeMail b).2 } := by
  rcases context?_changed (f := fun c => c.mapMailbox List.tail) b hc with ⟨rfl, hd⟩ | ⟨-, hd⟩
  · rcases hbox : c.mailbox with _ | _ | ⟨env, box⟩
    · exact .quiet hd (.mapMailbox c _)
        (fun w => by cases w <;> simp [Context.waiting, Context.mapMailbox, hbox]) rfl rfl
        fun _ => rfl
    · exact .quiet hd (.mapMailbox c _)
        (fun w => by cases w <;> simp [Context.waiting, Context.mapMailbox, hbox]) rfl rfl
        fun _ => rfl
    · refine .takeHead hbox hd (.mapMailbox c _) ?_ rfl (since_self _) (.dequeued env) rfl rfl
        (fun _ => rfl) fun w => by cases w <;> rfl
      exact congrArg (Option.map List.tail) hbox
  · exact .quiet hd (.refl c) (fun _ => rfl) rfl rfl fun _ => rfl

theorem passes_discard (b : Address) (hc : s.platform.context? a = some c) :
    Passes V a none none c s (s.edit (·.discardMail b)) := by
  unfold Stage.edit discardMail takeMail
  dsimp only
  cases hhead : (s.platform.context? b).bind fun c => c.mailbox.bind List.head? with
  | none => exact passes_takeMail b hc
  | some env =>
    dsimp only
    rcases context?_changed (f := fun c => c.mapMailbox List.tail) b hc with ⟨rfl, hd⟩ | ⟨-, hd⟩
    · rw [hc, Option.bind_some] at hhead
      obtain ⟨box, hbox, hhead⟩ := Option.bind_eq_some_iff.mp hhead
      obtain ⟨rest, rfl⟩ := List.head?_eq_some_iff.mp hhead
      refine .takeHead hbox hd (.mapMailbox c _) ?_ rfl (since_publish _ _) (.dropped env) rfl rfl
        (fun _ => rfl) fun w => by cases w <;> rfl
      exact congrArg (Option.map List.tail) hbox
    · exact .told hd rfl (Or.inl (by simp [Event.withEnvelope])) rfl fun _ => rfl

theorem errand_elsewhere (hab : b ≠ a) (l : Nat) (o : Hook) {w : Way} :
    Due.errand a g w (some (.hook b l o) : Option (Due κ)) = [] :=
  if_neg fun h => hab h.1.1

/-- Whoever is taken out acts on the occasion that was due (`Due.errand`), or on being started. -/
theorem errand_opening {w : Way} {o : Hook} {l : Nat} (actor : κ.Actor)
    (hx : x = some (.hook b l o) ∨ x = none ∧ o = .run) :
    Due.errand a g w (some (.opening b l o actor)) = Due.errand a g w x := by
  rcases hx with rfl | ⟨rfl, rfl⟩
  · rfl
  · exact if_neg (by simp [Hook.way])

/-- A message that was accepted is put into the mailbox (`Platform.putMail`). -/
theorem passes_mail {env : Envelope} {e : Context κ} (hb : s.platform.context? b = some e)
    (hway : e.way b env = .mail) (hc : s.platform.context? a = some c) :
    Passes V a (some (.arrival b env)) none c s
      (s.edit fun p => (p.putMail b env).scheduleMail b) := by
  have hd {d : Context κ} (h : (s.platform.putMail b env).context? a = some d) :
      (s.edit fun p => (p.putMail b env).scheduleMail b).platform.context? a = some d :=
    context?_scheduleMail.trans h
  have hbus : (s.edit fun p => (p.putMail b env).scheduleMail b).platform.bus =
      s.platform.bus := by
    obtain ⟨_, _, _, _, hlook⟩ := scheduleMail_eq (s.platform.putMail b env) b
    show ((s.platform.putMail b env).scheduleMail b).bus = _
    rw [hlook]
    rfl
  rcases context?_changed (f := fun c => c.mapMailbox (· ++ [env])) b hc with ⟨rfl, h⟩ | ⟨hab, h⟩
  · obtain rfl := Option.some.inj (hb.symm.trans hc)
    obtain ⟨box, hbox⟩ := Option.isSome_iff_exists.mp (Context.isBuffered_of_way hway)
    refine ⟨_, hd h, .mapMailbox e _, .gets .mail env ?_ (fun v hv => ?_) ?_ rfl rfl hway⟩
    · simp [Context.waiting, Context.mapMailbox, hbox]
    · cases v with
      | mail => exact absurd rfl hv
      | hand => rfl
    · rw [hbus, since_self]
  · exact .quiet (hd h) (.refl c) (fun _ => rfl) hbus (if_neg hab).symm fun _ => rfl

/-- A message that was accepted is taken in the actor's own hands (`Platform.putBacklog`). -/
theorem passes_hand {env : Envelope} {e : Context κ} (hb : s.platform.context? b = some e)
    (hway : e.way b env = .hand) (hc : s.platform.context? a = some c) :
    Passes V a (some (.arrival b env)) none c s (s.edit (·.putBacklog b env)) := by
  rcases context?_changed (f := fun c => { c with backlog := c.backlog ++ [env] }) b hc with
    ⟨rfl, h⟩ | ⟨hab, h⟩
  · obtain rfl := Option.some.inj (hb.symm.trans hc)
    refine ⟨_, h, ⟨rfl, rfl, rfl⟩, .gets .hand env rfl (fun v hv => ?_) (since_self _) rfl rfl
      hway⟩
    cases v with
    | mail => rfl
    | hand => exact absurd rfl hv
  · exact .quiet h (.refl c) (fun _ => rfl) rfl (if_neg hab).symm fun _ => rfl

/-- The head of a mailbox is taken by a receiver (`Platform.takeMatch`), and is to be received next.
-/
theorem passes_takeMatch {hit : Match} {p : Platform κ} {e : Context κ}
    (hb : s.platform.context? b = some e) (htake : s.platform.takeMatch b = some (hit, p))
    (hc : s.platform.context? a = some c) :
    Passes V a none (some (.hook b e.generation (.receive hit.tag hit.envelope))) c s
      { s with platform := p.publish (.received b hit.tag hit.envelope) } := by
  obtain ⟨e', receiver, rest, box, hb', -, hbox, -, -, rfl⟩ := takeMatch_eq htake
  obtain rfl := Option.some.inj (hb'.symm.trans hb)
  rcases context?_changed (f := fun d => { d.mapMailbox List.tail with
      receivers := if receiver.standing then e'.receivers else rest }) b hc with
    ⟨rfl, h⟩ | ⟨hab, h⟩
  · obtain rfl := Option.some.inj (hb.symm.trans hc)
    refine .takeHead hbox h ⟨rfl, Option.isSome_map, rfl⟩ ?_ rfl (since_publish _ _)
      (.received hit.tag hit.envelope) rfl rfl (fun _ => rfl) fun w => ?_
    · exact congrArg (Option.map List.tail) hbox
    · cases w <;> simp [Due.errand, Hook.way, Way.occasions, Event.received, Event.withEnvelope]
  · exact .told h rfl (Or.inl (by simp [Event.received, Event.withEnvelope])) rfl
      fun w => errand_elsewhere hab _ _

/-- The oldest message in an actor's own hands is taken (`Platform.takeBacklog`), and is to be
accepted next. -/
theorem passes_takeBacklog {env : Envelope} {p : Platform κ} {e : Context κ}
    (hb : s.platform.context? b = some e) (htake : s.platform.takeBacklog b = some (env, p))
    (hc : s.platform.context? a = some c) :
    Passes V a none (some (.hook b e.generation (.accept env))) c s { s with platform := p } := by
  obtain ⟨e', rest, hb', -, hback, rfl⟩ := takeBacklog_some htake
  obtain rfl := Option.some.inj (hb'.symm.trans hb)
  rcases context?_changed (f := fun c => { c with backlog := rest }) b hc with
    ⟨rfl, h⟩ | ⟨hab, h⟩
  · obtain rfl := Option.some.inj (hb.symm.trans hc)
    refine ⟨_, h, ⟨rfl, rfl, rfl⟩, .loses .hand env hback (fun v hv => ?_) (fun e he => ?_)
      rfl rfl (fun hv => absurd hv (by simp)) (fun _ => rfl) fun w => ?_⟩
    · cases v with
      | mail => rfl
      | hand => exact absurd rfl hv
    · have he' : e ∈ s.platform.bus.since s.platform.bus := he
      rw [since_self] at he'
      exact absurd he' List.not_mem_nil
    · cases w <;> simp [Due.errand, Hook.way, Way.occasions]
  · exact .quiet h (.refl c) (fun _ => rfl) rfl rfl fun w => errand_elsewhere hab _ _

/-- **A move** (`Move`) is a passage for whoever lives somewhere (`Passes`). -/
theorem Move.passes (hm : Move code V same x s y t) (hc : s.platform.context? a = some c) :
    Passes V a x y c s t := by
  cases hm with
  | beside hb _ =>
    obtain ⟨d, hd, hlike⟩ := hb.context' hc
    refine ⟨d, hd, ⟨hlike.generation, congrArg Option.isSome hlike.mailbox, hlike.flags⟩,
      .idle hlike.waiting (fun hV e he => Or.inl ?_) rfl fun _ => rfl⟩
    rcases hb.bus.since e he with hside | hv
    · exact (Event.kind_of_isAside hside).1
    · exact hV e hv
  | @accept b env =>
    by_cases hab : b = a
    · subst hab
      exact ⟨c, hc, .refl c, .accepts env (fun _ => rfl) (since_publish _ _) rfl rfl⟩
    · refine .told hc rfl (Or.inr fun he => hab (Option.some.inj he)) ?_ fun _ => rfl
      exact if_neg hab
  | mail hb hway => exact passes_mail hb hway hc
  | hand hb hway => exact passes_hand hb hway hc
  | takeMail b => exact passes_takeMail b hc
  | discard b => exact passes_discard b hc
  | takeMatch hb _ htake => exact passes_takeMatch hb htake hc
  | takeBacklog hb htake => exact passes_takeBacklog hb htake hc
  | @out b c' actor hook x _ hb hactor hx =>
    have hdue : Due.announcement a x = [] := by
      rcases hx with rfl | ⟨rfl, -⟩
      · rfl
      · rfl
    have herrand (w : Way) := errand_opening (a := a) (g := c.generation) (w := w) actor hx
    rcases context?_changed (f := fun c => { c with actor := none }) b hc with ⟨-, h⟩ | ⟨-, h⟩
    · exact .quiet h ⟨rfl, rfl, rfl⟩ (fun w => by cases w <;> rfl) rfl hdue.symm herrand
    · exact .quiet h (.refl c) (fun _ => rfl) rfl hdue.symm herrand
  | @back b c' o actor _ hb hnone =>
    obtain ⟨hdue, herrand⟩ := (Due.leaves_afterwards c' b o).silent a
    rcases context?_changed (f := fun c => { c with actor := some actor }) b hc with ⟨-, h⟩ | ⟨-, h⟩
    · exact .quiet h ⟨rfl, rfl, rfl⟩ (fun w => by cases w <;> rfl) rfl hdue (herrand _)
    · exact .quiet h (.refl c) (fun _ => rfl) rfl hdue (herrand _)
  | gone _ hleaves =>
    obtain ⟨hdue, herrand⟩ := hleaves.silent a
    exact .quiet hc (.refl c) (fun _ => rfl) rfl hdue (herrand _)

/-- The ledger does not depend on what is due but for its announcement (`Due.announcement`). -/
theorem Ledger.recast {h : List (Stage κ)} (hl : Ledger V a g x h s)
    (hxy : Due.announcement a y = Due.announcement a x) : Ledger V a g y h s :=
  { hl with heard := hxy ▸ hl.heard }

/-- **A move** (`Move`) keeps the ledger. -/
theorem Ledger.move {h : List (Stage κ)} (hl : Ledger V a g x h s)
    (hm : Move code V same x s y t) (hi : s.platform.Inv) : Ledger V a g y (s :: h) t := by
  obtain ⟨hnext, hgen⟩ := hm.generations
  by_cases hcur : s.platform.isCurrent a g = true
  · obtain ⟨c, hc, hg⟩ := isCurrent_iff.mp hcur
    obtain ⟨d, hd, hcd, hp⟩ := hm.passes hc
    exact hl.pass hi hc hg hd hcd (Nat.le_of_eq hnext.symm) hp
  · refine hl.absent (fun h => absurd h hcur) ?_ (Nat.le_of_eq hnext.symm)
    rw [isCurrent_congr (hgen a)]
    exact Bool.not_eq_true _ ▸ hcur

open Stage in
/-- **Tending to actors** (`Tended`) keeps the ledger. -/
theorem Ledger.tended {h : List (Stage κ)} (hl : Ledger V a g x h s) (ht : Tended code same s t)
    (hdone : Due.Done t.platform x) (hi : s.platform.Inv) : Ledger V a g none (s :: h) t := by
  have hl := hl.recast (y := none) (hdone.silent a).1.symm
  obtain ⟨hnext, hold⟩ := ht.context
  by_cases hcur : t.platform.isCurrent a g = true
  · obtain ⟨d, hd, hg⟩ := isCurrent_iff.mp hcur
    rcases hold a d hd with hc | ⟨n, actor, bh, tmpl, hnew, hform⟩
    · refine hl.pass hi hc hg hd (.refl d) hnext (.idle (fun _ => rfl) (fun _ e he => Or.inl ?_) rfl
        fun _ => rfl)
      exact (ht.bus.since e he).1
    · have hlow : s.platform.nextGeneration ≤ g := hg ▸ hnew
      refine hl.born hlow ?_ hd (fun w => ?_) (hg ▸ ht.fresh hi.table.fresh hd) rfl
      · unfold stays
        rw [Bool.and_eq_false_iff]
        left
        rw [← Bool.not_eq_true, isCurrent_iff]
        rintro ⟨c, hc, hcg⟩
        exact absurd (hcg ▸ hi.table.fresh a c hc) (Nat.not_lt.mpr hlow)
      · rw [hform]
        cases w with
        | mail =>
          show (if bh.flags.buffered then some [] else none).getD [] = []
          split <;> rfl
        | hand => rfl
  · exact hl.absent (fun _ => rfl) (by rwa [← Bool.not_eq_true]) hnext

end Moves

/-! ## Keeping ledgers -/

/-- **The ledgers of all incarnations** are kept: they are a `Track`. -/
def Track.ledger (code : Code κ) (V : Event → Prop) : Track code V where
  same _ _ := True
  holds x h s := ∀ a g, Ledger V a g x h s
  kept _ _ := True
  same_refl _ := trivial
  same_trans _ _ _ _ _ := trivial
  kept_refl _ := trivial
  kept_trans _ _ := trivial
  freshId _ := trivial
  judge _ _ _ := trivial
  poll _ _ := trivial
  move hm hi hl := ⟨fun a g => (hl a g).move hm hi, trivial⟩
  tend ht hdone hi hl := ⟨fun a g => (hl a g).tended ht hdone hi, trivial⟩

open Troupe.Flow in
/-- Whatever application code does, ledgers are kept (`Upheld`). -/
theorem upheld_ledger {code : Code κ} {V : Event → Prop} (hpub : code.Publishes V) :
    Upheld (Track.ledger code V) :=
  .of_any hpub (fun _ _ => trivial) (fun _ _ _ _ _ _ hl b l => (hl b l).recast rfl)
    fun _ _ _ _ _ _ hl b l => (hl b l).recast rfl

/-- In the beginning there is nothing in a ledger. -/
theorem ledger_new (V : Event → Prop) (config : Config) (trap : Option κ.Trap)
    (subs : List Subscriber) (w : κ.World) (a : Address) (g : Nat) :
    Ledger V a g none [] (.new config trap subs w) := by
  have hnone := Moment.context?_new config trap subs w a
  refine ⟨fun c hc => absurd (hnone.symm.trans hc) (by simp), fun _ => List.prefix_rfl,
    fun _ hy => absurd hy List.not_mem_nil, fun c hc => absurd (hnone.symm.trans hc) (by simp),
    fun _ => ⟨rfl, fun _ => rfl, rfl⟩, .of_eq ?_⟩
  simp [announced, posted, tally, Due.announcement]

open Moment in
/-- Ledgers are not touched between operations (`Outlook`). -/
theorem outlook_ledger (code : Code κ) {V : Event → Prop} {start : κ.World → Prop}
    {mean : Stage κ → Stage κ → Prop} (hmean : ∀ s t, mean s t →
      s.platform.bus.Grown (fun e => e.isReport = true ∨ V e) t.platform.bus) :
    Outlook (Track.ledger code V) start mean fun _ => True :=
  .of_beside (fun config trap subs w _ => ⟨ledger_new V config trap subs w, trivial⟩)
    (fun s t hst => ⟨trivial, hmean s t hst⟩) fun _ _ _ _ => trivial

end Troupe
