import Troupe.Proofs.Watch.Past

/-!
# Diaries

Calls of application code leave no trace on a platform. So let an application keep a diary: it
numbers its actors as it builds them, and notes what is done with each (`Deed`), the latest first.
Any application code can be made to do so (`Code.recorded`); whatever it does otherwise, the diary
is not touched (`Act.keeping`, `SameDiary`). What it notes of an actor can be read as the story of
that actor (`Phase`, `Diary.phase`).

A hook begins and ends with an entry (`Act.note`). `Moment.Recorded` is a moment in the life of a
platform whose application keeps a diary.

`Diary.Acted` says for which incarnation an actor has acted, `Ties` that it is one actor for one
incarnation, and `Diary.Steady` what entries between two hooks leave alone: the deeds of actors that
are acting. `Stage.note` is the stage with an entry more.

Headlines:
* **`Phase.next_some`**: what can be done with an actor, and when.
* **`called_first`**, **`called_last`**: an actor with a story got its first call once, before
  anything else, and its last once, after all else.
* **`Flow.upheld_recorded`**: code that keeps a diary keeps a track, if the entries do.
-/

namespace Troupe

/-! ## Entries -/

/-- What is done with an actor: it is built, gets its first call, acts on a `Hook`, and gets its
last call. -/
inductive Deed
  | built
  /-- It was asked for its behaviour. -/
  | init
  /-- Its code began to run on an occasion, for an incarnation. -/
  | began (hook : Hook) (a : Address) (generation : Nat)
  /-- Its code has run. -/
  | ended
  /-- It got its last call. -/
  | stopped

/-- An entry of a diary: something was done (`Deed`) with the actor of a number. -/
structure Entry where
  serial : Nat
  deed : Deed

/-- How far an actor is. -/
inductive Phase
  | unborn
  | built
  | idle
  | acting
  | retired
  deriving DecidableEq

/-- How far an actor is after a deed (`Phase`), if that deed could be done with it: it is built,
gets its first call, acts on one occasion after the other, and gets its last call between two of
them. -/
def Phase.next : Phase → Deed → Option Phase
  | unborn, .built => some built
  | built, .init => some idle
  | idle, .began _ _ _ => some acting
  | acting, .ended => some idle
  | idle, .stopped => some retired
  | _, _ => none

/-- **What can be done with an actor**, and when (`Phase.next`). -/
theorem Phase.next_some {p q : Phase} {deed : Deed} (h : q.next deed = some p) :
    (q = .unborn ∧ deed = .built ∧ p = .built) ∨ (q = .built ∧ deed = .init ∧ p = .idle) ∨
      (q = .idle ∧ (∃ hook a g, deed = .began hook a g) ∧ p = .acting) ∨
        (q = .acting ∧ deed = .ended ∧ p = .idle) ∨
          (q = .idle ∧ deed = .stopped ∧ p = .retired) := by
  cases q <;> cases deed <;> simp_all [Phase.next, eq_comm]

/-- What is noted of actors (`Entry`), the latest first. -/
abbrev Diary := List Entry

namespace Diary

/-- What was done with an actor (`Deed`), the latest first. -/
def deeds (d : Diary) (n : Nat) : List Deed :=
  d.filterMap fun e => if e.serial = n then some e.deed else none

/-- How far an actor is after all that was done with it, if that could be done (`Phase.next`). -/
def phaseOf : List Deed → Option Phase
  | [] => some .unborn
  | deed :: before => (phaseOf before).bind fun p => p.next deed

/-- How far an actor is (`Diary.phaseOf`, of its `Diary.deeds`). -/
def phase (d : Diary) (n : Nat) : Option Phase :=
  phaseOf (d.deeds n)

/-- The actor has acted for an incarnation (`Deed.began`). -/
def Acted (d : Diary) (n : Nat) (a : Address) (g : Nat) : Prop :=
  ∃ hook, .began hook a g ∈ d.deeds n

variable {d : Diary} {n k : Nat} {deed : Deed} {p : Phase}

theorem deeds_cons : deeds (⟨k, deed⟩ :: d) n = if k = n then deed :: d.deeds n else d.deeds n := by
  unfold deeds
  split
  · rename_i h
    exact List.filterMap_cons_some (if_pos h)
  · rename_i h
    exact List.filterMap_cons_none (if_neg h)

theorem deeds_own : deeds (⟨n, deed⟩ :: d) n = deed :: d.deeds n :=
  deeds_cons.trans (if_pos rfl)

theorem deeds_other (h : k ≠ n) : deeds (⟨k, deed⟩ :: d) n = d.deeds n :=
  deeds_cons.trans (if_neg h)

theorem phase_own : phase (⟨n, deed⟩ :: d) n = (d.phase n).bind fun p => p.next deed := by
  unfold phase
  rw [deeds_own, phaseOf]

theorem phase_other (h : k ≠ n) : phase (⟨k, deed⟩ :: d) n = d.phase n := by
  unfold phase
  rw [deeds_other h]

theorem phase_cons (h : d.phase n = some p) : phase (⟨n, deed⟩ :: d) n = p.next deed := by
  rw [phase_own, h, Option.bind_some]

theorem acted_cons {a : Address} {g : Nat} : Acted (⟨k, deed⟩ :: d) n a g ↔
    (k = n ∧ ∃ hook, deed = .began hook a g) ∨ d.Acted n a g := by
  unfold Acted
  rw [deeds_cons]
  by_cases h : k = n
  · rw [if_pos h]
    constructor
    · rintro ⟨hook, hmem⟩
      rcases List.mem_cons.mp hmem with rfl | hmem
      · exact Or.inl ⟨h, hook, rfl⟩
      · exact Or.inr ⟨hook, hmem⟩
    · rintro (⟨-, hook, rfl⟩ | ⟨hook, hmem⟩)
      · exact ⟨hook, List.mem_cons_self⟩
      · exact ⟨hook, List.mem_cons_of_mem _ hmem⟩
  · rw [if_neg h]
    exact ⟨Or.inr, fun h' => h'.resolve_left fun h' => h h'.1⟩

/-- Only beginning to act (`Deed.began`) makes a difference to who has acted. -/
theorem acted_of_cons {a : Address} {g : Nat} (hd : ∀ hook a g, deed ≠ .began hook a g)
    (h : Acted (⟨k, deed⟩ :: d) n a g) : d.Acted n a g :=
  (acted_cons.mp h).resolve_left fun ⟨_, hook, he⟩ => hd hook a g he

theorem Acted.cons {a : Address} {g : Nat} (h : d.Acted n a g) : Acted (⟨k, deed⟩ :: d) n a g :=
  acted_cons.mpr (Or.inr h)

/-- How far an actor is after an entry (`Phase.next`). -/
theorem phase_cons_eq_some {q : Phase} (hn : d.phase n = some p)
    (h : phase (⟨n, deed⟩ :: d) k = some q) :
    (k = n ∧ p.next deed = some q) ∨ (k ≠ n ∧ d.phase k = some q) := by
  by_cases hk : n = k
  · subst hk
    exact Or.inl ⟨rfl, (phase_cons hn).symm.trans h⟩
  · exact Or.inr ⟨Ne.symm hk, (phase_other hk).symm.trans h⟩

/-- A deed is noted of its actor. -/
theorem mem_of_deed (h : deed ∈ d.deeds n) : ∃ e ∈ d, e.serial = n := by
  obtain ⟨e, he, heq⟩ := List.mem_filterMap.mp h
  split at heq
  · exact ⟨e, he, ‹_›⟩
  · exact absurd heq (by simp)

/-- An actor with a story (`Diary.phase`) is noted somewhere. -/
theorem mem_of_phase (h : d.phase n ≠ some .unborn) : ∃ e ∈ d, e.serial = n := by
  cases hd : d.deeds n with
  | nil =>
    unfold phase at h
    rw [hd] at h
    exact absurd rfl h
  | cons deed rest => exact mem_of_deed (hd ▸ List.mem_cons_self)

/-! ### What a story tells -/

section Story

variable {l before later : List Deed} {p : Phase} {deed : Deed}

/-- The latest deed fits (`Phase.next`) how far the actor was before it. -/
theorem phaseOf_cons (h : phaseOf (deed :: l) = some p) :
    ∃ q, phaseOf l = some q ∧ q.next deed = some p :=
  Option.bind_eq_some_iff.mp h

theorem eq_nil_of_unborn (h : phaseOf l = some .unborn) : l = [] := by
  cases l with
  | nil => rfl
  | cons deed l =>
    obtain ⟨q, -, hq⟩ := phaseOf_cons h
    simpa using Phase.next_some hq

theorem eq_of_built (h : phaseOf l = some .built) : l = [.built] := by
  cases l with
  | nil => exact absurd h (by simp [phaseOf])
  | cons deed l =>
    obtain ⟨q, hl, hq⟩ := phaseOf_cons h
    obtain ⟨rfl, rfl⟩ : q = .unborn ∧ deed = .built := by simpa using Phase.next_some hq
    rw [eq_nil_of_unborn hl]

/-- An actor that is idle (`Phase.idle`) has just got its first call, or has just acted. -/
theorem latest_of_idle (h : phaseOf l = some .idle) :
    ∃ deed rest, l = deed :: rest ∧ (deed = .init ∨ deed = .ended) := by
  cases l with
  | nil => exact absurd h (by simp [phaseOf])
  | cons deed l =>
    obtain ⟨q, -, hq⟩ := phaseOf_cons h
    have hdeed : q = .built ∧ deed = .init ∨ q = .acting ∧ deed = .ended := by
      simpa using Phase.next_some hq
    exact ⟨deed, l, rfl, hdeed.imp And.right And.right⟩

/-- An actor is acting (`Phase.acting`) if it has just begun to. -/
theorem acting_iff (h : phaseOf l = some p) :
    p = .acting ↔ ∃ hook a g rest, l = .began hook a g :: rest := by
  cases l with
  | nil =>
    obtain rfl := Option.some.inj h
    simp
  | cons deed l =>
    obtain ⟨q, -, hq⟩ := phaseOf_cons h
    rcases Phase.next_some hq with ⟨-, rfl, rfl⟩ | ⟨-, rfl, rfl⟩ | ⟨-, ⟨_, _, _, rfl⟩, rfl⟩ |
      ⟨-, rfl, rfl⟩ | ⟨-, rfl, rfl⟩ <;> simp

/-- An actor begins to act (`Deed.began`) only when it is idle. -/
theorem idle_of_began {hook : Hook} {a : Address} {g : Nat}
    (h : phaseOf (later ++ .began hook a g :: before) = some p) : phaseOf before = some .idle := by
  induction later generalizing p with
  | nil =>
    obtain ⟨q, hq, hnext⟩ := phaseOf_cons h
    obtain ⟨rfl, -⟩ : q = .idle ∧ p = .acting := by simpa using Phase.next_some hnext
    exact hq
  | cons deed later ih =>
    obtain ⟨_, hq, -⟩ := phaseOf_cons h
    exact ih hq

/-- Actors are built and get their first call (`Deed.init`), once, before anything else. -/
theorem called_first (h : phaseOf l = some p) (hunborn : p ≠ .unborn) (hbuilt : p ≠ .built) :
    ∃ later, l = later ++ [.init, .built] ∧ .init ∉ later ∧ .built ∉ later := by
  induction l generalizing p with
  | nil => exact absurd (Option.some.inj h).symm hunborn
  | cons deed l ih =>
    obtain ⟨q, hq, hnext⟩ := phaseOf_cons h
    -- whatever follows the first call is another deed
    have hon (hdeed : deed ≠ .init ∧ deed ≠ .built) (hq₁ : q ≠ .unborn) (hq₂ : q ≠ .built) :
        ∃ later, deed :: l = later ++ [.init, .built] ∧ .init ∉ later ∧ .built ∉ later := by
      obtain ⟨later, rfl, hi, hb⟩ := ih hq hq₁ hq₂
      refine ⟨deed :: later, rfl, ?_, ?_⟩
      · simp [hi, hdeed.1.symm]
      · simp [hb, hdeed.2.symm]
    rcases Phase.next_some hnext with ⟨-, -, rfl⟩ | ⟨rfl, rfl, -⟩ | ⟨rfl, ⟨_, _, _, rfl⟩, -⟩ |
      ⟨rfl, rfl, -⟩ | ⟨rfl, rfl, -⟩
    · exact absurd rfl hbuilt
    · exact ⟨[], by rw [eq_of_built hq]; rfl, List.not_mem_nil, List.not_mem_nil⟩
    all_goals exact hon (by simp) (by simp) (by simp)

theorem stopped_iff (h : phaseOf l = some p) : .stopped ∈ l ↔ p = .retired := by
  induction l generalizing p with
  | nil =>
    obtain rfl := Option.some.inj h
    simp
  | cons deed l ih =>
    obtain ⟨q, hq, hnext⟩ := phaseOf_cons h
    have hmem := ih hq
    rcases Phase.next_some hnext with
      ⟨rfl, rfl, rfl⟩ | ⟨rfl, rfl, rfl⟩ | ⟨rfl, ⟨_, _, _, rfl⟩, rfl⟩ |
      ⟨rfl, rfl, rfl⟩ | ⟨rfl, rfl, rfl⟩ <;> simp_all

/-- An actor that has got its last call (`Deed.stopped`) got it once, after all else, when it was
idle. -/
theorem called_last (h : phaseOf l = some .retired) :
    ∃ before, l = .stopped :: before ∧ .stopped ∉ before ∧ phaseOf before = some .idle := by
  cases l with
  | nil => exact absurd h (by simp [phaseOf])
  | cons deed l =>
    obtain ⟨q, hq, hnext⟩ := phaseOf_cons h
    obtain ⟨rfl, rfl⟩ : q = .idle ∧ deed = .stopped := by simpa using Phase.next_some hnext
    exact ⟨l, rfl, fun hmem => absurd ((stopped_iff hq).mp hmem) (by simp), hq⟩

end Story

/-! ### Incarnations -/

/-- Whoever has acted for the incarnation (`Diary.Acted`) is the actor of this number, and it has
acted for no other. -/
def Ties (d : Diary) (n : Nat) (a : Address) (g : Nat) : Prop :=
  ∀ k b l, d.Acted k b l → (k = n ↔ b = a ∧ l = g)

theorem Ties.congr {d' : Diary} {a : Address} {g : Nat}
    (hacted : ∀ n a g, d'.Acted n a g → d.Acted n a g) (h : d.Ties n a g) : d'.Ties n a g :=
  fun k b l hk => h k b l (hacted k b l hk)

/-- The deeds of actors that are acting, before or after (`Phase.acting`), are the same. -/
def Steady (d d' : Diary) : Prop :=
  ∀ n, d.phase n = some .acting ∨ d'.phase n = some .acting → d'.deeds n = d.deeds n

theorem Steady.refl (d : Diary) : d.Steady d := fun _ _ => rfl

theorem phase_congr {d' : Diary} (h : d'.deeds n = d.deeds n) : d'.phase n = d.phase n :=
  congrArg phaseOf h

theorem Steady.trans {d d' d'' : Diary} (h : d.Steady d') (h' : d'.Steady d'') :
    d.Steady d'' := by
  rintro n (hn | hn)
  · have hsame := h n (Or.inl hn)
    exact (h' n (Or.inl ((phase_congr hsame).trans hn))).trans hsame
  · have hsame := h' n (Or.inr hn)
    exact hsame.trans (h n (Or.inr ((phase_congr hsame).symm.trans hn)))

/-- An entry about an actor that is acting neither before nor after it. -/
theorem Steady.cons (h : d.phase n ≠ some .acting)
    (h' : phase (⟨n, deed⟩ :: d) n ≠ some .acting) : d.Steady (⟨n, deed⟩ :: d) := by
  intro k hk
  by_cases hn : n = k
  · subst hn
    exact (hk.elim h h').elim
  · exact deeds_other hn

/-- What is steady between two entries about an actor is so around them. -/
theorem Steady.around {d' : Diary} {first last : Deed} (h : Steady (⟨n, first⟩ :: d) d')
    (hn : d.phase n ≠ some .acting) (hn' : phase (⟨n, last⟩ :: d') n ≠ some .acting) :
    d.Steady (⟨n, last⟩ :: d') := by
  intro k hk
  by_cases hne : n = k
  · subst hne
    exact (hk.elim hn hn').elim
  · rw [phase_other hne] at hk
    have hk' : phase (⟨n, first⟩ :: d) k = some .acting ∨ d'.phase k = some .acting :=
      hk.imp (phase_other hne).trans id
    exact (deeds_other hne).trans ((h k hk').trans (deeds_other hne))

end Diary

/-! ## Keeping a diary -/

/-- An application with numbered actors and a `Diary`. -/
abbrev App.recorded (κ : App) : App :=
  { κ with Actor := κ.Actor × Nat, World := κ.World × Diary }

variable {κ : App}

/-- The same code, but for what it does to the diary. -/
def Act.keeping {α : Type} : Act κ.recorded α → Act κ.recorded α
  | done x => done x
  | ask r next => ask r fun x => (next x).keeping
  | look next => look fun p w => (next p w).keeping
  | put w next => look fun _ v => put (w.1, v.2) next.keeping

/-- Makes an `Entry`. -/
def Act.note {α : Type} (n : Nat) (deed : Platform κ.recorded → Deed) (next : Act κ.recorded α) :
    Act κ.recorded α :=
  look fun p w => put (w.1, ⟨n, deed p⟩ :: w.2) next

/-- The same code, keeping a diary (`Act.note`). -/
def Code.recorded (code : Code κ.recorded) : Code κ.recorded where
  freshId w := ((code.freshId w).1, ((code.freshId w).2.1, w.2))
  build factory args w :=
    (((code.build factory args w).1.1, w.2.length),
      ((code.build factory args w).2.1, ⟨w.2.length, .built⟩ :: w.2))
  init actor w := ((code.init actor w).1, ((code.init actor w).2.1, ⟨actor.2, .init⟩ :: w.2))
  stop actor w := ((code.stop actor w).1, ⟨actor.2, .stopped⟩ :: w.2)
  judge trap e w := ((code.judge trap e w).1, ((code.judge trap e w).2.1, w.2))
  hook actor hook a :=
    .note actor.2 (fun p => .began hook a ((p.generation? a).getD 0))
      ((code.hook actor hook a).keeping.bind fun result =>
        .note actor.2 (fun _ => .ended) (.done result))
  foreign f args a := (code.foreign f args a).keeping
  poll task w := ((code.poll task w).1, ((code.poll task w).2.1, w.2))
  interrupt := code.interrupt

/-- The diary is the same (`App.recorded`). -/
def SameDiary (v w : κ.recorded.World) : Prop :=
  w.2 = v.2

theorem SameDiary.refl (w : κ.recorded.World) : SameDiary w w := rfl

theorem SameDiary.trans (v w x : κ.recorded.World) (h : SameDiary v w) (h' : SameDiary w x) :
    SameDiary v x :=
  Eq.trans h' h

section

variable (code : Code κ.recorded) (w : κ.recorded.World)

theorem Code.recorded_freshId : SameDiary w (code.recorded.freshId w).2 := rfl

theorem Code.recorded_judge (trap : κ.Trap) (e : ActorError) :
    SameDiary w (code.recorded.judge trap e w).2 := rfl

theorem Code.recorded_poll (task : κ.Task) : SameDiary w (code.recorded.poll task w).2 := rfl

end

theorem Act.Keeps.mono {α : Type} {same same' : κ.World → κ.World → Prop} {act : Act κ α}
    {w : κ.World} (h : act.Keeps same w) (hsame : ∀ v w, same v w → same' v w) :
    act.Keeps same' w := by
  induction act generalizing w with
  | done x => trivial
  | ask r next ih => exact fun x w => ih x (h x w)
  | look next ih => exact fun p => ih p w (h p)
  | put v next ih => exact ⟨hsame _ _ h.1, ih h.2⟩

theorem Act.keeping_keeps {α : Type} (act : Act κ.recorded α) (w : κ.recorded.World) :
    act.keeping.Keeps SameDiary w := by
  induction act generalizing w with
  | done x => trivial
  | ask r next ih => exact fun x w => ih x w
  | look next ih => exact fun p => ih p w w
  | put v next ih => exact fun _ => ⟨rfl, ih _⟩

theorem Act.keeping_publishes {V : Event → Prop} {α : Type} {act : Act κ.recorded α}
    (h : act.Publishes V) : act.keeping.Publishes V := by
  induction act with
  | done x => trivial
  | ask r next ih => exact ⟨h.1, fun x => ih x (h.2 x)⟩
  | look next ih => exact fun p w => ih p w (h p w)
  | put v next ih => exact fun _ _ => ih h

theorem Act.bind_publishes {V : Event → Prop} {α β : Type} {act : Act κ α} {k : α → Act κ β}
    (h : act.Publishes V) (hk : ∀ x, (k x).Publishes V) : (act.bind k).Publishes V := by
  induction act with
  | done x => exact hk x
  | ask r next ih => exact ⟨h.1, fun x => ih x (h.2 x)⟩
  | look next ih => exact fun p w => ih p w (h p w)
  | put v next ih => exact ih h

/-- Keeping a diary publishes nothing (`Code.Publishes`). -/
theorem Code.recorded_publishes {V : Event → Prop} {code : Code κ.recorded}
    (h : code.Publishes V) : code.recorded.Publishes V :=
  ⟨fun actor hook a _ _ => Act.bind_publishes (Act.keeping_publishes (h.1 actor hook a))
    fun _ _ _ => trivial, fun f args a => Act.keeping_publishes (h.2 f args a)⟩

open Stage in
/-- Tending to actors (`Tended`) changes nothing that can be read off a diary, unless it is read off
that actors begin to act. -/
theorem Tended.reading {code : Code κ.recorded} {s t : Stage κ.recorded} {β : Type}
    {read : Diary → β} (h : Tended code.recorded SameDiary s t)
    (hread : ∀ n deed d, (∀ hook a g, deed ≠ .began hook a g) → read (⟨n, deed⟩ :: d) = read d) :
    read t.world.2 = read s.world.2 := by
  induction h with
  | refl => rfl
  | @tail t _ _ hstep ih =>
    refine Eq.trans ?_ ih
    cases hstep with
    | think hsame => exact congrArg read hsame
    | @install b tmpl =>
      obtain ⟨_, _, heq, -⟩ := install_eq code.recorded b tmpl t
      rw [heq]
      exact (hread _ .init _ (by simp)).trans (hread _ .built _ (by simp))
    | remove b =>
      cases hc : t.platform.context? b with
      | none => rw [remove_none code.recorded hc]
      | some c =>
        rw [remove_some code.recorded hc]
        cases c.actor with
        | none => rfl
        | some actor => exact hread _ .stopped _ (by simp)

/-- The stage with an `Entry` more in the diary. -/
def Stage.note (n : Nat) (deed : Deed) (s : Stage κ.recorded) : Stage κ.recorded :=
  { s with world := (s.world.1, ⟨n, deed⟩ :: s.world.2) }

namespace Flow

variable {α β : Type} {code : Code κ.recorded} {V : Event → Prop} {T : Track code.recorded V}

/-- One piece of code after the other is carried out that way (`Flow.serve`). -/
theorem serve_bind {κ : App} (code : Code κ) (act : Act κ α) (k : α → Act κ β) (m : Machine κ) :
    serve code (act.bind k) m = (serve code act m).bind fun x => serve code (k x.1) x.2 := by
  induction act generalizing m with
  | done x => rfl
  | ask r next ih =>
    refine Eq.trans ?_ (bind_bind (answer code m r) _ _).symm
    exact congrArg ((answer code m r).bind ·) (funext fun x => ih x.1 x.2)
  | look next ih => exact congrArg Flow.get (funext fun s => ih s.platform s.world m)
  | put w next ih =>
    exact congrArg Flow.get (funext fun s => congrArg (Flow.set { s with world := w }) (ih m))

/-- **Code that keeps a diary** (`Code.recorded`) keeps track, if the entries do that its hooks
begin and end with. -/
theorem upheld_recorded (hpub : code.Publishes V)
    (hsame : ∀ v w, SameDiary v w → T.same v w)
    (hbegin : ∀ a g hook actor h s, s.platform.Inv →
      T.holds (some (.opening a g hook actor)) h s → T.holds none (s :: h)
        (s.note actor.2 (.began hook a ((s.platform.generation? a).getD 0))))
    (hend : ∀ a g hook actor h₀ h s t, s.platform.Inv → t.platform.Inv →
      T.holds (some (.opening a g hook actor)) h₀ s → T.holds none h t →
        T.Later (s.note actor.2 (.began hook a ((s.platform.generation? a).getD 0))) t →
          T.holds (some (.closing a g hook actor)) (t :: h) (t.note actor.2 .ended) ∧
            T.kept s (t.note actor.2 .ended)) : Upheld T := by
  refine ⟨fun m hook actor s hm => ?_, fun m f args s hm =>
    serve_leads (Act.keeping_publishes (hpub.2 _ _ _)) ((Act.keeping_keeps _ _).mono hsame) hm⟩
  have hheld : (s.note actor.2 (.began hook m.address
      ((s.platform.generation? m.address).getD 0))).platform.Held m := hm
  have hcode := serve_leads (T := T) (Act.keeping_publishes (hpub.1 actor hook m.address))
    ((Act.keeping_keeps _ _).mono hsame) hheld
  -- the hook makes an entry, the code runs, and another entry is made
  refine .get (.get ?_)
  show Leads T _ _ (.set (s.note actor.2 (.began hook m.address
    ((s.platform.generation? m.address).getD 0))) (serve code.recorded
      ((code.hook actor hook m.address).keeping.bind fun result =>
        .note actor.2 (fun _ => .ended) (.done result)) m)) _ s
  rw [serve_bind]
  refine .enclose (fun h hfit hi => ?_) hcode (fun h₀ h x t hfit hfit' hlater hkin => ?_)
  · exact ⟨hi, hbegin _ _ _ _ h s hfit.inv hfit.holds, hfit.flushed⟩
  · have hstay := hfit'.stay.stay
    obtain ⟨hx, hkept⟩ := hend _ _ hook actor h₀ (t :: t :: h) s t hfit.inv hfit'.inv hfit.holds
      hstay.holds hlater
    exact fun hi => ⟨⟨_, hx⟩, ⟨hi, hx, hfit'.flushed⟩, ⟨hkept, hlater.lent⟩, hkin⟩

end Flow

/-- Between operations the diary is left alone (`SameDiary`), and the bus takes in no more than what
the audience and the application publish. -/
structure Undisturbed (V : Event → Prop) (s t : Stage κ.recorded) : Prop where
  diary : SameDiary s.world t.world
  bus : s.platform.bus.Grown (fun e => e.isReport = true ∨ V e) t.platform.bus

/-- A moment in the life of a platform whose application keeps a diary (`Code.recorded`), with its
past (`Moment.Past`). -/
def Moment.Recorded (code : Code κ.recorded) (V : Event → Prop) :
    Moment κ.recorded → List (Stage κ.recorded) → Prop :=
  Past code.recorded V (fun w => w.2 = []) (Undisturbed V)

end Troupe
