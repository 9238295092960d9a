import Troupe.Proofs.Watch.Recorded

/-!
# The life cycle of actors

The diary of an application (`Diary`) notes what is done with its actors, in order, and the stage
shows who lives where. Any application can be made to keep one (`Code.recorded`). Whatever hooks and
scripts do, the two fit together (`Chronicle`):

* each actor belongs to one incarnation (`Chronicle.apart`, `Chronicle.acts`, `Chronicle.stands`);
* it is built (`Template::instantiate`) and gets its first call (`init`) before anything else, and
  once (`Chronicle.called`);
* it acts on one occasion after the other (`run`, `accept`, `receive`), and never on two at a time
  (`Chronicle.turns`);
* it gets its last call (`stop`) once, after all else, when its incarnation has gone and its code
  has run (`Chronicle.last`, `Chronicle.alive`, `Chronicle.removed`), and it does not begin to act
  after its incarnation has gone (`Chronicle.gone`).

A chronicle is read off a story (`Story.chronicle`), which is what is kept track of: `Diary.phase`
is where the actor of a number stands, and `Stage.Lives` who lives in what phase.

Headline:
* **`Moment.chronicled`**: at every moment there is a chronicle of all actors that were ever built.
-/

namespace Troupe

variable {κ : App}

open Platform Diary Troupe.Flow

/-- The actors that were noted, up to a stage `s` and after the stages `h`: `home n` is the
incarnation to which actor `n` belongs, and `held` the actor that is in hand for a moment, if any.
-/
structure Chronicle (home : Nat → Address × Nat) (held : Option Nat) (h : List (Stage κ.recorded))
    (s : Stage κ.recorded) : Prop where
  /-- Actors are built and get their first call, once, before anything else. -/
  called : ∀ n, s.world.2.deeds n ≠ [] → ∃ later, s.world.2.deeds n = later ++ [.init, .built] ∧
    .init ∉ later ∧ .built ∉ later
  /-- Actors act on one occasion after the other: before an actor begins to act, it has got its
  first call or has ended to act. -/
  turns : ∀ n hook a g later before, s.world.2.deeds n = later ++ .began hook a g :: before →
    ∃ deed rest, before = deed :: rest ∧ (deed = .init ∨ deed = .ended)
  /-- The last call comes once, after all else and not while the actor is acting. -/
  last : ∀ n, .stopped ∈ s.world.2.deeds n →
    ∃ deed rest, s.world.2.deeds n = .stopped :: deed :: rest ∧
      (deed = .init ∨ deed = .ended) ∧ .stopped ∉ deed :: rest
  /-- No two actors belong to one incarnation. -/
  apart : ∀ n k, s.world.2.deeds n ≠ [] → s.world.2.deeds k ≠ [] → home n = home k → n = k
  /-- Actors act for the incarnation to which they belong. -/
  acts : ∀ n hook a g, .began hook a g ∈ s.world.2.deeds n → home n = (a, g)
  /-- Whoever is or was at hand at an address belongs there. -/
  stands : ∀ r ∈ s :: h, ∀ a c actor, r.platform.context? a = some c → c.actor = some actor →
    home actor.2 = (a, c.generation)
  /-- Every incarnation that is there has its actor, and this has not got its last call. -/
  alive : ∀ a g, s.platform.isCurrent a g = true →
    ∃ n, home n = (a, g) ∧ s.world.2.deeds n ≠ [] ∧ .stopped ∉ s.world.2.deeds n
  /-- An actor whose incarnation has gone has got its last call, or else it is still acting, or in
  hand. -/
  removed : ∀ n, s.world.2.deeds n ≠ [] → s.hosts home n = false →
    .stopped ∈ s.world.2.deeds n ∨
      (∃ hook a g before, s.world.2.deeds n = .began hook a g :: before) ∨ held = some n
  /-- Once its incarnation has gone, it does not come back, and the actor does not begin to act. -/
  gone : ∀ r ∈ h, ∀ n, r.world.2.deeds n ≠ [] → r.hosts home n = false →
    s.hosts home n = false ∧ s.world.2.onsets n = r.world.2.onsets n

section

variable {s : Stage κ.recorded} {x : Option (Due κ.recorded)} {h : List (Stage κ.recorded)}

/-- How far an actor is that was noted (`Diary.phase`). -/
theorem Stage.Lives.phase (hl : s.Lives x) {n : Nat} (hn : s.world.2.deeds n ≠ []) :
    ∃ p, s.world.2.phase n = some p ∧ p ≠ .unborn ∧ p ≠ .built := by
  obtain ⟨p, hp, hbuilt⟩ := Life.orderly hl n
  refine ⟨p, hp, ?_, hbuilt⟩
  rintro rfl
  exact hn (eq_nil_of_unborn hp)

/-- An actor at an address, in hand, or acting has not got its last call (`Phase.next`). -/
theorem not_stopped {d : Diary} {n : Nat} {p : Phase} (hn : d.phase n = some p)
    (hp : p = .idle ∨ p = .acting) : d.deeds n ≠ [] ∧ .stopped ∉ d.deeds n := by
  have hretired : p ≠ .retired := by rcases hp with rfl | rfl <;> simp
  have hunborn : p ≠ .unborn := by rcases hp with rfl | rfl <;> simp
  exact ⟨noted_of_phase hn hunborn, fun hmem => hretired ((stopped_iff hn).mp hmem)⟩

/-- **The story of a platform** is a chronicle of its actors (`Chronicle`). -/
theorem Story.chronicle (hs : Story x h s) :
    ∃ home, Chronicle home ((Due.inHand x).map fun y => y.2.2) h s := by
  have hl := hs.lives
  obtain ⟨home, hh, hall⟩ := hs.homes
  refine ⟨home, ?_⟩
  constructor
  case called =>
    intro n hn
    obtain ⟨p, hp, hunborn, hbuilt⟩ := hl.phase hn
    exact called_first hp hunborn hbuilt
  case turns =>
    intro n hook a g later before hdeeds
    obtain ⟨p, hp, -⟩ := Life.orderly hl n
    unfold Diary.phase at hp
    rw [hdeeds] at hp
    exact latest_of_idle (idle_of_began hp)
  case last =>
    intro n hmem
    obtain ⟨p, hp, -⟩ := Life.orderly hl n
    obtain rfl := (stopped_iff hp).mp hmem
    obtain ⟨before, hdeeds, hnot, hidle⟩ := called_last hp
    obtain ⟨deed, rest, rfl, hdeed⟩ := latest_of_idle hidle
    exact ⟨deed, rest, hdeeds, hdeed, hnot⟩
  case apart => exact hh.apart
  case acts => exact fun n hook a g hmem => hh.acts n a g ⟨hook, hmem⟩
  case stands =>
    intro r hr a c actor hc hactor
    exact ((hall r hr).stands a c.generation actor (hactor ▸ stand_eq hc)).2
  case alive =>
    intro a g hcur
    obtain ⟨_ | actor, ho⟩ := isCurrent_iff_stand.mp hcur
    · rcases Life.out hl a g ho with ⟨n, hn, hacted⟩ | ⟨n, he⟩
      · exact ⟨n, hh.acts n a g hacted, not_stopped hn (Or.inr rfl)⟩
      · exact ⟨n, hh.hand a g n he, not_stopped (Life.hand hl a g n he).1 (Or.inl rfl)⟩
    · have hidle := (Life.home hl a g actor ho).1
      exact ⟨actor.2, hh.stands a g actor ho, not_stopped hidle (Or.inl rfl)⟩
  case removed =>
    intro n hn hgone
    obtain ⟨p, hp, hunborn, hbuilt⟩ := hl.phase hn
    cases p with
    | unborn => exact absurd rfl hunborn
    | built => exact absurd rfl hbuilt
    | retired => exact Or.inl ((stopped_iff hp).mpr rfl)
    | acting => exact Or.inr (Or.inl ((acting_iff hp).mp rfl))
    | idle =>
      rcases Life.placed hl n hp with ⟨a, g, actor, ha, rfl⟩ | ⟨a, g, he⟩
      · unfold Stage.hosts at hgone
        rw [hh.stands a g actor ha] at hgone
        exact absurd (hgone.symm.trans (isCurrent_iff_stand.mpr ⟨_, ha⟩)) (by simp)
      · exact Or.inr (Or.inr (by rw [he]; rfl))
  case gone => exact fun r hr => (hall r (List.mem_cons_of_mem _ hr)).gone

end

namespace Moment

variable {code : Code κ.recorded} {V : Event → Prop} {m : Moment κ.recorded}
  {h : List (Stage κ.recorded)}

/-- **The life cycle of actors**: at every moment there is a chronicle of all of them (`Chronicle`).
Between operations nobody is acting, and just those have got their last call whose incarnation has
gone. Coming and going take turns at every address, and so it is told; nothing else is told of it
unless the application makes it up. -/
theorem chronicled (hpub : code.Publishes V) (hp : Recorded code V m h) :
    (∃ home held, Chronicle home held h m.stage ∧ ∀ s, m = between s →
      ∀ n, s.world.2.deeds n ≠ [] → (.stopped ∈ s.world.2.deeds n ↔ s.hosts home n = false) ∧
        ∀ hook a g before, s.world.2.deeds n ≠ .began hook a g :: before) ∧
    ∀ a, ∃ l, Alternates (m.stage.platform.isLive a) l ∧
      Echoes (∀ e, V e → e.isElse) l (m.stage.platform.bus.comings a) := by
  refine ⟨?_, hp.tells hpub⟩
  cases m with
  | amid f s =>
    obtain ⟨x, hs⟩ := hp.lives hpub
    obtain ⟨home, hc⟩ := hs.chronicle
    exact ⟨home, _, hc, fun _ he => absurd he (by simp)⟩
  | between s =>
    obtain ⟨hs, hrest⟩ := hp.settled_lives hpub
    obtain ⟨home, hc⟩ := hs.chronicle
    refine ⟨home, none, hc, fun t he n hn => ?_⟩
    obtain rfl := Moment.between.inj he
    have hidle (hook : Hook) (a : Address) (g : Nat) (before : List Deed) :
        s.world.2.deeds n ≠ .began hook a g :: before := by
      intro hbegun
      obtain ⟨p, hp, -⟩ := Life.orderly hs.lives n
      exact hrest n (hp.trans (congrArg some ((acting_iff hp).mpr ⟨hook, a, g, before, hbegun⟩)))
    refine ⟨⟨fun hstopped => ?_, fun hgone => ?_⟩, hidle⟩
    · -- the actor of an incarnation that is there is another one
      rw [← Bool.not_eq_true]
      intro hthere
      obtain ⟨k, hk, hnoted, hnot⟩ := hc.alive _ _ hthere
      exact hnot (hc.apart k n hnoted hn hk ▸ hstopped)
    · rcases hc.removed n hn hgone with hretired | ⟨hook, a, g, before, hbegun⟩ | hheld
      · exact hretired
      · exact absurd hbegun (hidle hook a g before)
      · exact absurd hheld (by simp [Due.inHand])

/-- An actor that goes away while it accepts a message gets its last call afterwards. -/
theorem chronicled_told : ∃ (s : Stage App.sample.recorded) (h : List (Stage App.sample.recorded)),
    Recorded (Code.diarist .direct) Event.isElse (between s) h ∧
      s.world.2.deeds 0 = [.stopped, .ended,
        .began (.accept ⟨.sample, .discard, .bool true⟩) .sample 1, .ended, .began .run .sample 1,
          .init, .built] ∧
      s.platform.isLive .sample = false ∧
      (∃ home held, Chronicle home held h s ∧ home 0 = (.sample, 1) ∧ s.hosts home 0 = false) ∧
      Alternates false [true, false] := by
  obtain ⟨_, hactor⟩ := Past.perform (recorded_blank .direct Event.isElse) 12 (.spawn .plain)
    (spawn_publishes _ _) rfl
  obtain ⟨h, htold⟩ := Past.perform hactor 12 (.tell .sample (.bool true)) (tell_publishes _ _) rfl
  obtain ⟨⟨home, held, hc, hend⟩, htells⟩ := chronicled (diarist_publishes _ _) htold
  have hhome : home 0 = (.sample, 1) :=
    hc.acts 0 .run _ _ (.tail _ (.tail _ (.tail _ (.tail _ (.head _)))))
  have hgone := (hend _ rfl 0 (List.cons_ne_nil _ _)).1.mp (.head _)
  obtain ⟨_, halternates, hechoes⟩ := htells .sample
  obtain rfl := hechoes.eq fun _ he => he
  exact ⟨_, h, htold, rfl, rfl, ⟨home, held, hc, hhome, hgone⟩, halternates⟩

end Moment

end Troupe
