import Troupe.Proofs.Moments
import Troupe.Proofs.Platform.Waits

/-!
# Who is blocked

An actor is blocked (`Platform.isBlocked`, the source's `is_blocked`) while a task that it
registered is pending. Tasks are recorded for the incarnation that lives at the address of their
owner (`TaskEntry.generation`); but nothing keeps the code of an actor that has left from
registering one (`register_task` asks for no context, and records generation 0), and such a task
holds up the address: before anybody lives there again, and whoever comes to live there.
`Platform.Stray` is such a task.

`Afterlife.code` is an application whose actors come to that: an actor leaves in its own hook,
registers a task, and its successor is blocked (`Afterlife.successor_blocked`).

Headline:
* **`Moment.blocked_by_tasks`**: who is blocked, and by which tasks.
-/

namespace Troupe

open Platform Troupe.Flow

namespace Moment

variable {κ : App} {code : Code κ} {m : Moment κ}

theorem waitInv_new (config : Config) (trap : Option κ.Trap) (subs : List Subscriber)
    (w : κ.World) :
    (Stage.new config trap subs w).platform.WaitInv := by
  obtain ⟨bus, -, hbus⟩ := new_platform config trap subs w
  rw [hbus]
  exact (WaitInv.new config trap).congr (fun _ => rfl) rfl (fun _ _ => Iff.rfl) fun _ _ => Iff.rfl

theorem not_stray_new (config : Config) (trap : Option κ.Trap) (subs : List Subscriber)
    (w : κ.World) (a : Address) : ¬ (Stage.new config trap subs w).platform.Stray a := by
  obtain ⟨bus, -, hbus⟩ := new_platform config trap subs w
  rw [hbus]
  rintro ⟨_, _, ⟨_, hids, _⟩, -⟩
  exact nomatch hids

/-- At every moment that is reached, those who wait are in order (`Platform.WaitInv`). -/
theorem Reach.waits (h : Reach code m) : m.stage.platform.WaitInv := by
  obtain ⟨config, trap, subs, w, hlater⟩ := h
  have hok : (between (.new config trap subs w)).Ok Event.Any := ok_new config trap subs w
  exact (waitInv_new config trap subs w).outer (hlater.ok hok).2 hok.inv

/-- A stray task (`Platform.Stray`) was registered, in the course of this life, when nobody lived at
the address. -/
theorem Reach.stray (h : Reach code m) {a : Address} (hs : m.stage.platform.Stray a) :
    ∃ s r task, Reach code (between s) ∧ Outer Event.Any s.platform r ∧ r.context? a = none ∧
      Outer Event.Any (r.registerTask a task).2 m.stage.platform := by
  obtain ⟨config, trap, subs, w, hlater⟩ := h
  have hok : (between (.new config trap subs w)).Ok Event.Any := ok_new config trap subs w
  rcases hs.outer (hlater.ok hok).2 hok.inv (waitInv_new config trap subs w) with
    hnew | ⟨r, task, hbefore, hnone, hafter⟩
  · exact absurd hnew (not_stray_new config trap subs w a)
  · exact ⟨_, r, task, ⟨config, trap, subs, w, .refl⟩, hbefore, hnone, hafter⟩

/-- **Who is blocked.** Where no task is stray (`Platform.Stray`), an actor is blocked if and only
if it is alive and its incarnation has a pending task. A stray task blocks its address, whether
somebody lives there or not; it was registered when nobody did. A task is recorded for the
incarnation that lives at the address of the machine, and is stray if there is none. -/
theorem blocked_by_tasks (h : Reach code m) :
    (∀ a, ¬ m.stage.platform.Stray a → (m.stage.platform.isBlocked a = true ↔
      ∃ c, m.stage.platform.context? a = some c ∧
        m.stage.platform.Occupied a c.generation)) ∧
    (∀ a, m.stage.platform.Stray a → m.stage.platform.isBlocked a = true ∧
      ∃ s r task, Reach code (between s) ∧ Outer Event.Any s.platform r ∧ r.context? a = none ∧
        Outer Event.Any (r.registerTask a task).2 m.stage.platform) ∧
    ∀ (mach : Machine κ) task n, ∃ (id : Nat) (t : Stage κ),
      perform (body code) n (answer code mach (.runTask task)) m.stage = some ((id, mach), t) ∧
      t.platform.Pending id
        ⟨mach.address, (m.stage.platform.generation? mach.address).getD 0, none⟩ ∧
      ∀ a, t.platform.Stray a ↔ m.stage.platform.Stray a ∨
        (a = mach.address ∧ m.stage.platform.context? mach.address = none) := by
  have hi : m.stage.platform.Inv := h.ok.inv
  refine ⟨fun a hs => h.waits.isBlocked_iff hi.tasks hs,
    fun a hs => ⟨hs.isBlocked hi.tasks, h.stray hs⟩, fun mach task n => ⟨_, _, rfl, ?_, fun a => ?_⟩⟩
  · exact (pending_register _ _ task).mpr (Or.inl ⟨rfl, rfl⟩)
  · exact stray_register h.waits hi task

/-- The generations for which tasks are on record (`TaskEntry.generation`). -/
def dates (p : Platform κ) : List Nat :=
  p.entries.entries.map fun x => x.2.generation

theorem mem_dates {p : Platform κ} {id : Nat} {e : TaskEntry} (h : p.Pending id e) :
    e.generation ∈ dates p :=
  List.mem_map.mpr ⟨(id, e), Table.get?_eq_some_iff.mp h.1, rfl⟩

theorem not_stray_of_dates {p : Platform κ} (h : 0 ∉ dates p) (a : Address) : ¬ p.Stray a :=
  fun ⟨_, _, _, he, hzero⟩ => h (hzero ▸ mem_dates he)

theorem not_occupied_of_dates {p : Platform κ} {g : Nat} (h : g ∉ dates p) (a : Address) :
    ¬ p.Occupied a g :=
  fun ⟨_, _, he, _, hg⟩ => h (hg ▸ mem_dates he)

/-- An actor is spawned, and runs a task when it is started: its incarnation is blocked. -/
theorem blocked_spawned : ∃ (s : Stage App.sample) (c : Context App.sample),
    Reach Code.sample (between s) ∧ ¬ s.platform.Stray .sample ∧
      s.platform.context? .sample = some c ∧ s.platform.isBlocked .sample = true ∧
      s.platform.Occupied .sample c.generation := by
  have hrun : (perform (body Code.sample) 8 (Operation.spawn Code.sample .sample) sample).map
      (fun x => (x.2.platform.isBlocked .sample, dates x.2.platform)) = some (true, [1]) := by
    decide +kernel
  obtain ⟨⟨_, s⟩, hs, hseen⟩ := Option.map_eq_some_iff.mp hrun
  obtain ⟨hblocked, hdates⟩ := Prod.mk.inj hseen
  have hspawned := reach_sample.perform 8 (.spawn .sample) hs
  have hstray : ¬ s.platform.Stray .sample := not_stray_of_dates (hdates ▸ by decide) .sample
  obtain ⟨c, hc, hocc⟩ := ((blocked_by_tasks hspawned).1 .sample hstray).mp hblocked
  exact ⟨s, c, hspawned, hstray, hc, hblocked, hocc⟩

end Moment

/-! ## A task from after the end -/

namespace Afterlife

/-- Its actors raise an error, leave, and then run a task (`Request.runTask`), when they get a
message. -/
def code (verdict : Verdict) : Code App.sample where
  freshId w := ("fresh", w)
  build _ _ w := ((), w)
  init _ w := (.direct, w)
  stop _ w := w
  judge _ _ w := (verdict, w)
  hook
    | _, .accept _, _ =>
      .ask (.raise (.application "e")) fun _ => .ask .exit fun _ => .ask (.runTask ()) fun _ =>
        .done (.ok ())
    | _, _, _ => .done (.ok ())
  foreign _ _ _ := .done (.ok .nil)
  poll _ w := (.pending (), w)

def template : Template App.sample :=
  .mk (some "a") () [] (some ()) [] []

/-- What there is to see of the actor: its generation, whether it is blocked, and for which
generations tasks are on record. -/
def sight (s : Stage App.sample) : Option Nat × Bool × List Nat :=
  (s.platform.generation? .sample, s.platform.isBlocked .sample, Moment.dates s.platform)

/-- The stage after the actor has got a message. -/
def told (verdict : Verdict) : Option (Stage App.sample) :=
  (perform (body (code verdict)) 20 (Operation.spawn (code verdict) template) Moment.sample).bind
    fun x => (perform (body (code verdict)) 20 (Operation.tell .sample .null) x.2).map Prod.snd

theorem reach_told {verdict : Verdict} {s : Stage App.sample} (h : told verdict = some s) :
    Moment.Reach (code verdict) (.between s) := by
  obtain ⟨⟨_, t⟩, ht, h⟩ := Option.bind_eq_some_iff.mp h
  obtain ⟨⟨_, u⟩, hu, rfl⟩ := Option.map_eq_some_iff.mp h
  have hnew : Moment.Reach (code verdict) (.between Moment.sample) := ⟨{}, none, [], (), .refl⟩
  exact (hnew.perform 20 (.spawn template) ht).perform 20 (.tell _ _) hu

/-- **A successor is blocked** by a task that it did not register. When the error is ignored, nobody
lives at the address that is blocked; when it makes the platform build the actor anew
(`Verdict.restart`), that one is blocked from the start. -/
theorem successor_blocked :
    (∃ s, Moment.Reach (code .ignore) (.between s) ∧ s.platform.context? .sample = none ∧
      s.platform.isBlocked .sample = true) ∧
    ∃ s, Moment.Reach (code .restart) (.between s) ∧
      s.platform.generation? .sample = some 2 ∧ ¬ s.platform.Occupied .sample 2 ∧
      s.platform.isBlocked .sample = true := by
  have hignored : (told .ignore).map sight = some (none, true, [0]) := by decide +kernel
  have hrestarted : (told .restart).map sight = some (some 2, true, [0]) := by decide +kernel
  obtain ⟨s, hs, hsight⟩ := Option.map_eq_some_iff.mp hignored
  obtain ⟨t, ht, hsight'⟩ := Option.map_eq_some_iff.mp hrestarted
  obtain ⟨hgone, hseen⟩ := Prod.mk.inj hsight
  obtain ⟨hlives, hseen'⟩ := Prod.mk.inj hsight'
  obtain ⟨hblocked, hdates⟩ := Prod.mk.inj hseen'
  exact ⟨⟨s, reach_told hs, Option.map_eq_none_iff.mp hgone, (Prod.mk.inj hseen).1⟩,
    t, reach_told ht, hlives, Moment.not_occupied_of_dates (hdates ▸ by decide) .sample, hblocked⟩

end Afterlife

end Troupe
