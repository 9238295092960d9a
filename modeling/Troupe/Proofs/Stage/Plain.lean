import Troupe.Proofs.Platform.Plain
import Troupe.Stage.Allocation
import Troupe.Stage.Judgement

/-!
# Stages without observers

`Stage.plain` is a stage with a plain platform (`Platform.plain`) and no audience. Actors are
removed (`plain_terminate`) and allocated (`allocate_plain`) and errors judged (`judge_plain`) just
so there.

`Stage.Watched` says what observers may do between operations and in pauses: they read the bus, come
and go, and report to it.

Headlines:
* **`Stage.Watched.plain`**: what observers do makes no difference to the plain stage.
* **`Stage.allocate_plain`**, **`Stage.plain_terminate`**, **`Stage.judge_plain`**: nor does it to
  what a platform does to its actors.
-/

namespace Troupe

variable {κ : App}

/-- The stage without observers (`Platform.plain`). -/
def Stage.plain (s : Stage κ) : Stage κ :=
  ⟨s.platform.plain, s.world, none⟩

@[simp] theorem Platform.plain_forget (p : Platform κ) (a : Address) :
    (p.forget a).plain = p.plain.forget a := rfl

@[simp] theorem Platform.trapAt?_plain (p : Platform κ) (r : Raised κ) (level : Address) :
    p.plain.trapAt? r level = p.trapAt? r level := rfl

namespace Stage

variable (code : Code κ) (s : Stage κ)

@[simp] theorem plain_plain : s.plain.plain = s.plain := by
  unfold plain
  rw [s.platform.plain_plain]

@[simp] theorem platform_plain : s.plain.platform = s.platform.plain := rfl

@[simp] theorem world_plain : s.plain.world = s.world := rfl

/-- What observers may do: they read the bus, come and go, and report to it (`Bus.receivers`). -/
inductive Watched (s : Stage κ) : Stage κ → Prop
  | mk {bus : Bus} (listener : Option Listener) :
      Bus.Grown (fun e => e.isReport = true) s.platform.bus bus →
        Watched s ⟨{ s.platform with bus }, s.world, listener⟩

/-- What observers do makes no difference (`Stage.plain`). -/
theorem Watched.plain {s t : Stage κ} (h : s.Watched t) : t.plain = s.plain := by
  cases h with
  | mk listener hgrown =>
    unfold Stage.plain Platform.plain
    rw [hgrown.plain]

theorem watched_refl : s.Watched s :=
  .mk s.listener (.refl _)

theorem watched_listen {f : Listener → Bus → Bus × Listener}
    (hf : ∀ l b, Bus.Grown (fun e => e.isReport = true) b (f l b).1) : s.Watched (s.listen f) := by
  unfold listen
  cases s.listener with
  | none => exact s.watched_refl
  | some l => exact .mk _ (hf l s.platform.bus)

/-- In a pause (`Stage.pause`) only the audience works. -/
theorem watched_pause : s.Watched s.pause :=
  s.watched_listen Listener.pause_grown

/-! ## Removal -/

theorem plain_remove (a : Address) : (s.remove code a).plain = s.plain.remove code a := by
  unfold remove
  rw [platform_plain, Platform.context?_plain]
  cases s.platform.context? a with
  | none => rfl
  | some c =>
    unfold plain
    dsimp only
    rw [Platform.plain_publish _ rfl, Platform.plain_unschedule, Platform.plain_forget]

theorem plain_terminateWithin (n : Nat) (a : Address) :
    (terminateWithin code n a s).plain = terminateWithin code n a s.plain := by
  induction n generalizing a s with
  | zero => rfl
  | succ n ih =>
    have hbelow (as : List Address) (s : Stage κ) :
        (as.foldl (fun s c => terminateWithin code n c s) s).plain =
          as.foldl (fun s c => terminateWithin code n c s) s.plain := by
      induction as generalizing s with
      | nil => rfl
      | cons a as ih' =>
        rw [List.foldl_cons, List.foldl_cons, ih', ih]
    unfold terminateWithin
    rw [platform_plain, Platform.contains_plain, Platform.directChildren_plain,
      apply_ite Stage.plain]
    dsimp only
    rw [apply_ite Stage.plain, plain_remove, hbelow]

theorem plain_terminate (a : Address) : (s.terminate code a).plain = s.plain.terminate code a :=
  s.plain_terminateWithin code _ a

/-! ## Judgement -/

theorem plain_publish {e : Event} (he : e.isNews = true) :
    (s.edit (·.publish e)).plain = s.plain.edit (·.publish e) := by
  unfold plain edit
  rw [Platform.plain_publish _ he]

theorem judge_plain (r : Raised κ) (levels : List Address) :
    judge code r levels s.plain = Prod.map id plain (judge code r levels s) := by
  induction levels generalizing s with
  | nil => rfl
  | cons level above ih =>
    unfold judge
    rw [platform_plain, world_plain, Platform.trapAt?_plain]
    -- what is said is the same, and the news of it are
    have hnews (world : κ.World) {e : Event} (he : e.isNews = true) :
        ({ s.plain with world } : Stage κ).edit (·.publish e) =
          (({ s with world } : Stage κ).edit (·.publish e)).plain :=
      (plain_publish ({ s with world } : Stage κ) he).symm
    cases s.platform.trapAt? r level with
    | none =>
      dsimp only
      rw [apply_ite (Prod.map id plain), ← ih, ← hnews s.world rfl]
      rfl
    | some trap =>
      obtain ⟨verdict, world, hsaid⟩ : ∃ verdict world,
        code.judge trap r.error s.world = (verdict, world) := ⟨_, _, rfl⟩
      simp only [hsaid]
      cases verdict with
      | restart => rfl
      | stop => rfl
      | ignore => exact congrArg (Prod.mk Decision.ignored) (hnews world rfl)
      | escalate =>
        dsimp only
        rw [apply_ite (Prod.map id plain), ← ih, ← hnews world rfl]
        rfl

/-! ## Allocation -/

theorem place_plain (parent : Address) (id : Option String) :
    s.plain.place code parent id = Prod.map (fun x => x) plain (s.place code parent id) := by
  unfold place
  rw [platform_plain, Platform.contains_plain, apply_ite (Prod.map (fun x => x) plain)]
  refine if_congr Iff.rfl rfl ?_
  rw [world_plain]
  generalize code.freshId s.world = fresh
  have living (id : String) (a : Address) (world : κ.World) :
      (if s.plain.platform.isLive a then (.error (.duplicateAddress a), { s.plain with world })
        else (.ok (id, a), { s.plain with world }) : Except PlatformError (String × Address) × _) =
      Prod.map (fun x => x) plain (if s.platform.isLive a then
        (.error (.duplicateAddress a), { s with world }) else (.ok (id, a), { s with world })) := by
    rw [apply_ite (Prod.map (fun x => x) plain)]
    rfl
  cases id with
  | some id =>
    dsimp only
    cases Address.make parent id with
    | error e => rfl
    | ok a => exact living id a s.world
  | none =>
    dsimp only
    cases Address.make parent fresh.1 with
    | error e => rfl
    | ok a => exact living fresh.1 a fresh.2

theorem plain_putMembers (p : Platform κ) (a : Address) (groups : List String) :
    (groups.foldl (fun p g => (p.putMember g a).2) p).plain =
      groups.foldl (fun p g => (p.putMember g a).2) p.plain := by
  induction groups generalizing p with
  | nil => rfl
  | cons g groups ih => rw [List.foldl_cons, List.foldl_cons, ih, Platform.plain_putMember]

theorem plain_install (a : Address) (template : Template κ) :
    (s.install code a template).plain = s.plain.install code a template := by
  unfold install
  rw [platform_plain, world_plain]
  generalize code.build template.factory template.args s.world = built
  obtain ⟨actor, world⟩ := built
  dsimp only
  generalize code.init actor world = begun
  obtain ⟨behaviour, world⟩ := begun
  unfold plain
  dsimp only
  rw [plain_putMembers, Platform.plain_publish _ rfl]
  rfl

mutual

theorem allocate_plain (parent : Address) (t : Template κ) (s : Stage κ) :
    allocate code parent t s.plain = Prod.map id plain (allocate code parent t s) := by
  cases t with
  | mk id factory args trap groups children =>
    rw [allocate, allocate, place_plain]
    cases s.place code parent id with
    | mk placed s =>
      cases placed with
      | error e => rfl
      | ok x =>
        obtain ⟨id, a⟩ := x
        dsimp only [Prod.map]
        rw [← plain_install, allocateAll_plain]
        cases allocateAll code a children (s.install code a _) with
        | mk failed s =>
          cases failed with
          | none => rfl
          | some e => exact congrArg (Prod.mk (Except.error e)) (s.plain_terminate code a).symm

theorem allocateAll_plain (parent : Address) (ts : List (Template κ)) (s : Stage κ) :
    allocateAll code parent ts s.plain = Prod.map id plain (allocateAll code parent ts s) := by
  cases ts with
  | nil =>
    rw [allocateAll, allocateAll]
    rfl
  | cons t ts =>
    rw [allocateAll, allocateAll, allocate_plain]
    cases allocate code parent t s with
    | mk done s =>
      cases done with
      | error e => rfl
      | ok a => exact allocateAll_plain parent ts s

end

end Stage

end Troupe
