import Troupe.Proofs.Flow.Blind
import Troupe.Proofs.Flow.Lines
import Troupe.Proofs.Guarantee.Telling
import Troupe.Proofs.Stage.Faults

/-!
# What the script that spawns leaves out

An actor's code spawns a child by a request of its own (`Request.spawn`, the source's `Cx::spawn`),
or through a script of four lines that runs on its machine (`Script.spawn`). Both allocate the child
with those below it, and both fail alike if that fails; the request answers why, the script raises
it. But the request starts the child and then those below it (`Flow.startTree`), and the script
starts the child only, since `Instr::Run` is `start_actor`. Those below it are there from then on
without ever having been started, unless the child has none: in `Unstarted.code` a child's child is
left out (`Unstarted.grandchild_not_started`).

The module first follows the script line by line (`Machine.step_alloc`, `Machine.step_dup`,
`Machine.step_run`). Each line is logged before it is carried out, if instructions are; that can be
told on the bus only (`Stage.logged_alike`), and if they are not, the two go on from the same stage.

Headline:
* **`Moment.spawn_compared`**: a request to spawn is the script, and after it those below the child
  are started.
-/

namespace Troupe

open Platform Troupe.Flow

section

variable {κ : App} {code : Code κ} {α : Type}

/-! ## The script -/

namespace Machine

variable {m : Machine κ} {script : Script κ} {heap : Heap (HeapObject κ)} {ip : Nat}
  {stack : List Datum} {owned : List Nat} {cell : Nat} {t : Template κ} {a : Address}

theorem step_pushTemplate :
    (m.running (.spawn t) heap ip stack owned).step (.pushTemplate 0) =
      .ok (.next (m.running (.spawn t) (heap.alloc (.template t)).2 ip
        (.ref (heap.alloc (.template t)).1 :: stack)
        (owned ++ [(heap.alloc (.template t)).1]))) := rfl

theorem step_alloc (h : heap.get? cell = some (.template t)) :
    (m.running script heap ip (.ref cell :: stack) owned).step .alloc =
      .ok (.demand (.allocate t) (m.running script heap ip stack owned)) := by
  unfold step
  dsimp only
  rw [popTemplate_running h]
  rfl

theorem step_dup (d : Datum) :
    (m.running script heap ip (d :: stack) owned).step .dup =
      .ok (.next (m.running script heap ip (d :: d :: stack) owned)) := rfl

theorem step_run (h : heap.get? cell = some (.str a.text)) :
    (m.running script heap ip (.ref cell :: stack) owned).step .run =
      .ok (.demand (.start a) (m.running script heap ip stack owned)) := by
  unfold step
  dsimp only
  rw [popAddress_running h]
  rfl

end Machine

namespace Stage

variable {s u : Stage κ} {a : Address} {is : List Instr}

/-- Only observers can tell that instructions were logged (`Stage.Alike`). -/
theorem logged_alike (s : Stage κ) (a : Address) (is : List Instr) : (s.logged a is).Alike s := by
  induction is generalizing s with
  | nil => rfl
  | cons i is ih =>
    show ((if s.platform.config.logOps then s.edit (·.publish (.executed a i)) else s).logged
      a is).Alike s
    refine (ih _).trans ?_
    split
    · exact Alike.mk (Platform.plain_publish_of_not _ rfl) rfl
    · rfl

/-- Allocating goes alike on stages that are alike (`Stage.allocate`). -/
theorem Alike.allocate (h : s.Alike u) (code : Code κ) (parent : Address) (t : Template κ) :
    (Stage.allocate code parent t s).1 = (Stage.allocate code parent t u).1 ∧
      (Stage.allocate code parent t s).2.Alike (Stage.allocate code parent t u).2 := by
  have hsame : Prod.map id plain (Stage.allocate code parent t s) =
      Prod.map id plain (Stage.allocate code parent t u) := by
    rw [← allocate_plain, ← allocate_plain]
    exact congrArg (Stage.allocate code parent t) h
  exact Prod.mk.inj hsame

end Stage

namespace Flow

variable {m : Machine κ} {t : Template κ} {s u v : Stage κ} {n : Nat} {a : Address}

/-! ## Starting -/

/-- Whoever lives is started (`Call.start`). -/
theorem performCall_start (hlive : s.platform.isLive a = true)
    {r : Except PlatformError Unit} (h : performCall (body code) n (.start a) s = some (r, u)) :
    r = .ok () := by
  cases n with
  | zero => exact absurd h (by simp [performCall])
  | succ n =>
    change performWith (performCall (body code) n) (startActor code a) s = _ at h
    unfold startActor at h
    change performWith _ (if (!s.platform.isLive a) = true then _ else _) s = _ at h
    rw [hlive, if_neg (by simp)] at h
    change performWith _ ((edit _).bind fun _ => (actAt code a .run).bind fun result =>
      (invoke (.flush a)).bind _) s = _ at h
    rw [performWith_bind] at h
    obtain ⟨_, -, h⟩ := Option.bind_eq_some_iff.mp h
    rw [performWith_bind] at h
    obtain ⟨⟨result, _⟩, -, h⟩ := Option.bind_eq_some_iff.mp h
    obtain ⟨_, -, h⟩ := Option.bind_eq_some_iff.mp ((performWith_bind _ _ _).symm.trans h)
    dsimp only at h
    split at h
    all_goals exact (Prod.mk.inj (Option.some.inj h)).1.symm

/-- Starting several actors (`Flow.startAll`) does not fail: whoever has gone is left out. -/
theorem perform_startAll (as : List Address) {r : Except PlatformError Unit}
    (h : perform (body code) n (startAll as) s = some (r, u)) : r = .ok () := by
  induction as generalizing s with
  | nil => exact (Prod.mk.inj (Option.some.inj h)).1.symm
  | cons a as ih =>
    change performWith (performCall (body code) n) (if s.platform.isLive a = true then
      (invoke (.start a)).bind _ else startAll as) s = _ at h
    split at h
    · rename_i hlive
      rw [performWith_bind, performWith_invoke] at h
      obtain ⟨⟨r', v⟩, hstart, h⟩ := Option.bind_eq_some_iff.mp h
      obtain rfl := performCall_start hlive hstart
      exact ih h
    · exact ih h

/-- Starting an actor and those below it (`Flow.startTree`) does not fail, either. -/
theorem perform_startTree (hlive : s.platform.isLive a = true) (n : Nat) :
    perform (body code) n (startTree a) s =
      (performCall (body code) n (.start a) s).bind fun x =>
        (perform (body code) n (startAll (s.platform.descendants a)) x.2).map fun y =>
          (.ok (), y.2) := by
  change performWith (performCall (body code) n) ((invoke (.start a)).bind _) s = _
  rw [performWith_bind, performWith_invoke]
  refine Option.bind_congr fun ⟨r, v⟩ hstart => ?_
  obtain rfl := performCall_start hlive hstart
  change perform (body code) n (startAll (s.platform.descendants a)) v = _
  cases hall : perform (body code) n (startAll (s.platform.descendants a)) v with
  | none => rfl
  | some y => exact congrArg some (Prod.ext (perform_startAll _ hall) rfl)

/-- **The native spawn** (`Request.spawn`) starts the actor and then those below it. -/
theorem perform_answer_spawn (hu : s.allocate code m.address t = (.ok a, u))
    (hlive : u.platform.isLive a = true) (n : Nat) :
    perform (body code) n (answer code m (.spawn t)) s =
      (performCall (body code) n (.start a) u).bind fun x =>
        (perform (body code) n (startAll (u.platform.descendants a)) x.2).map fun y =>
          ((.ok a, m), y.2) := by
  change performWith _ (((onStage (Stage.allocate code m.address t)).bind _).bind _) s = _
  rw [performWith_bind, performWith_bind]
  change ((some (s.allocate code m.address t)).bind _).bind _ = _
  rw [hu]
  change (performWith (performCall (body code) n) ((startTree a).bind _) u).bind _ = _
  rw [performWith_bind]
  change ((perform (body code) n (startTree a) u).bind _).bind _ = _
  rw [perform_startTree hlive, Option.bind_assoc, Option.bind_assoc]
  refine Option.bind_congr fun x _ => ?_
  cases perform (body code) n (startAll (u.platform.descendants a)) x.2 <;> rfl

theorem perform_answer_spawn_error {e : PlatformError}
    (hu : s.allocate code m.address t = (.error e, u)) (n : Nat) :
    perform (body code) n (answer code m (.spawn t)) s = some ((.error e, m), u) := by
  change performWith _ (((onStage (Stage.allocate code m.address t)).bind _).bind _) s = _
  rw [performWith_bind, performWith_bind]
  change ((some (s.allocate code m.address t)).bind _).bind _ = _
  rw [hu]
  rfl

/-! ## The script is carried out -/

variable {heap : Heap (HeapObject κ)}

/-- Starting an actor on demand of a script (`Demand.start`). -/
theorem perform_start (k : Machine κ) (a : Address) (s : Stage κ) (n : Nat) :
    perform (body code) n (meet code k (.start a)) s =
      (performCall (body code) n (.start a) s).map fun x => ((.ofExcept x.1, k), x.2) := by
  change performWith _ (((invoke (.start a)).bind _).bind _) s = _
  rw [performWith_bind, performWith_bind, performWith_invoke]
  cases performCall (body code) n (.start a) s <;> rfl

/-- What a script gets for its demand to allocate: the address, or the error. -/
def Met.ofAllocation : Except PlatformError Address → Met κ
  | .ok a => .push (.str a.text)
  | .error e => .failed e

/-- Allocating on demand of a script (`Demand.allocate`). -/
theorem perform_allocate (k : Machine κ) (t : Template κ) (s : Stage κ) (n : Nat) :
    perform (body code) n (meet code k (.allocate t)) s =
      some ((.ofAllocation (s.allocate code k.address t).1, k),
        (s.allocate code k.address t).2) := by
  change performWith _ (((onStage (Stage.allocate code k.address t)).bind _).bind _) s = _
  rw [performWith_bind, performWith_bind]
  change ((some (s.allocate code k.address t)).bind _).bind _ = _
  cases s.allocate code k.address t with
  | mk r u => cases r <;> rfl

/-- The lines up to the allocation (`Instr.alloc`). The script goes on with the address, or fails.
-/
theorem perform_exec_allocated (hheap : m.heap.Ok) (hroom : m.depth < m.maxFrames)
    (hcur : s.platform.isCurrent m.address m.generation = true)
    {r : Except PlatformError Address}
    (hu : (s.logged m.address [.pushTemplate 0, .alloc]).allocate code m.address t = (r, u)) :
    ∃ heap owned, heap.Ok ∧ ∀ n,
      perform (body code) (n + 2) (Flow.exec m (.spawn t)) s =
        perform (body code) n
          (goOn (m.running (.spawn t) heap 2 [] owned) m.depth (.ofAllocation r)) u := by
  obtain ⟨-, hget⟩ := hheap.get?_alloc (.template t)
  refine ⟨(m.heap.alloc (.template t)).2, [(m.heap.alloc (.template t)).1], hheap.alloc _,
    fun n => ?_⟩
  have hlines : performCall (body code) (n + 2)
      (.resume (m.running (.spawn t) m.heap 0 [] []) m.depth) s = _ :=
    (performCall_running_next hcur rfl (by simp) Machine.step_pushTemplate).trans
      (performCall_running_demand ((Stage.isCurrent_logged _ _).trans hcur) rfl (by simp)
        (Machine.step_alloc ((hget _).trans (if_pos rfl))))
  refine (perform_exec hroom _ _ _).trans (hlines.trans ?_)
  rw [perform_allocate, Stage.logged_append]
  change perform (body code) n (goOn _ m.depth (.ofAllocation
    ((s.logged m.address [.pushTemplate 0, .alloc]).allocate code m.address t).1))
    ((s.logged m.address [.pushTemplate 0, .alloc]).allocate code m.address t).2 = _
  rw [hu]
  rfl

/-- The lines after the allocation (`Instr.run`). -/
theorem perform_goOn_started (code : Code κ) (hheap : heap.Ok) (owned : List Nat)
    (hcur : u.platform.isCurrent m.address m.generation = true)
    (hlive : u.platform.isLive a = true) : ∃ heap' owned', ∀ n,
      perform (body code) (n + 2)
          (goOn (m.running (.spawn t) heap 2 [] owned) m.depth (.push (.str a.text))) u =
        (performCall (body code) n (.start a) (u.logged m.address [.dup, .run])).map fun x =>
          ((if x.2.platform.isCurrent m.address m.generation then some (.str a.text) else none,
            m.rested heap' owned'), x.2) := by
  obtain ⟨-, hget⟩ := hheap.get?_alloc (.str a.text)
  have hcell := (hget (heap.alloc (.str a.text)).1).trans (if_pos rfl)
  refine ⟨(heap.alloc (.str a.text)).2, owned ++ [(heap.alloc (.str a.text)).1], fun n => ?_⟩
  have hlogged : (u.logged m.address [.dup, .run]).platform.isLive a = true := by
    obtain ⟨bus, hbus⟩ := u.logged_eq m.address [.dup, .run]
    rw [hbus]
    exact hlive
  refine (performWith_invoke (.resume (m.running (.spawn t) (heap.alloc (.str a.text)).2 2
    [.ref (heap.alloc (.str a.text)).1] (owned ++ [(heap.alloc (.str a.text)).1])) m.depth)
    u).trans ?_
  rw [performCall_running_next hcur rfl (by simp) (Machine.step_dup _),
    performCall_running_demand ((Stage.isCurrent_logged _ _).trans hcur) rfl (by simp)
      (Machine.step_run hcell)]
  rw [perform_start, Stage.logged_append]
  change (Option.map _ (performCall (body code) n (.start a)
    (u.logged m.address [.dup, .run]))).bind _ = _
  cases hstart : performCall (body code) n (.start a) (u.logged m.address [.dup, .run]) with
  | none => rfl
  | some x =>
    obtain ⟨r, v⟩ := x
    obtain rfl := performCall_start hlogged hstart
    cases n with
    | zero => exact absurd hstart (by simp [performCall])
    | succ n =>
      refine (performWith_invoke (.resume (m.running (.spawn t) (heap.alloc (.str a.text)).2 4
        [.ref (heap.alloc (.str a.text)).1] (owned ++ [(heap.alloc (.str a.text)).1])) m.depth)
        v).trans ?_
      exact performCall_running_end rfl hcell

/-- **The scripted spawn** (`Script.spawn`) starts the actor only. -/
theorem perform_exec_spawn (hheap : m.heap.Ok) (hroom : m.depth < m.maxFrames)
    (hcur : s.platform.isCurrent m.address m.generation = true)
    (hu : (s.logged m.address [.pushTemplate 0, .alloc]).allocate code m.address t = (.ok a, u))
    (hlive : u.platform.isLive a = true)
    (hstays : u.platform.isCurrent m.address m.generation = true) : ∃ heap, ∀ n,
      perform (body code) (n + 4) (Flow.exec m (.spawn t)) s =
        (performCall (body code) n (.start a) (u.logged m.address [.dup, .run])).map fun x =>
          ((if x.2.platform.isCurrent m.address m.generation then some (.str a.text) else none,
            { m with heap }), x.2) := by
  obtain ⟨heap, owned, hheap', hlines⟩ := perform_exec_allocated hheap hroom hcur hu
  obtain ⟨heap', owned', hstart⟩ := perform_goOn_started (t := t) code hheap' owned hstays hlive
  exact ⟨heap'.releaseAll owned', fun n => (hlines (n + 2)).trans (hstart n)⟩

/-- A script that cannot spawn raises why (`Flow.failScript`). -/
theorem perform_exec_spawn_error (hheap : m.heap.Ok) (hroom : m.depth < m.maxFrames)
    (hcur : s.platform.isCurrent m.address m.generation = true) {e : PlatformError}
    (hu : (s.logged m.address [.pushTemplate 0, .alloc]).allocate code m.address t =
      (.error e, u)) : ∃ heap, ∀ n,
      perform (body code) (n + 2) (Flow.exec m (.spawn t)) s =
        some ((none, { m with heap }), u.edit (·.raiseAt m.address (.platform e))) := by
  obtain ⟨heap, owned, -, hlines⟩ := perform_exec_allocated hheap hroom hcur hu
  refine ⟨heap.releaseAll owned, fun n => (hlines n).trans ?_⟩
  change some ((none, (m.running (.spawn t) heap 2 [] owned).unwind m.depth), _) = _
  rw [Machine.unwind_running]
  rfl

end Flow

namespace Stage

variable {s u : Stage κ} {t : Template κ} {a parent : Address}

/-- Without children the names spell one address (`Template.paths`). -/
theorem paths_of_childless {w : κ.World} (h : t.children = [])
    (hmake : Address.make parent (code.name t.id w).1 = .ok a) :
    (t.named code w).1.paths parent = [a] := by
  obtain ⟨id, factory, args, trap, groups, children⟩ := t
  obtain rfl : children = [] := h
  have hmake' : Address.make parent (code.name id w).1 = .ok a := hmake
  rw [Template.named, Template.namedAll, Template.paths, Option.getD_some, hmake']
  rfl

/-- Whoever was allocated lives, with those below it, and everybody else still does
(`Stage.allocate`). -/
theorem living_of_allocate (ht : s.platform.TableInv) (hs : s.platform.Neat)
    (h : s.allocate code parent t = (.ok a, u)) :
    u.platform.isLive a = true ∧ u.platform.config = s.platform.config ∧
    (∀ b g, s.platform.isCurrent b g = true → u.platform.isCurrent b g = true) ∧
    (∀ b, b ∈ u.platform.descendants a ↔ b ≠ a ∧ b ∈ (t.named code s.world).1.paths parent) ∧
    (t.children = [] → u.platform.descendants a = []) := by
  have hinv : u.platform.TableInv := by
    have hkeep := TableInv.upkeep (allocate_upkeep code parent t s ht) ht
    rwa [h] at hkeep
  obtain ⟨-, hreared⟩ := allocate_reared code parent t s ht
  obtain ⟨hhomely, -⟩ := hreared a (congrArg Prod.fst h)
  obtain ⟨-, hmake, hvacant⟩ := allocate_granted ht hs (congrArg Prod.fst h)
  obtain ⟨hroot, -⟩ := Address.of_make hmake
  obtain ⟨hplanted, -⟩ := allocate_attempt code parent t s ht hs
  rw [h] at hhomely hplanted
  obtain ⟨xs, hhead, hwithin, hplan, hfree, rfl⟩ := hplanted a rfl
  obtain ⟨hpaths, -⟩ := t.plan_paths code parent _ _ xs hplan
  obtain ⟨x, hx, rfl⟩ := Option.map_eq_some_iff.mp hhead
  have hbelow (b : Address) : b ∈ (s.plantAll code xs).platform.descendants x.address ↔
      b ≠ x.address ∧ b ∈ (t.named code s.world).1.paths parent := by
    rw [mem_descendants_iff hinv.placed, ← isLive_iff, isLive_plantAll, ← hpaths, List.mem_map]
    constructor
    · rintro ⟨hb | hb, hbelow⟩
      · refine ⟨?_, hb⟩
        rintro rfl
        exact Bool.false_ne_true ((Address.isBelow_irrefl _).symm.trans hbelow)
      · exact absurd hb (not_isLive_of_vacant ht hvacant hroot (Or.inr hbelow))
    · rintro ⟨hne, y, hy, rfl⟩
      exact ⟨Or.inl ⟨y, hy, rfl⟩, (hwithin y hy).resolve_left hne⟩
  refine ⟨isLive_plantAll.mpr (Or.inl ⟨x, List.mem_of_mem_head? hx, rfl⟩), ?_,
    fun b g hcur => ?_, hbelow, fun hchildless => ?_⟩
  · obtain ⟨_, _, _, _, heq, -⟩ := plantAll_eq code xs s
    rw [heq]
  · obtain ⟨c, hc, hg⟩ := isCurrent_iff.mp hcur
    exact isCurrent_iff.mpr ⟨c, hhomely b c hc, hg⟩
  · refine List.eq_nil_iff_forall_not_mem.mpr fun b hb => ?_
    rw [hbelow, paths_of_childless hchildless hmake, List.mem_singleton] at hb
    exact hb.1 hb.2

end Stage

namespace Moment

variable {m : Machine κ} {t : Template κ} {s : Stage κ}
  {k : Option (Value κ) × Machine κ → Flow κ α}

/-- **What the script leaves out.** An actor's code could spawn natively where it is about to run
the script. Both allocate the same, and fail with the same error and on the same stage: one answers
it, the other raises it. If they succeed, both start the new actor, on stages that only observers
can tell apart (`Stage.Alike`). Natively those below it are started afterwards, by script they are
not; that is the same only if the template has no children. And the address is always answered
natively; by script it is if the caller is still there when the new actor has been started. -/
theorem spawn_compared (h : Reach code (amid ((Flow.exec m (.spawn t)).bind k) s))
    (hroom : m.depth < m.maxFrames)
    (hcur : s.platform.isCurrent m.address m.generation = true) :
    let native : Flow κ (Except PlatformError Address × Machine κ) :=
      Flow.answer code m (.spawn t)
    let scripted : Flow κ (Option (Value κ) × Machine κ) := Flow.exec m (.spawn t)
    ∃ r u u', s.allocate code m.address t = (r, u) ∧
      (s.logged m.address [.pushTemplate 0, .alloc]).allocate code m.address t = (r, u') ∧
      u'.Alike u ∧ (s.platform.config.logOps = false → u' = u) ∧
      (∀ e, r = .error e → ∃ heap, ∀ n,
        perform (body code) n native s = some ((.error e, m), u) ∧
        perform (body code) (n + 2) scripted s =
          some ((none, { m with heap }), u'.edit (·.raiseAt m.address (.platform e)))) ∧
      ∀ a, r = .ok a →
        (∀ b, b ∈ u.platform.descendants a ↔
          b ≠ a ∧ b ∈ (t.named code s.world).1.paths m.address) ∧
        (t.children = [] → u.platform.descendants a = []) ∧
        ∃ heap, ∀ n,
          perform (body code) n native s =
            ((performCall (body code) n (.start a) u).bind fun x =>
              (perform (body code) n (startAll (u.platform.descendants a)) x.2).map fun y =>
                ((.ok a, m), y.2)) ∧
          perform (body code) (n + 4) scripted s =
            ((performCall (body code) n (.start a) (u'.logged m.address [.dup, .run])).map fun x =>
              ((if x.2.platform.isCurrent m.address m.generation then some (.str a.text)
                else none, { m with heap }), x.2)) ∧
          (s.platform.config.logOps = false → perform (body code) n native s =
            (perform (body code) (n + 4) scripted s).bind fun x =>
              (perform (body code) n (startAll (u.platform.descendants a)) x.2).map fun y =>
                ((.ok a, m), y.2)) := by
  intro native scripted
  have hheap : m.heap.Ok := heap_ok_of_meets h.ok.2 hroom
  have hi := h.ok.inv
  obtain ⟨bus, hbus⟩ := s.logged_eq m.address [.pushTemplate 0, .alloc]
  have hi' : (s.logged m.address [.pushTemplate 0, .alloc]).platform.Inv := by
    rw [hbus]
    exact hi.dealing (.bus bus)
  obtain ⟨hsame, halike⟩ :=
    (s.logged_alike m.address [.pushTemplate 0, .alloc]).allocate code m.address t
  cases hu : s.allocate code m.address t with
  | mk r u =>
  cases hu' : (s.logged m.address [.pushTemplate 0, .alloc]).allocate code m.address t with
  | mk r' u' =>
  rw [hu, hu'] at hsame halike
  obtain rfl : r' = r := hsame
  have hsilent (hlog : s.platform.config.logOps = false) : u' = u := by
    rw [Stage.logged_silent hlog, hu] at hu'
    exact (Prod.mk.inj hu').2.symm
  refine ⟨r', u, u', rfl, rfl, halike, hsilent, fun e he => ?_, fun a ha => ?_⟩
  · subst he
    obtain ⟨heap, hscript⟩ := perform_exec_spawn_error hheap hroom hcur hu'
    exact ⟨heap, fun n => ⟨perform_answer_spawn_error hu n, hscript n⟩⟩
  · subst ha
    obtain ⟨hlive, hconfig, -, hbelow, hchildless⟩ := Stage.living_of_allocate hi.table hi.neat hu
    obtain ⟨hlive', -, hstays, -⟩ := Stage.living_of_allocate hi'.table hi'.neat hu'
    obtain ⟨heap, hscript⟩ := perform_exec_spawn hheap hroom hcur hu' hlive'
      (hstays _ _ ((Stage.isCurrent_logged _ _).trans hcur))
    refine ⟨hbelow, hchildless, heap, fun n =>
      ⟨perform_answer_spawn hu hlive n, hscript n, fun hlog => ?_⟩⟩
    have hlogged : u.platform.config.logOps = false := by
      rw [hconfig]
      exact hlog
    refine (perform_answer_spawn hu hlive n).trans ?_
    rw [hscript n, hsilent hlog, Stage.logged_silent hlogged, Option.bind_map]
    rfl

end Moment

end

/-! ## A child that is not started -/

namespace Unstarted

open Replacement (parent child)

/-- An application whose actors note that they are started. -/
def app : App where
  Factory := Bool
  Actor := Bool
  Trap := Unit
  Foreign := Unit
  Task := Unit
  World := List String

/-- A child that has a child. -/
def family : Template app :=
  .mk (some "c") false [] none [] [.mk (some "g") false [] none [] []]

/-- Parents run the script that spawns the `family` when they are started (`Hook.run`); the others
note it. -/
def code : Code app where
  freshId w := ("fresh", w)
  build f _ w := (f, w)
  init _ w := (.direct, w)
  stop _ w := w
  judge _ _ w := (.ignore, w)
  hook
    | true, .run, _ => .ask (.exec (.spawn family)) fun _ => .done (.ok ())
    | false, .run, a => .look fun _ w => .put (List.append w [a.text]) (.done (.ok ()))
    | _, _, _ => .done (.ok ())
  foreign _ _ _ := .done (.ok .nil)
  poll _ w := (.ready (.ok none), w)

/-- The stage on which the parent is about to spawn the `family`. -/
def sample : Stage app :=
  (Stage.allocate code .root (.mk (some "p") true [] none [] []) (.new {} none [] [])).2.busy parent

/-- The parent's machine. -/
def machine : Machine app :=
  .new parent 1 defaultMaxFrames

theorem reach_sample : ∃ k : Option (Value app) × Machine app →
      Flow app (Except PlatformError Unit),
    Moment.Reach code (.amid ((Flow.exec machine (.spawn family)).bind k) sample) := by
  have hnew : Moment.Reach code (.between (.new {} none [] [])) := ⟨{}, none, [], [], .refl⟩
  have hallocated := hnew.perform 0 (.allocate .root (.mk (some "p") true [] none [] [])) rfl
  obtain ⟨k, hserved⟩ := hallocated.serving (a := parent) (m := machine) rfl rfl rfl rfl rfl
  exact ⟨_, bind_bind (Flow.exec machine (.spawn family)) _ k ▸ hserved⟩

/-- What there is to see of spawning the family: the address that is answered, what the bus is told
and whom of, and who noted being started. -/
structure Sight where
  answer : Option String
  events : List (EventKind × Option String)
  started : List String
  deriving DecidableEq

/-- What there is to see on a stage. -/
def sight (answer : Option String) (s : Stage app) : Sight where
  answer
  events := (sample.platform.bus.since s.platform.bus).map fun e =>
    (e.kind, e.address.map Address.text)
  started := s.world

/-- What there is to see of the native spawn (`Request.spawn`). -/
def native : Option Sight :=
  (perform (body code) 20 (Flow.answer code machine (.spawn family)) sample).map fun x =>
    sight (x.1.1.toOption.map Address.text) x.2

/-- What there is to see of the scripted spawn (`Script.spawn`). -/
def scripted : Option Sight :=
  (perform (body code) 20 (Flow.exec machine (.spawn family)) sample).map fun x =>
    sight (x.1.1.bind Value.asStr?) x.2

/-- **A child is not started** that was spawned by script below another: natively it is (`native`).
-/
theorem grandchild_not_started :
    (∃ k : Option (Value app) × Machine app → Flow app (Except PlatformError Unit),
      Moment.Reach code (.amid ((Flow.exec machine (.spawn family)).bind k) sample)) ∧
    machine.depth < machine.maxFrames ∧
    sample.platform.isCurrent machine.address machine.generation = true ∧
    sample.platform.config.logOps = false ∧
    native = some ⟨some "/p/c",
      [(.actorAllocated, some "/p/c"), (.actorAllocated, some "/p/c/g"),
        (.actorStarted, some "/p/c"), (.actorStarted, some "/p/c/g")], ["/p/c", "/p/c/g"]⟩ ∧
    scripted = some ⟨some "/p/c",
      [(.actorAllocated, some "/p/c"), (.actorAllocated, some "/p/c/g"),
        (.actorStarted, some "/p/c")], ["/p/c"]⟩ :=
  ⟨reach_sample, by decide, rfl, rfl, by decide +kernel, by decide +kernel⟩

/-- What the native spawn does more than the scripted one is to start the child's child. -/
theorem native_goes_on : ∃ u : Stage app,
    sample.allocate code parent family = (.ok child, u) ∧
    (u.platform.descendants child).map Address.text = ["/p/c/g"] ∧
    ∀ n, perform (body code) n (Flow.answer code machine (.spawn family)) sample =
      (perform (body code) (n + 4) (Flow.exec machine (.spawn family)) sample).bind fun x =>
        (perform (body code) n (startAll (u.platform.descendants child)) x.2).map fun y =>
          ((.ok child, machine), y.2) := by
  obtain ⟨k, hreach⟩ := reach_sample
  obtain ⟨r, u, _, hu, -, -, -, -, hspawned⟩ := Moment.spawn_compared hreach (by decide) rfl
  obtain rfl : r = .ok child := (congrArg Prod.fst hu).symm.trans rfl
  obtain ⟨-, -, heap, hruns⟩ := hspawned child rfl
  have hdescendants : ((Stage.allocate code parent family sample).2.platform.descendants
      child).map Address.text = ["/p/c/g"] := by decide +kernel
  rw [show Stage.allocate code parent family sample = (.ok child, u) from hu] at hdescendants
  exact ⟨u, hu, hdescendants, fun n => (hruns n).2.2 rfl⟩

end Unstarted

end Troupe
