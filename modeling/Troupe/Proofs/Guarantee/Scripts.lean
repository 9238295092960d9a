import Troupe.Proofs.Flow.Calls
import Troupe.Proofs.Moments

/-!
# What scripts may rely on

Scripts share the frames and the heap of their machine (`Machine.frames`, `Machine.heap`) with those
that they interrupt. At every turn the machine is sound (`Machine.Sound`), so references lead to
objects, and to the same ones for as long as they are there. A turn of the source's `exec` loop
leads from one `Point` to the next (`Point.Turns`), and what code of an application does in between,
which may run scripts on the same machine, is many such turns (`Point.Follows`).

A script that has ended leaves the machine as it found it (`Machine.Intact`), however it ended and
whatever it ran in between; and on the way a function that returns leaves its caller one result in
place of the function and its arguments (`Point.Calling`, `Point.Waiting`), as `Instr::Call` and
`Instr::Ret` have it.

Headlines:
* **`Point.heap_safe`**: references, owners and contents of the heap at every point.
* **`Moment.exec_disciplined`**: frames, cells and results, from the beginning of a script to its
  end.
-/

namespace Troupe

open Platform Troupe.Flow

variable {κ : App} {code : Code κ}

/-! ## Points that are reached -/

namespace Machine

variable {m : Machine κ} {cell : Nat}

/-- A frame of the machine refers to the cell (`Frame.Refers`). -/
def Mentions (m : Machine κ) (cell : Nat) : Prop :=
  ∃ f ∈ m.frames, f.Refers cell

theorem owned_of_suffix {f : Frame κ} {below : List (Frame κ)} (h : f :: below <:+ m.frames)
    (hc : cell ∈ ownedCells (f :: below)) : cell ∈ ownedCells m.frames := by
  obtain ⟨tops, htops⟩ := h
  rw [← htops, ownedCells_append]
  exact List.mem_append_right _ hc

theorem Sound.refers (h : m.Sound) {f : Frame κ} {below : List (Frame κ)}
    (hf : f :: below <:+ m.frames) (hc : f.Refers cell) : cell ∈ ownedCells (f :: below) ∧
      ∃ o, m.heap.get? cell = some o ∧ m.resolve (.ref cell) = o.value := by
  have howned := h.grounded f below hf cell hc
  obtain ⟨o, ho⟩ := h.holds (owned_of_suffix hf howned)
  exact ⟨howned, o, ho, congrArg (fun o => (o.map HeapObject.value).getD .nil) ho⟩

theorem resolve_ref {n : Machine κ} (h : n.heap.get? cell = m.heap.get? cell) :
    n.resolve (.ref cell) = m.resolve (.ref cell) :=
  congrArg (fun o => (o.map HeapObject.value).getD .nil) h

/-- What is mentioned (`Machine.Mentions`) is there. -/
theorem Sound.mentioned (h : m.Sound) (hc : m.Mentions cell) : ∃ o, m.heap.get? cell = some o := by
  obtain ⟨f, hf, hr⟩ := hc
  obtain ⟨tops, below, hm⟩ := List.append_of_mem hf
  obtain ⟨-, o, ho, -⟩ := h.refers ⟨tops, hm.symm⟩ hr
  exact ⟨o, ho⟩

/-- **A new object** (`Machine.pushObject`) gets a cell that nobody mentions, and the reference to
it leads there. -/
theorem Sound.pushObject {n : Machine κ} {o : HeapObject κ} (h : m.Sound)
    (hp : m.pushObject o = .ok n) : ∃ cell top rest, m.heap.get? cell = none ∧ ¬ m.Mentions cell ∧
      n.frames = top :: rest ∧ top.stack.head? = some (.ref cell) ∧
        n.heap.get? cell = some o := by
  obtain ⟨hempty, hget⟩ := h.heap.get?_alloc o
  obtain ⟨top, rest, -, rfl⟩ := withTop_inv hp
  refine ⟨_, _, _, hempty, fun hc => ?_, rfl, rfl, (hget _).trans (if_pos rfl)⟩
  obtain ⟨o', ho'⟩ := h.mentioned hc
  exact absurd (hempty.symm.trans ho') (by simp)

end Machine

namespace Point

variable {x y z : Point κ}

/-- A platform can come to where the script is (`Moment.Reach`). -/
def Reached (code : Code κ) (x : Point κ) : Prop :=
  ∃ (α : Type) (next : x.rest.Answer → Flow κ α),
    Moment.Reach code (.amid (.call x.rest next) x.stage)

theorem Reached.ok (h : x.Reached code) : x.stage.platform.Inv ∧ x.machine.Sound := by
  obtain ⟨α, next, hreach⟩ := h
  obtain ⟨hi, hneeds, -⟩ := hreach.ok
  exact ⟨hi, hneeds⟩

theorem Reached.onward (h : x.Reached code) (hy : x.Follows code y) :
    Machine.Onward x.base x.machine y.machine y.base :=
  (hy.onward h.ok.1 h.ok.2).2

/-- Where a script is next (`Point.Follows`) is reached, too. -/
theorem Reached.follows (h : x.Reached code) (hy : x.Follows code y) : y.Reached code := by
  obtain ⟨α, next, hreach⟩ := h
  obtain ⟨after, hadvances⟩ := hy.advances
  exact ⟨α, fun a => (after a).bind next,
    hreach.later (.head (.advance .call) (Moment.Later.advances (hadvances.bind next)))⟩

/-- A turn of the same script (`Point.Follows`). -/
def Turns (code : Code κ) (x y : Point κ) : Prop :=
  x.Follows code y ∧ y.base = x.base

theorem Reached.turned (h : x.Reached code) (hy : x.Turns code y) :
    Machine.Turned x.base x.machine y.machine :=
  (hy.2 ▸ h.onward hy.1).turned_of_base

/-- A cell that is there before and after a turn (`Point.Follows`) holds the same object. -/
theorem Reached.settled (h : x.Reached code) (hy : x.Follows code y) {cell : Nat}
    {o o' : HeapObject κ} (ho : x.machine.heap.get? cell = some o)
    (ho' : y.machine.heap.get? cell = some o') : o' = o :=
  (h.onward hy).settled h.ok.2 ho ho'

/-! ## The heap -/

/-- **The heap is safe** wherever a script is (`Point.Reached`). Its frames own each occupied cell,
once; whatever a frame refers to is owned by it or by a frame below it, and resolves to an object.
As long as a cell is mentioned, from turn to turn and in scripts that are run in between, it holds
the same object. The cell of a new object was empty, and nobody mentioned it. -/
theorem heap_safe (h : x.Reached code) :
    ((ownedCells x.machine.frames).Nodup ∧
      ∀ cell, cell ∈ ownedCells x.machine.frames ↔ (x.machine.heap.get? cell).isSome) ∧
    (∀ f below, f :: below <:+ x.machine.frames → ∀ cell, f.Refers cell →
      cell ∈ ownedCells (f :: below) ∧
        ∃ o, x.machine.heap.get? cell = some o ∧ x.machine.resolve (.ref cell) = o.value) ∧
    (∀ cell o, x.machine.heap.get? cell = some o → ∀ y, Relation.ReflTransGen
      (fun y z => y.Follows code z ∧ z.machine.Mentions cell) x y →
        y.machine.heap.get? cell = some o) ∧
    (∀ m o n, x.machine.Grown m → m.pushObject o = .ok n → ∃ cell top rest,
      m.heap.get? cell = none ∧ ¬ m.Mentions cell ∧ n.frames = top :: rest ∧
        top.stack.head? = some (.ref cell) ∧ n.heap.get? cell = some o) := by
  have hs := h.ok.2
  refine ⟨⟨hs.nodup, hs.live⟩, fun f below hf cell => hs.refers hf, fun cell o ho y hy => ?_,
    fun m o n hm => (hm.sound hs).pushObject⟩
  have hkept : y.Reached code ∧ y.machine.heap.get? cell = some o := by
    induction hy with
    | refl => exact ⟨h, ho⟩
    | tail _ hstep ih =>
      obtain ⟨hy, hkept⟩ := ih
      have hz := hy.follows hstep.1
      obtain ⟨o', ho'⟩ := hz.ok.2.mentioned hstep.2
      exact ⟨hz, hy.settled hstep.1 hkept ho' ▸ ho'⟩
  exact hkept.2

/-- A function has been called with a reference to a cell that its caller owns. -/
theorem heap_called : ∃ x : Point App.sample, x.Reached Code.sample ∧ x.machine.heap.live = 1 ∧
    ∃ f below, f :: below <:+ x.machine.frames ∧ f.Refers 0 ∧ f.owned = [] ∧
      0 ∈ ownedCells (f :: below) := by
  have hspawned := Moment.reach_sample.perform 8 (.spawn .sample) rfl
  have hrun := hspawned.perform 8 .run rfl
  have hbegun : Reached Code.sample ⟨_, _, _⟩ :=
    ⟨_, _, hrun.later (.head (.begin (.eval .sample .sample))
      (Moment.Later.advances (.head .get (.head .get (.head .set .refl)))))⟩
  have hmessage := hbegun.follows (y := ⟨_, _, _⟩) (.get .here)
  have hfunction := hmessage.follows (y := ⟨_, _, _⟩) (.get .here)
  have hcalled := hfunction.follows (y := ⟨_, _, _⟩) (.get .here)
  have hsafe := (heap_safe hcalled).2.1 _ _ (List.suffix_refl _) 0 (Or.inr (by decide))
  exact ⟨_, hcalled, rfl, _, _, List.suffix_refl _, Or.inr (by decide), rfl, hsafe.1⟩

/-! ## Calls of functions -/

section Call

variable {f : Frame κ} {rest : List (Frame κ)} {argc index : Nat} {args below : List Datum}
  {info : FunInfo κ} {instrs : List Instr}

/-- A function that was called at `x` is running at `y`. -/
def Calling (code : Code κ) (x y : Point κ) : Prop :=
  Relation.ReflTransGen (fun y z => y.Turns code z ∧ x.machine.depth < z.machine.depth) x y

/-- What a caller looks like while a function that it called is running (`Machine.call`). -/
structure Waiting (x : Point κ) (caller : Frame κ) (rest : List (Frame κ)) (y : Point κ) :
    Prop where
  depth : x.machine.depth < y.machine.depth
  floor : y.machine.floor x.machine.depth = caller :: rest
  kept : ∀ cell ∈ ownedCells (caller :: rest),
    y.machine.heap.get? cell = x.machine.heap.get? cell

/-- What is owned on both sides of a turn keeps its object (`ownedCells`). -/
theorem Reached.same (h : x.Reached code) (hy : x.Follows code y) {cell : Nat}
    (hx : cell ∈ ownedCells x.machine.frames) (hc : cell ∈ ownedCells y.machine.frames) :
    y.machine.heap.get? cell = x.machine.heap.get? cell := by
  obtain ⟨o, ho⟩ := h.ok.2.holds hx
  obtain ⟨o', ho'⟩ := (h.follows hy).ok.2.holds hc
  rw [ho, ho', h.settled hy ho ho']

theorem Reached.waits (h : x.Reached code) (hm : x.machine.frames = f :: rest)
    (hf : f.fetch = some (.call argc)) (hs : f.stack = .fn index :: (args.reverse ++ below))
    (ha : args.length = argc) (hinfo : f.script.functions[index]? = some info)
    (hcode : info.body = .code instrs) (hy : Calling code x y) :
    y.Reached code ∧
      (y = x ∨ Waiting x { f with ip := f.ip + 1, stack := below } rest y) := by
  induction hy with
  | refl => exact ⟨h, Or.inl rfl⟩
  | @tail y z _ hstep ih =>
    obtain ⟨hy, hwaits⟩ := ih
    obtain ⟨hturn, hdepth⟩ := hstep
    refine ⟨hy.follows hturn.1, Or.inr ?_⟩
    rcases hwaits with rfl | hwaits
    · have hframes := (hy.turned hturn).call hm hf hs ha hinfo hcode
      have hlen : y.machine.depth = rest.length + 1 := congrArg List.length hm
      refine ⟨hdepth, ?_, fun cell hc => ?_⟩
      · unfold Machine.floor Machine.depth
        rw [hframes, hm]
        exact (Machine.drop_append_floor [_] (Nat.le_refl _)).trans (by simp)
      · refine hy.same hturn.1 (hm ▸ hc) ?_
        rw [hframes]
        exact hc
    · have hfloor := ((hy.turned hturn).floor hwaits.depth hdepth).trans hwaits.floor
      refine ⟨hdepth, hfloor, fun cell hc => ?_⟩
      have hy' : cell ∈ ownedCells y.machine.frames := Machine.owned_of_floor (hwaits.floor ▸ hc)
      have hz' : cell ∈ ownedCells z.machine.frames := Machine.owned_of_floor (hfloor ▸ hc)
      exact (hy.same hturn.1 hy' hz').trans (hwaits.kept cell hc)

/-- **A function that returns** (`Point.Calling`) has its result pushed in place of the function and
its arguments. Nothing else has changed for its caller or below it; the result and whatever was
owned there resolve as before. -/
theorem Reached.called (h : x.Reached code) (hm : x.machine.frames = f :: rest)
    (hf : f.fetch = some (.call argc)) (hs : f.stack = .fn index :: (args.reverse ++ below))
    (ha : args.length = argc) (hinfo : f.script.functions[index]? = some info)
    (hcode : info.body = .code instrs) (hy : Calling code x y) (hz : y.Turns code z)
    (hd : z.machine.depth ≤ x.machine.depth) : ∃ callee frames owned,
      y.machine.frames = callee :: frames ∧
      z.machine.frames =
        { f with ip := f.ip + 1, stack := callee.result :: below, owned } :: rest ∧
      z.machine.resolve callee.result = y.machine.resolve callee.result ∧
      ∀ cell ∈ ownedCells x.machine.frames,
        z.machine.heap.get? cell = x.machine.heap.get? cell := by
  obtain ⟨hy, rfl | hwaits⟩ := h.waits hm hf hs ha hinfo hcode hy
  · -- the call itself starts a frame
    have hframes := (h.turned hz).call hm hf hs ha hinfo hcode
    have hdepth : z.machine.depth = rest.length + 2 := congrArg List.length hframes
    rw [hdepth, show y.machine.depth = rest.length + 1 from congrArg List.length hm] at hd
    exact absurd hd (by simp)
  · obtain ⟨callee, caller, frames, hframes⟩ : ∃ callee caller frames,
        y.machine.frames = callee :: caller :: frames := by
      have hpos : 0 < x.machine.depth := List.length_pos_of_ne_nil (hm ▸ List.cons_ne_nil f rest)
      have hlong : 2 ≤ y.machine.frames.length := Nat.lt_of_le_of_lt hpos hwaits.depth
      match y.machine.frames, hlong with
      | callee :: caller :: frames, _ => exact ⟨callee, caller, frames, rfl⟩
    have hy₁ : y.machine.depth = frames.length + 2 := congrArg List.length hframes
    have hx₁ : x.machine.depth = rest.length + 1 := congrArg List.length hm
    have hdeeper := hwaits.depth
    have hdown : z.machine.depth < y.machine.depth := Nat.lt_of_le_of_lt hd hwaits.depth
    obtain ⟨owned, hback, hmore⟩ := (hy.turned hz).back hframes hdown
    have hz₁ : z.machine.depth = frames.length + 1 := congrArg List.length hback
    have hcaller : caller :: frames = { f with ip := f.ip + 1, stack := below } :: rest := by
      have hlast : y.machine.depth - x.machine.depth = 1 := by omega
      have hfloor := hwaits.floor
      unfold Machine.floor at hfloor
      rwa [hlast, hframes] at hfloor
    obtain ⟨rfl, rfl⟩ := List.cons.inj hcaller
    refine ⟨callee, _, owned, hframes, hback, ?_, fun cell hc => ?_⟩
    · cases hresult : callee.result with
      | nil | int | fn => rfl
      | ref cell =>
        obtain ⟨o, ho⟩ := hy.ok.2.mentioned
          ⟨callee, hframes ▸ List.mem_cons_self, Frame.refers_of_result hresult⟩
        have hpushed : z.machine.Mentions cell := by
          refine ⟨_, hback ▸ List.mem_cons_self, Or.inl ?_⟩
          exact List.mem_cons.mpr (Or.inl hresult.symm)
        obtain ⟨o', ho'⟩ := (hy.follows hz.1).ok.2.mentioned hpushed
        exact Machine.resolve_ref (ho'.trans (hy.settled hz.1 ho ho' ▸ ho.symm))
    · rw [hm] at hc
      have hx : cell ∈ ownedCells ({ f with ip := f.ip + 1, stack := below } :: frames) := hc
      have hy' : cell ∈ ownedCells y.machine.frames := by
        rw [hframes, ownedCells_cons]
        exact List.mem_append_right _ hx
      have hz' : cell ∈ ownedCells z.machine.frames := by
        rw [hback]
        rw [ownedCells_cons, List.mem_append] at hx ⊢
        exact hx.imp_left (hmore cell)
      exact (hy.same hz.1 hy' hz').trans (hwaits.kept cell hx)

end Call

end Point

/-! ## Scripts that end -/

namespace Machine

/-- The machine that comes back from a script is as it was (`Machine.Kin`), but for what is empty on
its heap. -/
structure Intact (m n : Machine κ) : Prop extends Kin m n where
  frames : n.frames = m.frames
  kept : ∀ cell ∈ ownedCells m.frames, n.heap.get? cell = m.heap.get? cell
  live : n.heap.live = m.heap.live

theorem Intact.refl (m : Machine κ) : Intact m m := ⟨.refl m, rfl, fun _ _ => rfl, rfl⟩

theorem SameFrames.intact {m n : Machine κ} (h : m.SameFrames n) (hm : m.Sound) :
    m.Intact n := by
  refine ⟨h.toKin, h.frames, fun cell hc => ?_, ?_⟩
  · obtain ⟨o, ho⟩ := hm.holds hc
    rw [ho]
    exact h.kept hm cell o ho
  · rw [hm.live_eq, (h.sound hm).live_eq, h.frames]

/-- Under a script that begins (`Frame.main`), the machine is sound. -/
theorem Sound.of_main {m n : Machine κ} {script : Script κ}
    (hp : m.pushFrame (.main script) = .ok n) (h : n.Sound) : m.Sound := by
  obtain ⟨-, rfl⟩ := pushFrame_inv hp
  exact h.shed (show _ = [Frame.main script] ++ m.frames from rfl)

end Machine

theorem exec_intact {m : Machine κ} {script : Script κ} {s : Stage κ}
    (h : ∀ n, m.pushFrame (.main script) = .ok n → n.Sound) :
    Tidy OnSound Event.Any (exec m script) (fun x _ => m.Intact x.2) s := by
  cases hp : m.pushFrame (.main script) with
  | error e =>
    unfold exec
    rw [hp]
    exact .bind (.step (.raise _ _)) fun _ _ _ _ => .pure (.refl m)
  | ok n =>
    have hm : m.Sound := .of_main hp (h n hp)
    exact ((exec_tidy m script s).mono fun _ _ _ hx => hx.intact hm).relax fun _ _ he =>
      he.grown.sound hm

namespace Moment

variable {α : Type} {m : Machine κ} {script : Script κ} {s : Stage κ}
  {k : Option (Value κ) × Machine κ → Flow κ α}

/-- **Scripts are disciplined.** When a script has ended, in whichever way and whatever it ran in
between, its machine has the frames it had before, they own what they owned, and as many cells are
occupied. While it runs, the frames stay within their limit (`Machine.depth`), also in what it runs
in between. And when a function that is code is called and returns, its result stands on the
caller's stack in place of the function and its arguments; the rest of the caller is unchanged, but
for the result's cell that it may own now, and so are the frames below it. -/
theorem exec_disciplined (h : Reach code (amid ((exec m script).bind k) s)) :
    (∀ v n t, Advances (body code) (exec m script, s) (.done (v, n), t) →
      n.frames = m.frames ∧
      (∀ cell ∈ ownedCells m.frames, n.heap.get? cell = m.heap.get? cell) ∧
      n.heap.live = m.heap.live) ∧
    ∀ (x : Point κ) next, Advances (body code) (exec m script, s) (.call x.rest next, x.stage) →
      x.machine.depth ≤ x.machine.maxFrames ∧
      ∀ (f : Frame κ) rest argc index (args below : List Datum) info instrs,
        x.machine.frames = f :: rest → f.fetch = some (.call argc) →
        f.stack = .fn index :: (args.reverse ++ below) → args.length = argc →
        f.script.functions[index]? = some info → info.body = .code instrs →
        ∀ y z : Point κ, x.Calling code y → y.Turns code z →
          z.machine.depth ≤ x.machine.depth → ∃ callee frames owned,
            y.machine.frames = callee :: frames ∧
            z.machine.frames =
              { f with ip := f.ip + 1, stack := callee.result :: below, owned } :: rest ∧
            z.machine.resolve callee.result = y.machine.resolve callee.result ∧
            ∀ cell ∈ ownedCells x.machine.frames,
              z.machine.heap.get? cell = x.machine.heap.get? cell := by
  obtain ⟨hi, hmeets⟩ := h.ok
  constructor
  · intro v n t hends
    have hsound (n : Machine κ) (hp : m.pushFrame (.main script) = .ok n) : n.Sound := by
      unfold exec at hmeets
      rw [hp] at hmeets
      exact hmeets.1
    have hexec : Meets (discipline Event.Any) (WithinOuter Event.Any) (exec m script)
        (fun x t => Clean Event.Any s.platform t.platform ∧ m.Intact x.2) s :=
      outer_of_rounds ((exec_intact hsound).rounds hi)
    obtain ⟨-, -, -, hintact⟩ := hends.meets (R := WithinOuter Event.Any)
      (honours_discipline code.publishes_any) (fun _ => Outer.refl _) (fun _ _ _ => Outer.trans)
      (fun _ _ => Inv.outer) (fun _ _ _ => withinOuter_of_moves) hi hexec
    exact ⟨hintact.frames, hintact.kept, hintact.live⟩
  · intro x next hx
    have hreached : x.Reached code :=
      ⟨_, fun a => (next a).bind k, h.later (Later.advances (hx.bind k))⟩
    exact ⟨hreached.ok.2.depth, fun f rest argc index args below info instrs hm hf hs ha hinfo hcode
      y z => hreached.called hm hf hs ha hinfo hcode⟩

/-- A script has ended; in between, a function was called with a reference and returned it
(`Point.Calling`). -/
theorem exec_called : ∃ (x y z : Point App.sample) (n : Machine App.sample),
    n.frames = [] ∧ n.heap.live = 0 ∧ x.machine.depth ≤ x.machine.maxFrames ∧
      ∃ (callee f : Frame App.sample) (frames : List (Frame App.sample)) (owned : List Nat),
        x.machine.frames = [f] ∧ f.stack = [.fn 0, .ref 0] ∧ y.machine.frames = callee :: frames ∧
        z.machine.frames = [{ f with ip := f.ip + 1, stack := [callee.result], owned }] := by
  have hspawned := reach_sample.perform 8 (.spawn .sample) rfl
  have hrun := hspawned.perform 8 .run rfl
  have hexec : Reach Code.sample
      (amid ((exec (Machine.new .sample 1 defaultMaxFrames) .sample).bind _) _) :=
    hrun.later (.head (.begin (.eval .sample .sample))
      (Later.advances (.head .get (.head .get (.head .set .refl)))))
  obtain ⟨hend, hwithin⟩ := exec_disciplined hexec
  obtain ⟨hframes, -, hlive⟩ := hend _ _ _ (perform_advances (n := 8) rfl)
  obtain ⟨hdepth, hcall⟩ := hwithin ⟨_, _, _⟩ _
    (.head .call (.head .get (.head .call (.head .get .refl))))
  have hcalled := fun z => hcall _ _ 1 0 [.ref 0] [] _ _ rfl rfl rfl rfl rfl rfl ⟨_, _, _⟩ z
    (.head (b := ⟨_, _, _⟩) ⟨⟨.get .here, rfl⟩, by decide⟩
      (.single ⟨⟨.get .here, rfl⟩, by decide⟩))
  obtain ⟨callee, frames, owned, hy, hz, -⟩ := hcalled ⟨_, _, _⟩ ⟨.get .here, rfl⟩ (by decide)
  exact ⟨_, _, _, _, hframes, hlive, hdepth, callee, _, frames, owned, rfl, rfl, hy, hz⟩

end Moment

end Troupe
