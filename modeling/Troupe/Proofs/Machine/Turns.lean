import Troupe.Proofs.Machine.Frames

/-!
# From one turn of a script to the next

A script runs by turns: an instruction is carried out, a demand is met, or a frame ends, and the
script goes on. `Machine.Turned base m n` says that a script above frame number `base` that was at
`m` is at `n` a turn later. While a demand is met, other scripts may run on the machine, on top of
the frames that are there (`Machine.Entered`). Together these are all ways in which a script can go
on or others begin (`Machine.Onward`).

What a turn does is put together from what an instruction does (`step_atop`) and what the end of a
frame does (`leave_eq_caller`): `Turned.atop_or_left` says that it is one of the two.

Headlines:
* **`Onward.sound`**: machines stay sound (`Machine.Sound`).
* **`Onward.settled`**: a cell that stays occupied keeps its object.
* **`Turned.floor`**: what is below a frame stays until that frame ends; then its result has been
  pushed there (`Turned.back`).
* **`Turned.call`**: a call of a function takes it and its arguments from the caller's stack.
-/

namespace Troupe.Machine

variable {κ : App} {m m' m'' n : Machine κ} {base b : Nat}

/-! ## Turns -/

/-- A new script (`Frame.main`) has been put on the frames of the machine. -/
def Entered (m n : Machine κ) (b : Nat) : Prop :=
  ∃ m' script, m.SameFrames m' ∧ m'.pushFrame (.main script) = .ok n ∧ b = m'.depth

/-- A script above frame number `base` has gone on. -/
inductive Turned (base : Nat) (m : Machine κ) : Machine κ → Prop
  /-- An instruction that asks for nothing. -/
  | next {i : Instr} {m' n : Machine κ} :
      m.fetch = some (i, m') → i ≠ .ret → m'.step i = .ok (.next n) → Turned base m n
  /-- An instruction whose demand came to nothing that is pushed. -/
  | met {i : Instr} {d : Demand κ} {m' m'' n : Machine κ} :
      m.fetch = some (i, m') → m'.step i = .ok (.demand d m'') → m''.SameFrames n →
        Turned base m n
  /-- An instruction whose demand came to a value, which is pushed. -/
  | answered {i : Instr} {d : Demand κ} {v : Value κ} {m' m'' k n : Machine κ} :
      m.fetch = some (i, m') → m'.step i = .ok (.demand d m'') → m''.SameFrames k →
        k.pushValue v = .ok n → Turned base m n
  /-- The running frame has come to its end, and is not the last one. -/
  | ended : m.fetch = none → m.depth ≠ base + 1 → Turned base m (m.leave base).2
  /-- The running frame returns, and is not the last one. -/
  | returned {m' : Machine κ} : m.fetch = some (.ret, m') → m'.depth ≠ base + 1 →
      Turned base m (m'.leave base).2

/-- A script goes on (`Turned`), or another begins while a demand of it is met. -/
inductive Onward (base : Nat) (m : Machine κ) : Machine κ → Nat → Prop
  | turned {n : Machine κ} : Turned base m n → Onward base m n base
  | entered {i : Instr} {d : Demand κ} {m' m'' n : Machine κ} {b : Nat} : base < m.depth →
      m.fetch = some (i, m') → m'.step i = .ok (.demand d m'') → Entered m'' n b →
        Onward base m n b

/-! ## What a turn can do -/

theorem Entered.grown (h : Entered m n b) : Grown m n := by
  obtain ⟨m', script, hsame, hpush, -⟩ := h
  exact hsame.toGrown.trans (pushFrame_main hpush)

/-- What is entered from served machines (`SameFrames`) is entered from the machine that was served
first. -/
theorem Entered.of_same (h : m.SameFrames m') (he : Entered m' n b) : Entered m n b := by
  obtain ⟨k, script, hsame, hpush, hb⟩ := he
  exact ⟨k, script, h.trans hsame, hpush, hb⟩

theorem demand_atop {i : Instr} {d : Demand κ} (hf : m.fetch = some (i, m'))
    (hs : m'.step i = .ok (.demand d m'')) : Atop m m'' :=
  (fetch_atop hf).trans (step_atop (fetch_atop hf).ne_nil hs)

/-- A turn works on the running frame (`Atop`), or ends it. -/
theorem Turned.atop_or_left (h : Turned base m n) : Atop m n ∨ ∃ m', m'.depth ≠ base + 1 ∧
    (m' = m ∨ m.fetch = some (.ret, m')) ∧ n = (m'.leave base).2 := by
  cases h with
  | next hf _ hs => exact Or.inl ((fetch_atop hf).trans (step_atop (fetch_atop hf).ne_nil hs))
  | met hf hs hsame =>
    have hd := demand_atop hf hs
    exact Or.inl (hd.trans (hsame.atop hd.ne_nil))
  | answered hf hs hsame hpush =>
    have hd := demand_atop hf hs
    exact Or.inl ((hd.trans (hsame.atop hd.ne_nil)).trans (pushValue_atop hpush))
  | ended _ hb => exact Or.inr ⟨m, hb, Or.inl rfl, rfl⟩
  | @returned m' hf hb => exact Or.inr ⟨m', hb, Or.inr hf, rfl⟩

/-- Where a frame is left (`Machine.leave`), the machine is as it was, but for the position in the
code. -/
theorem grown_of_left (h : m' = m ∨ m.fetch = some (.ret, m')) : Grown m m' :=
  h.elim (fun h => h ▸ .refl m) fun h => (fetch_atop h).toGrown

/-- **Machines stay sound** (`Machine.Sound`). -/
theorem Onward.sound (h : Onward base m n b) (hm : m.Sound) : n.Sound := by
  cases h with
  | turned hturn =>
    rcases hturn.atop_or_left with hatop | ⟨m', -, hleft, rfl⟩
    · exact hatop.sound hm
    · exact ((grown_of_left hleft).sound hm).leave base
  | entered _ hf hs he => exact he.grown.sound ((demand_atop hf hs).sound hm)

/-- **A cell that stays occupied** keeps its object (`Heap.get?`). -/
theorem Onward.settled (h : Onward base m n b) (hm : m.Sound) {cell : Nat} {x y : HeapObject κ}
    (hx : m.heap.get? cell = some x) (hy : n.heap.get? cell = some y) : y = x := by
  have grown (k : Machine κ) (hk : Grown m k) (hy : k.heap.get? cell = some y) : y = x :=
    Option.some.inj (hy.symm.trans (hk.kept hm cell x hx))
  cases h with
  | turned hturn =>
    rcases hturn.atop_or_left with hatop | ⟨m', -, hleft, rfl⟩
    · exact grown n hatop.toGrown hy
    · exact grown m' (grown_of_left hleft) (get?_of_leave hy)
  | entered _ hf hs he => exact grown n ((demand_atop hf hs).toGrown.trans he.grown) hy

/-- Scripts that begin (`Entered`) are above the frames of the script whose demand is met. -/
theorem Onward.turned_of_base (h : Onward base m n base) : Turned base m n := by
  cases h with
  | turned hturn => exact hturn
  | entered hb hf hs he =>
    obtain ⟨m', script, hsame, -, hbase⟩ := he
    have hdepth := (demand_atop hf hs).depth_le
    rw [← hsame.depth_eq, ← hbase] at hdepth
    exact absurd hb (Nat.not_lt_of_le hdepth)

/-! ## Below a frame -/

theorem floor_of_left {k : Nat} (h : m' = m ∨ m.fetch = some (.ret, m')) (hk : k < m.depth) :
    k < m'.depth ∧ m'.floor k = m.floor k := by
  rcases h with rfl | hret
  · exact ⟨hk, rfl⟩
  · exact (fetch_atop hret).floor hk

/-- **What is below a frame** stays (`Machine.floor`), as long as there is a frame on it. -/
theorem Turned.floor {k : Nat} (h : Turned base m n) (hk : k < m.depth) (hn : k < n.depth) :
    n.floor k = m.floor k := by
  rcases h.atop_or_left with hatop | ⟨m', hb, hleft, rfl⟩
  · exact (hatop.floor hk).2
  · have hm' := floor_of_left hleft hk
    rcases Nat.eq_or_lt_of_le hm'.1 with hlast | hmore
    · exact absurd hn (by rw [leave_depth hlast.symm hb]; exact Nat.lt_irrefl k)
    · exact (leave_floor hmore hb).2.trans hm'.2

/-- **A frame ends**: its result has been pushed where it was called (`Machine.leave`). Its caller
may own more, and nothing else has changed there. -/
theorem Turned.back {top caller : Frame κ} {below : List (Frame κ)} (h : Turned base m n)
    (hm : m.frames = top :: caller :: below) (hn : n.depth < m.depth) :
    ∃ taken, n.frames = { caller with owned := taken }.push top.result :: below ∧
      ∀ c ∈ caller.owned, c ∈ taken := by
  have leave {m' : Machine κ} {top' : Frame κ} (hm' : m'.frames = top' :: caller :: below)
      (htop : top'.result = top.result) (hb : m'.depth ≠ base + 1) :
      ∃ taken, (m'.leave base).2.frames = { caller with owned := taken }.push top.result :: below ∧
        ∀ c ∈ caller.owned, c ∈ taken := by
    unfold depth at hb
    rw [hm', List.length_cons, List.length_cons] at hb
    obtain ⟨kept, taken, heq, -, hsub, -⟩ := top'.handOver_eq caller
    rw [leave_eq_caller hm' fun h => hb (congrArg Nat.succ h), heq, htop]
    exact ⟨taken, rfl, hsub⟩
  rcases h.atop_or_left with hatop | ⟨m', hb, rfl | hret, rfl⟩
  · exact absurd hatop.depth_le (Nat.not_le_of_lt hn)
  · exact leave hm rfl hb
  · obtain ⟨top', rest, hm', -, rfl⟩ := fetch_inv hret
    obtain ⟨rfl, rfl⟩ := List.cons.inj (hm'.symm.trans hm)
    exact leave rfl rfl hb

/-! ## Calls of functions -/

section Call

variable {f : Frame κ} {rest : List (Frame κ)} {argc index : Nat} {args below : List Datum}
  {info : FunInfo κ} {instrs : List Instr}

/-- Operands that were pushed in order are popped in order (`Frame.popMany`). -/
theorem popMany_reverse (hs : f.stack = args.reverse ++ below) (ha : args.length = argc)
    (op : String) : f.popMany argc op = .ok (args, { f with stack := below }) := by
  have hlen : args.reverse.length = argc := by rw [List.length_reverse, ha]
  unfold Frame.popMany
  rw [hs, if_neg (by rw [List.length_append, hlen]; omega), ← hlen, List.take_left,
    List.drop_left, List.reverse_reverse]

/-- A call of a function that is code (`Machine.call`) starts it on its arguments, or fails. -/
theorem call_code_inv {r : StepResult κ} (hm : m.frames = f :: rest)
    (hs : f.stack = .fn index :: (args.reverse ++ below)) (ha : args.length = argc)
    (hinfo : f.script.functions[index]? = some info) (hcode : info.body = .code instrs)
    (h : m.call argc = .ok r) : ∃ n, r = .next n ∧
      n.frames = .call f.script info.name index args :: { f with stack := below } :: rest := by
  have hpop : m.pop "call" = .ok (.fn index,
      { m with frames := { f with stack := args.reverse ++ below } :: rest }) := by
    unfold pop onTop Frame.pop
    rw [hm]
    dsimp only
    rw [hs]
  have hargs : onTop { m with frames := { f with stack := args.reverse ++ below } :: rest }
      (fun f => f.popMany argc "call") =
        .ok (args, { m with frames := { f with stack := below } :: rest }) := by
    unfold onTop
    dsimp only
    rw [popMany_reverse rfl ha]
  have hconstant : constant { m with frames := { f with stack := below } :: rest } "function" index
      Script.functions = .ok info := by
    unfold constant
    dsimp only [List.head?_cons, Option.bind_some]
    rw [hinfo]
  unfold call at h
  obtain ⟨_, hd, h⟩ := except_bind_inv h
  obtain rfl := Except.ok.inj (hpop.symm.trans hd)
  obtain ⟨_, hd, h⟩ := except_bind_inv h
  obtain rfl := Except.ok.inj (hargs.symm.trans hd)
  obtain ⟨_, hd, h⟩ := except_bind_inv h
  obtain rfl := Except.ok.inj (hconstant.symm.trans hd)
  split at h
  · exact absurd h (by simp)
  · rw [hcode] at h
    obtain ⟨n, hpush, h⟩ := except_bind_inv h
    exact ⟨n, (Except.ok.inj h).symm, (pushFrame_frames hpush).2⟩

/-- **A call of a function** (`Machine.call`) takes it and its arguments from the caller's stack. -/
theorem Turned.call (h : Turned base m n) (hm : m.frames = f :: rest)
    (hf : f.fetch = some (.call argc)) (hs : f.stack = .fn index :: (args.reverse ++ below))
    (ha : args.length = argc) (hinfo : f.script.functions[index]? = some info)
    (hcode : info.body = .code instrs) : n.frames =
      .call f.script info.name index args :: { f with ip := f.ip + 1, stack := below } :: rest := by
  have hfetch : m.fetch =
      some (.call argc, { m with frames := { f with ip := f.ip + 1 } :: rest }) := by
    unfold fetch
    rw [hm]
    dsimp only
    rw [hf]
  have step {r : StepResult κ}
      (hr : step { m with frames := { f with ip := f.ip + 1 } :: rest } (.call argc) = .ok r) :=
    call_code_inv (m := { m with frames := { f with ip := f.ip + 1 } :: rest }) rfl hs ha hinfo
      hcode (except_lift_inv hr)
  cases h with
  | next hf' _ hstep =>
    obtain ⟨rfl, rfl⟩ := Prod.mk.inj (Option.some.inj (hfetch.symm.trans hf'))
    obtain ⟨n', hn, hframes⟩ := step hstep
    exact StepResult.next.inj hn ▸ hframes
  | met hf' hstep | answered hf' hstep =>
    obtain ⟨rfl, rfl⟩ := Prod.mk.inj (Option.some.inj (hfetch.symm.trans hf'))
    obtain ⟨n', hn, -⟩ := step hstep
    exact absurd hn (by simp)
  | ended hf' => exact absurd (hfetch.symm.trans hf') (by simp)
  | returned hf' => exact absurd (hfetch.symm.trans hf') (by simp)

end Call

end Troupe.Machine
