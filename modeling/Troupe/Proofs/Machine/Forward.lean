import Mathlib.Algebra.Ring.Nat
import Troupe.Proofs.Machine.Turns

/-!
# Code that goes forward

A script that only jumps forward runs each line of a frame once at most (`Frame.left` counts those
that are left). Calls of functions could keep it going, but the number of frames is limited. So what
is left to do can be measured (`Frame.toil`, `Machine.toil`): a frame counts the lines that are left
in it, and each of them weighs more than all lines of a frame on top of it, since it may be a call
that puts that frame there (`toil_line`, `toil_call`, `toil_back`).

Besides, no demand of such a script lets other code run (`Script.Forward`): its functions are not
foreign (`Script.Native`), and it neither sends nor starts anybody nor reads its mailbox
(`Instr.rouses`, `Demand.rouses`).

`Machine.Forth` says that a machine runs such a script above frame number `base`, and
`Machine.Onwards` what an instruction may do to it (`step_onwards`).

Headlines:
* **`Machine.Forth.step`**: an instruction takes from the toil.
* **`Machine.Forth.leave`**: so does a frame that ends.
-/

namespace Troupe

variable {κ : App}

/-! ## Scripts -/

/-- The line to which an instruction may jump (`Instr.jump` and its kin). -/
def Instr.target? : Instr → Option Nat
  | jump target | jumpIfZero target | jumpIfOne target => some target
  | _ => none

/-- Whether an instruction may let actors act (`Demand.rouses`): it sends a message, starts somebody
or reads the mailbox. -/
def Instr.rouses : Instr → Bool
  | send | run | read => true
  | _ => false

/-- Whether other code may run while a demand is met (`Flow.meet`). -/
def Demand.rouses : Demand κ → Bool
  | start _ | send _ _ | read | foreign _ _ => true
  | _ => false

namespace Script

/-- The code of a script and of its functions (`FunInfo.body`). -/
def blocks (script : Script κ) : List (List Instr) :=
  script.code :: script.functions.filterMap fun f =>
    match f.body with
    | .code is => some is
    | .foreign _ => none

/-- The number of lines, those of functions included (`Script.blocks`). -/
def lines (script : Script κ) : Nat :=
  script.blocks.flatten.length

/-- The function of this number, if there is one, is not foreign (`FunInfo.body`). -/
def Native (script : Script κ) (k : Nat) : Prop :=
  ∀ f, script.functions[k]? = some f → ∃ is, f.body = .code is

/-- The script goes forward and minds its own business: every jump leads further down
(`Instr.target?`), no function that it uses is foreign, and no instruction lets actors act. -/
structure Forward (script : Script κ) : Prop where
  down : ∀ is ∈ script.blocks, ∀ (ip : Nat) (i : Instr) (target : Nat), is[ip]? = some i →
    i.target? = some target → ip < target
  native : ∀ is ∈ script.blocks, ∀ k, .pushFun k ∈ is → script.Native k
  alone : ∀ is ∈ script.blocks, ∀ i ∈ is, i.rouses = false

end Script

/-! ## Frames -/

namespace Frame

variable {script : Script κ} {f g h : Frame κ}

/-- The code that a frame runs (`Frame.code`). -/
def block (f : Frame κ) : List Instr :=
  match f.code with
  | .main => f.script.code
  | .fn k =>
    match f.script.functions[k]? with
    | some ⟨_, _, .code is⟩ => is
    | _ => []

theorem fetch_eq (f : Frame κ) : f.fetch = f.block[f.ip]? := by
  unfold fetch block
  cases f.code with
  | main => rfl
  | fn k =>
    dsimp only
    rcases f.script.functions[k]? with _ | ⟨_, _, _ | _⟩ <;> rfl

/-- A frame runs code of its script (`Script.blocks`), or none. -/
theorem block_mem (f : Frame κ) : f.block ∈ f.script.blocks ∨ f.block = [] := by
  unfold block Script.blocks
  split
  · exact Or.inl List.mem_cons_self
  · split
    · rename_i hinfo
      have hmem := List.mem_of_getElem? hinfo
      exact Or.inl (List.mem_cons_of_mem _ (List.mem_filterMap.mpr ⟨_, hmem, rfl⟩))
    · exact Or.inr rfl

/-- A line that is run (`Frame.fetch`) is a line of the script. -/
theorem mem_blocks_of_fetch {i : Instr} (hf : f.fetch = some i) :
    f.block ∈ f.script.blocks ∧ i ∈ f.block := by
  have hi := List.mem_of_getElem? (f.fetch_eq ▸ hf)
  exact ⟨f.block_mem.resolve_right fun hnil => absurd (hnil ▸ hi) List.not_mem_nil, hi⟩

/-- The number of lines that are left in `Frame.block`. -/
def left (f : Frame κ) : Nat :=
  f.block.length - f.ip

theorem left_le (f : Frame κ) : f.left ≤ f.script.lines := by
  refine (Nat.sub_le _ _).trans ?_
  rcases f.block_mem with hmem | hnil
  · exact (List.sublist_flatten_of_mem hmem).length_le
  · rw [hnil]
    exact Nat.zero_le _

/-- The frame runs a script, and none of the functions that it has at hand is foreign
(`Script.Native`). -/
structure Runs (script : Script κ) (f : Frame κ) : Prop where
  same : f.script = script
  native : ∀ k, .fn k ∈ f.stack ∨ .fn k ∈ f.locals → script.Native k

/-- The frame runs the same code, and is not further up in it (`Frame.block`). -/
structure Ahead (script : Script κ) (f g : Frame κ) : Prop where
  code : g.code = f.code
  same : g.script = f.script
  ip : f.ip ≤ g.ip
  runs : f.Runs script → g.Runs script

theorem Ahead.refl (script : Script κ) (f : Frame κ) : f.Ahead script f :=
  ⟨rfl, rfl, Nat.le_refl _, id⟩

theorem Ahead.trans (hf : f.Ahead script g) (hg : g.Ahead script h) : f.Ahead script h :=
  ⟨hg.code.trans hf.code, hg.same.trans hf.same, Nat.le_trans hf.ip hg.ip, hg.runs ∘ hf.runs⟩

theorem Ahead.left_le (hf : f.Ahead script g) : g.left ≤ f.left := by
  unfold left block
  rw [hf.code, hf.same]
  exact Nat.sub_le_sub_left hf.ip _

/-- A frame that goes to its next line or further has less left (`Frame.left`). -/
theorem Ahead.left_lt {i : Instr} (hi : f.fetch = some i)
    (hf : Ahead script { f with ip := f.ip + 1 } g) : g.left < f.left := by
  refine Nat.lt_of_le_of_lt hf.left_le ?_
  obtain ⟨hlt, -⟩ := List.getElem?_eq_some_iff.mp (f.fetch_eq ▸ hi)
  show f.block.length - (f.ip + 1) < f.block.length - f.ip
  omega

/-- Operands are taken. -/
theorem ahead_shrink {stack : List Datum} (hs : stack ⊆ f.stack) :
    f.Ahead script { f with stack } :=
  ⟨rfl, rfl, Nat.le_refl _,
    fun hf => ⟨hf.same, fun k hk => hf.native k (hk.imp (fun h => hs h) id)⟩⟩

/-- An operand is pushed (`Frame.push`). If it is a function, that is not foreign. -/
theorem ahead_push {d : Datum} (hd : f.Runs script → ∀ k, d = .fn k → script.Native k) :
    f.Ahead script (f.push d) := by
  refine ⟨rfl, rfl, Nat.le_refl _, fun hf => ⟨hf.same, fun k hk => ?_⟩⟩
  rcases hk with hk | hk
  · rcases List.mem_cons.mp hk with hk | hk
    · exact hd hf k hk.symm
    · exact hf.native k (Or.inl hk)
  · exact hf.native k (Or.inr hk)

theorem ahead_pop {op : String} {d : Datum} (hp : f.pop op = .ok (d, g)) : f.Ahead script g := by
  obtain ⟨rest, hs, rfl⟩ := Machine.pop_inv hp
  exact ahead_shrink (hs ▸ List.subset_cons_self d rest)

theorem ahead_popInt (f : Frame κ) (op : String) : f.Ahead script (f.popInt op).2 := by
  unfold popInt
  split
  · rename_i hs
    exact ahead_shrink (hs ▸ List.subset_cons_self _ _)
  · rename_i hs
    exact ahead_shrink (hs ▸ List.subset_cons_self _ _)
  · exact .refl script f

theorem ahead_store {i : Nat} {d : Datum} {rest : List Datum} (hs : f.stack = d :: rest) :
    f.Ahead script ({ f with stack := rest }.store i d) := by
  refine ⟨rfl, rfl, Nat.le_refl _, fun hf => ⟨hf.same, fun k hk => ?_⟩⟩
  rcases hk with hk | hk
  · exact hf.native k (Or.inl (hs ▸ List.mem_cons_of_mem d hk))
  · rcases List.mem_or_eq_of_mem_set hk with hk | hk
    · rcases List.mem_append.mp hk with hk | hk
      · exact hf.native k (Or.inr hk)
      · exact absurd (List.eq_of_mem_replicate hk) (by simp)
    · exact hf.native k (Or.inl (hs ▸ hk ▸ List.mem_cons_self))

/-- A jump leads further down (`Frame.Ahead`). -/
theorem ahead_jump {target : Nat} (ht : f.ip ≤ target) : f.Ahead script { f with ip := target } :=
  ⟨rfl, rfl, ht, fun hf => ⟨hf.same, hf.native⟩⟩

/-- What is left to do in frames, the running one first, if there is room for `room` of them: the
lines that are left in each, weighted by the room above it. -/
def toil (weight room : Nat) : List (Frame κ) → Nat
  | [] => 0
  | f :: rest => (f.left + 1) * weight ^ (room - rest.length) + toil weight room rest

variable {weight room : Nat} {rest : List (Frame κ)}

theorem toil_pos (hw : 0 < weight) : 0 < toil weight room (f :: rest) :=
  Nat.add_pos_left (Nat.mul_pos (Nat.succ_pos _) (Nat.pow_pos hw)) _

/-- What is left to do (`toil`) when a script begins. -/
theorem toil_main (script : Script κ) (room : Nat) :
    toil (script.lines + 2) room [.main script] ≤ (script.lines + 2) ^ (room + 1) := by
  rw [Nat.pow_succ']
  exact Nat.mul_le_mul_right _
    (Nat.succ_le_succ ((Frame.main script).left_le.trans (Nat.le_succ _)))

/-- A line has been run (`toil`, `Frame.left`). -/
theorem toil_line (hw : 0 < weight) (hlt : g.left < f.left) :
    toil weight room (g :: rest) < toil weight room (f :: rest) := by
  refine Nat.add_lt_add_right ?_ _
  exact Nat.mul_lt_mul_of_pos_right (Nat.succ_lt_succ hlt) (Nat.pow_pos hw)

/-- A line has been run that put a frame on top (`toil`). -/
theorem toil_call (hw : h.left + 1 < weight) (hlt : g.left < f.left)
    (hroom : rest.length + 1 < room) :
    toil weight room (h :: g :: rest) < toil weight room (f :: rest) := by
  have hpow : weight ^ (room - rest.length) = weight * weight ^ (room - (rest.length + 1)) := by
    rw [← Nat.pow_succ']
    congr 1
    omega
  have hpos : 0 < weight ^ (room - (rest.length + 1)) := Nat.pow_pos (by omega)
  have hnew : (h.left + 1) * weight ^ (room - (rest.length + 1)) <
      weight ^ (room - rest.length) := by
    rw [hpow]
    exact Nat.mul_lt_mul_of_pos_right hw hpos
  have hcaller : (g.left + 1) * weight ^ (room - rest.length) + weight ^ (room - rest.length) ≤
      (f.left + 1) * weight ^ (room - rest.length) := by
    rw [← Nat.succ_mul]
    exact Nat.mul_le_mul_right _ (Nat.succ_le_succ hlt)
  show (h.left + 1) * weight ^ (room - (rest.length + 1)) +
    ((g.left + 1) * weight ^ (room - rest.length) + toil weight room rest) <
      (f.left + 1) * weight ^ (room - rest.length) + toil weight room rest
  omega

/-- A frame has ended (`toil`). -/
theorem toil_back (hw : 0 < weight) (hle : h.left ≤ g.left) :
    toil weight room (h :: rest) < toil weight room (f :: g :: rest) := by
  have hcaller : toil weight room (h :: rest) ≤ toil weight room (g :: rest) :=
    Nat.add_le_add_right (Nat.mul_le_mul_right _ (Nat.succ_le_succ hle)) _
  have hpos : 0 < (f.left + 1) * weight ^ (room - (g :: rest).length) :=
    Nat.mul_pos (Nat.succ_pos _) (Nat.pow_pos hw)
  show _ < (f.left + 1) * weight ^ (room - (g :: rest).length) + toil weight room (g :: rest)
  omega

end Frame

/-! ## Machines -/

namespace Machine

variable {script : Script κ} {m n k : Machine κ} {base : Nat} {op : String} {α : Type}

/-- The running frame is not further up in its code (`Frame.Ahead`); those below are the same. -/
def Ahead (script : Script κ) (m n : Machine κ) : Prop :=
  ∃ top rest top', m.frames = top :: rest ∧ n.frames = top' :: rest ∧ top.Ahead script top'

theorem Ahead.refl (script : Script κ) (hne : m.frames ≠ []) : m.Ahead script m := by
  obtain ⟨top, rest, hm⟩ := List.exists_cons_of_ne_nil hne
  exact ⟨top, rest, top, hm, hm, .refl script top⟩

theorem Ahead.trans (h : m.Ahead script n) (h' : n.Ahead script k) : m.Ahead script k := by
  obtain ⟨top, rest, top', hm, hn, hahead⟩ := h
  obtain ⟨_, _, top'', hn', hk, hahead'⟩ := h'
  obtain ⟨rfl, rfl⟩ := List.cons.inj (hn.symm.trans hn')
  exact ⟨top, rest, top'', hm, hk, hahead.trans hahead'⟩

theorem onTop_ahead {f : Frame κ → Except ScriptError (α × Frame κ)} {x : α}
    (h : m.onTop f = .ok (x, n)) (hf : ∀ top top', f top = .ok (x, top') → top.Ahead script top') :
    m.Ahead script n := by
  obtain ⟨top, rest, top', hm, htop, rfl⟩ := onTop_inv h
  exact ⟨top, rest, top', hm, rfl, hf top top' htop⟩

theorem push_ahead {d : Datum} (hd : ∀ k, d = .fn k → script.Native k) (h : m.push d = .ok n) :
    m.Ahead script n := by
  obtain ⟨top, rest, hm, rfl⟩ := withTop_inv h
  exact ⟨top, rest, _, hm, rfl, Frame.ahead_push fun _ => hd⟩

theorem pushObject_ahead {x : HeapObject κ} (h : m.pushObject x = .ok n) : m.Ahead script n := by
  obtain ⟨top, rest, hm, rfl⟩ := withTop_inv h
  refine ⟨top, rest, _, hm, rfl, ?_⟩
  have howned (cell : Nat) : top.Ahead script { top with owned := top.owned ++ [cell] } :=
    ⟨rfl, rfl, Nat.le_refl _, fun hf => ⟨hf.same, hf.native⟩⟩
  exact (howned _).trans (Frame.ahead_push fun _ _ hd => absurd hd (by simp))

theorem pushValue_ahead {v : Value κ} (h : m.pushValue v = .ok n) : m.Ahead script n := by
  cases v with
  | nil => exact push_ahead (by simp) h
  | int => exact push_ahead (by simp) h
  | str s => exact pushObject_ahead h
  | message msg => exact pushObject_ahead h
  | template t => exact pushObject_ahead h

theorem pop_ahead {d : Datum} (h : m.pop op = .ok (d, n)) : m.Ahead script n :=
  onTop_ahead h fun _ _ => Frame.ahead_pop

theorem popAddress_ahead {a : Address} (h : m.popAddress op = .ok (a, n)) :
    m.Ahead script n := by
  unfold popAddress at h
  obtain ⟨⟨d, m'⟩, hpop, h⟩ := except_bind_inv h
  have hm : m.Ahead script m' := pop_ahead (except_lift_inv hpop)
  dsimp only at h
  split at h
  case h_3 => exact absurd h (by simp)
  all_goals
    split at h
    · obtain ⟨-, rfl⟩ := Prod.mk.inj (Except.ok.inj h)
      exact hm
    · split at h
      · obtain ⟨-, rfl⟩ := Prod.mk.inj (Except.ok.inj h)
        exact hm
      · exact absurd h (by simp)

theorem popMessage_ahead {msg : Message} (h : m.popMessage op = .ok (msg, n)) :
    m.Ahead script n := by
  obtain ⟨⟨d, m'⟩, hpop, h⟩ := except_bind_inv h
  obtain ⟨-, rfl⟩ := Prod.mk.inj (Except.ok.inj h)
  exact pop_ahead (except_lift_inv hpop)

theorem popTemplate_ahead {t : Template κ} (h : m.popTemplate op = .ok (t, n)) :
    m.Ahead script n := by
  unfold popTemplate at h
  obtain ⟨⟨d, m'⟩, hpop, h⟩ := except_bind_inv h
  dsimp only at h
  split at h
  · obtain ⟨-, rfl⟩ := Prod.mk.inj (Except.ok.inj h)
    exact pop_ahead (except_lift_inv hpop)
  · exact absurd h (by simp)

section Step

variable {top : Frame κ} {rest : List (Frame κ)} {target : Nat}

theorem jump_ahead (hm : m.frames = top :: rest) (ht : top.ip ≤ target)
    (h : m.withTop (fun f => { f with ip := target }) = .ok n) : m.Ahead script n := by
  obtain ⟨top', rest', hm', rfl⟩ := withTop_inv h
  obtain ⟨rfl, rfl⟩ := List.cons.inj (hm.symm.trans hm')
  exact ⟨top, rest, _, hm, rfl, Frame.ahead_jump ht⟩

theorem jumpIf_ahead {number : Int} (hm : m.frames = top :: rest) (ht : top.ip ≤ target)
    (h : m.jumpIf op number target = .ok n) : m.Ahead script n := by
  unfold jumpIf at h
  obtain ⟨⟨x, m'⟩, htop, h⟩ := except_bind_inv h
  obtain ⟨top', rest', popped, hm', hpop, rfl⟩ := onTop_inv htop
  obtain ⟨rfl, rfl⟩ := List.cons.inj (hm.symm.trans hm')
  obtain ⟨_, -, hpopped⟩ := except_bind_inv hpop
  obtain ⟨-, rfl⟩ := Prod.mk.inj (Except.ok.inj hpopped)
  have hahead : m.Ahead script { m with frames := (top.popInt op).2 :: rest } :=
    ⟨top, rest, _, hm, rfl, top.ahead_popInt op⟩
  have hip : (top.popInt op).2.ip = top.ip := by
    unfold Frame.popInt
    split <;> rfl
  dsimp only at h
  split at h
  · exact hahead.trans (jump_ahead rfl (hip ▸ ht) h)
  · exact Except.ok.inj h ▸ hahead

/-- What an instruction has done to a machine: its frame has gone on (`Machine.Ahead`), and others
are not concerned; or a function that is code has been called, for which there was room. -/
inductive Onwards (script : Script κ) (m : Machine κ) : StepResult κ → Prop
  | next {n : Machine κ} : m.Ahead script n → Onwards script m (.next n)
  | demand {d : Demand κ} {n : Machine κ} : m.Ahead script n → d.rouses = false →
      Onwards script m (.demand d n)
  | call {f : Frame κ} {n : Machine κ} : m.Ahead script n → n.depth < n.maxFrames →
      f.Runs script → Onwards script m (.next { n with frames := f :: n.frames })

/-- **A call** (`Machine.call`) goes to a function that is code. -/
theorem call_onwards {argc : Nat} {r : StepResult κ} (hm : m.frames = top :: rest)
    (hruns : top.Runs script) (h : m.call argc = .ok r) : Onwards script m r := by
  unfold call at h
  obtain ⟨⟨d, m₁⟩, hpop, h⟩ := except_bind_inv h
  obtain ⟨_, _, top₁, hm', hd, rfl⟩ := onTop_inv hpop
  obtain ⟨rfl, rfl⟩ := List.cons.inj (hm.symm.trans hm')
  have hruns₁ := (Frame.ahead_pop hd).runs hruns
  obtain ⟨below, hstack, -⟩ := pop_inv hd
  cases d with
  | nil | int | ref => exact absurd h (by simp)
  | fn index =>
    have hnative := hruns.native index (Or.inl (hstack ▸ List.mem_cons_self))
    obtain ⟨⟨args, m₂⟩, hpops, h⟩ := except_bind_inv h
    obtain ⟨_, _, top₂, hm₂, hargs, rfl⟩ := onTop_inv hpops
    obtain ⟨rfl, rfl⟩ := List.cons.inj hm₂
    obtain ⟨rfl, rfl⟩ : args = (top₁.stack.take argc).reverse ∧
        top₂ = { top₁ with stack := top₁.stack.drop argc } := by
      unfold Frame.popMany at hargs
      split at hargs
      · exact absurd hargs (by simp)
      · obtain ⟨rfl, rfl⟩ := Prod.mk.inj (Except.ok.inj hargs)
        exact ⟨rfl, rfl⟩
    have hahead₁ : top.Ahead script top₁ := Frame.ahead_pop hd
    have hahead₂ := hahead₁.trans (Frame.ahead_shrink (List.drop_subset argc top₁.stack))
    have hahead : m.Ahead script
        { m with frames := { top₁ with stack := top₁.stack.drop argc } :: rest } :=
      ⟨top, rest, _, hm, rfl, hahead₂⟩
    obtain ⟨info, hinfo, h⟩ := except_bind_inv h
    -- the number names a function of the script, and that is not foreign
    have hinfo' : script.functions[index]? = some info := by
      unfold constant at hinfo
      dsimp only [List.head?_cons, Option.bind_some] at hinfo
      rw [hruns₁.same] at hinfo
      split at hinfo
      · rename_i hget
        exact Except.ok.inj hinfo ▸ hget
      · exact absurd hinfo (by simp)
    obtain ⟨instrs, hbody⟩ := hnative info hinfo'
    split at h
    · exact absurd h (by simp)
    · rw [hbody] at h
      obtain ⟨m₃, hpush, h⟩ := except_bind_inv h
      obtain ⟨hroom, rfl⟩ := pushFrame_inv hpush
      obtain rfl := Except.ok.inj h
      refine .call hahead hroom ⟨hruns₁.same, fun k hk => ?_⟩
      have harg := List.mem_reverse.mp (hk.resolve_left List.not_mem_nil)
      exact hruns₁.native k (Or.inl (List.mem_of_mem_take harg))

/-- **An instruction** (`Machine.step`) of a script that goes forward does not go back, and whatever
it demands is nobody else's business. -/
theorem step_onwards {i : Instr} {r : StepResult κ} (hm : m.frames = top :: rest)
    (hruns : top.Runs script) (hdown : ∀ target, i.target? = some target → top.ip ≤ target)
    (hnative : ∀ k, i = .pushFun k → script.Native k) (halone : i.rouses = false)
    (h : m.step i = .ok r) : Onwards script m r := by
  have self : m.Ahead script m := .refl script (hm ▸ List.cons_ne_nil _ _)
  cases i with
  | nop | ret => exact Except.ok.inj h ▸ .next self
  | recvCount | mailCount | mailDq | discard => exact Except.ok.inj h ▸ .demand self rfl
  | run | send | read => exact absurd halone (by simp [Instr.rouses])
  | pushNil | pushInt =>
    obtain ⟨n, hpush, h⟩ := except_bind_inv h
    exact Except.ok.inj h ▸ .next (push_ahead (by simp) (except_lift_inv hpush))
  | pushStr | pushMsg | pushTemplate =>
    obtain ⟨x, -, h⟩ := except_bind_inv h
    obtain ⟨n, hpush, h⟩ := except_bind_inv h
    exact Except.ok.inj h ▸ .next (pushObject_ahead (except_lift_inv hpush))
  | pushFun number =>
    obtain ⟨x, -, h⟩ := except_bind_inv h
    obtain ⟨n, hpush, h⟩ := except_bind_inv h
    refine Except.ok.inj h ▸ .next (push_ahead (fun k hk => ?_) (except_lift_inv hpush))
    exact Datum.fn.inj hk ▸ hnative number rfl
  | pushSelf =>
    obtain ⟨n, hpush, h⟩ := except_bind_inv h
    exact Except.ok.inj h ▸ .next (pushObject_ahead (except_lift_inv hpush))
  | pop =>
    obtain ⟨⟨d, n⟩, hpop, h⟩ := except_bind_inv h
    exact Except.ok.inj h ▸ .next (pop_ahead (except_lift_inv hpop))
  | dup =>
    obtain ⟨⟨⟨⟩, n⟩, htop, h⟩ := except_bind_inv h
    refine Except.ok.inj h ▸ .next (onTop_ahead (except_lift_inv htop) fun f f' hf => ?_)
    obtain ⟨d, hpeek, hf⟩ := except_bind_inv hf
    obtain ⟨-, rfl⟩ := Prod.mk.inj (Except.ok.inj hf)
    exact Frame.ahead_push fun hf k hk => hf.native k (Or.inl (hk ▸ mem_of_peek hpeek))
  | load number =>
    obtain ⟨⟨⟨⟩, n⟩, htop, h⟩ := except_bind_inv h
    refine Except.ok.inj h ▸ .next (onTop_ahead (except_lift_inv htop) fun f f' hf => ?_)
    obtain ⟨d, hload, hf⟩ := except_bind_inv hf
    obtain ⟨-, rfl⟩ := Prod.mk.inj (Except.ok.inj hf)
    exact Frame.ahead_push fun hf k hk => hf.native k (Or.inr (hk ▸ mem_of_load hload))
  | store number =>
    obtain ⟨⟨⟨⟩, n⟩, htop, h⟩ := except_bind_inv h
    refine Except.ok.inj h ▸ .next (onTop_ahead (except_lift_inv htop) fun f f' hf => ?_)
    obtain ⟨⟨d, popped⟩, hpop, hf⟩ := except_bind_inv hf
    obtain ⟨-, rfl⟩ := Prod.mk.inj (Except.ok.inj hf)
    obtain ⟨below, hs, rfl⟩ := pop_inv hpop
    exact Frame.ahead_store hs
  | jump target =>
    obtain ⟨n, hjump, h⟩ := except_bind_inv h
    exact Except.ok.inj h ▸ .next (jump_ahead hm (hdown target rfl) (except_lift_inv hjump))
  | jumpIfZero target | jumpIfOne target =>
    obtain ⟨n, hjump, h⟩ := except_bind_inv h
    exact Except.ok.inj h ▸ .next (jumpIf_ahead hm (hdown target rfl) (except_lift_inv hjump))
  | call => exact call_onwards hm hruns (except_lift_inv h)
  | alloc =>
    obtain ⟨⟨t, n⟩, hpop, h⟩ := except_bind_inv h
    exact Except.ok.inj h ▸ .demand (popTemplate_ahead hpop) rfl
  | kill | route | unroute =>
    obtain ⟨⟨a, n⟩, hpop, h⟩ := except_bind_inv h
    exact Except.ok.inj h ▸ .demand (popAddress_ahead hpop) rfl
  | drop =>
    obtain ⟨⟨a, n⟩, hpop, h⟩ := except_bind_inv h
    obtain ⟨⟨msg, n'⟩, hpop', h⟩ := except_bind_inv h
    exact Except.ok.inj h ▸ .demand ((popAddress_ahead hpop).trans (popMessage_ahead hpop')) rfl
  | recv =>
    obtain ⟨x, -, h⟩ := except_bind_inv h
    exact Except.ok.inj h ▸ .demand self rfl
  | raise =>
    obtain ⟨x, -, h⟩ := except_bind_inv h
    exact absurd h (by simp)

end Step

/-! ## What is left to do -/

/-- The machine runs a script: these frames are above frame number `base`, and run it. -/
structure Forth (script : Script κ) (m : Machine κ) (base : Nat) (own : List (Frame κ)) : Prop where
  frames : ∃ floor, m.frames = own ++ floor ∧ floor.length = base
  runs : ∀ f ∈ own, f.Runs script

/-- What is left to do in the frames of a script above frame number `base`. -/
def toil (script : Script κ) (m : Machine κ) (base : Nat) (own : List (Frame κ)) : Nat :=
  Frame.toil (script.lines + 2) (m.maxFrames - base) own

section Forth

variable {top caller : Frame κ} {own : List (Frame κ)} {i : Instr}

theorem Forth.depth (h : m.Forth script base own) : m.depth = own.length + base := by
  obtain ⟨floor, hm, rfl⟩ := h.frames
  unfold Machine.depth
  rw [hm, List.length_append]

/-- The running frame has gone on (`Machine.Ahead`). -/
theorem Forth.ahead (h : m.Forth script base (top :: own)) (hn : m.Ahead script n) :
    ∃ top', top.Ahead script top' ∧ n.Forth script base (top' :: own) := by
  obtain ⟨floor, hm, hlen⟩ := h.frames
  obtain ⟨_, _, top', hm', hn, hahead⟩ := hn
  obtain ⟨rfl, rfl⟩ := List.cons.inj (hm.symm.trans hm')
  obtain ⟨hruns, hbelow⟩ := List.forall_mem_cons.mp h.runs
  exact ⟨top', hahead, ⟨floor, hn, hlen⟩, List.forall_mem_cons.mpr ⟨hahead.runs hruns, hbelow⟩⟩

/-- A value that is pushed (`Machine.pushValue`) adds nothing to what is left to do. -/
theorem Forth.pushValue {v : Value κ} (h : m.Forth script base (top :: own))
    (hpush : m.pushValue v = .ok n) : ∃ top', n.Forth script base (top' :: own) ∧
      n.toil script base (top' :: own) ≤ m.toil script base (top :: own) := by
  obtain ⟨top', hahead, hforth⟩ := h.ahead (pushValue_ahead hpush)
  refine ⟨top', hforth, ?_⟩
  unfold Machine.toil
  rw [(pushValue_atop hpush).room]
  exact Nat.add_le_add_right (Nat.mul_le_mul_right _ (Nat.succ_le_succ hahead.left_le)) _

/-- The running frame is about to carry out its next line (`Machine.fetch`). -/
theorem Forth.fetch (h : m.Forth script base (top :: own)) (hf : m.fetch = some (i, n)) :
    top.fetch = some i ∧ n.Forth script base ({ top with ip := top.ip + 1 } :: own) := by
  obtain ⟨_, rest, hm, hi, rfl⟩ := fetch_inv hf
  obtain ⟨floor, hm', hlen⟩ := h.frames
  obtain ⟨rfl, rfl⟩ := List.cons.inj (hm'.symm.trans hm)
  obtain ⟨hruns, hbelow⟩ := List.forall_mem_cons.mp h.runs
  exact ⟨hi, ⟨floor, rfl, hlen⟩, List.forall_mem_cons.mpr ⟨⟨hruns.same, hruns.native⟩, hbelow⟩⟩

/-- A machine whose running frame has gone to the next line or further has less left to do (`toil`).
-/
theorem Forth.line (h : m.Forth script base (top :: own)) (hf : m.fetch = some (i, n))
    (hk : n.Ahead script k) (hroom : k.maxFrames = m.maxFrames) :
    ∃ top', k.Forth script base (top' :: own) ∧
      k.toil script base (top' :: own) < m.toil script base (top :: own) := by
  obtain ⟨hi, hn⟩ := h.fetch hf
  obtain ⟨top', hahead, hforth⟩ := hn.ahead hk
  refine ⟨top', hforth, ?_⟩
  unfold Machine.toil
  rw [hroom]
  exact Frame.toil_line (Nat.succ_pos _) (hahead.left_lt hi)

/-- **An instruction** (`Machine.step`) takes from what is left to do. -/
theorem Forth.step {r : StepResult κ} (hscript : script.Forward)
    (h : m.Forth script base (top :: own)) (hf : m.fetch = some (i, n)) (hs : n.step i = .ok r) :
    (∀ d k, r = .demand d k → d.rouses = false) ∧
      ∃ top' own', r.machine.Forth script base (top' :: own') ∧
        r.machine.toil script base (top' :: own') < m.toil script base (top :: own) := by
  obtain ⟨hi, hn⟩ := h.fetch hf
  obtain ⟨floor, hframes, -⟩ := hn.frames
  have hruns := (List.forall_mem_cons.mp hn.runs).1
  obtain ⟨hblock, hmem⟩ := Frame.mem_blocks_of_fetch hi
  have hsame : top.script = script := hruns.same
  rw [hsame] at hblock
  have honwards : Onwards script n r := step_onwards hframes hruns
    (fun target ht => hscript.down _ hblock _ i target (top.fetch_eq ▸ hi) ht)
    (fun k hk => hscript.native _ hblock k (hk ▸ hmem)) (hscript.alone _ hblock i hmem) hs
  have hkin := ((fetch_atop hf).trans (step_atop (fetch_atop hf).ne_nil hs)).room
  cases honwards with
  | next hahead =>
    obtain ⟨top', hforth, hlt⟩ := h.line hf hahead hkin
    exact ⟨fun _ _ hr => absurd hr (by simp), top', own, hforth, hlt⟩
  | demand hahead hd =>
    obtain ⟨top', hforth, hlt⟩ := h.line hf hahead hkin
    exact ⟨fun _ _ hr => (StepResult.demand.inj hr).1 ▸ hd, top', own, hforth, hlt⟩
  | @call f k hahead hroom hfruns =>
    obtain ⟨top', htop, hforth⟩ := hn.ahead hahead
    obtain ⟨floor', hk, hlen⟩ := hforth.frames
    refine ⟨fun _ _ hr => absurd hr (by simp), f, top' :: own,
      ⟨⟨floor', congrArg (f :: ·) hk, hlen⟩, List.forall_mem_cons.mpr ⟨hfruns, hforth.runs⟩⟩, ?_⟩
    have hkin' : k.maxFrames = m.maxFrames := hkin
    unfold Machine.toil
    show Frame.toil _ (k.maxFrames - base) _ < _
    rw [hkin']
    rw [hkin', hforth.depth, List.length_cons] at hroom
    refine Frame.toil_call ?_ (htop.left_lt hi) (by omega)
    exact Nat.succ_lt_succ (Nat.lt_succ_of_le (hfruns.same ▸ f.left_le))

/-- **A frame that ends** (`Machine.leave`) takes what was left in it away, if it is not the last
one. -/
theorem Forth.leave (h : m.Forth script base (top :: caller :: own)) :
    ∃ caller', (m.leave base).2.Forth script base (caller' :: own) ∧
      (m.leave base).2.toil script base (caller' :: own) <
        m.toil script base (top :: caller :: own) := by
  obtain ⟨floor, hm, hlen⟩ := h.frames
  obtain ⟨htop, hbelow⟩ := List.forall_mem_cons.mp h.runs
  obtain ⟨hcaller, hbelow⟩ := List.forall_mem_cons.mp hbelow
  obtain ⟨kept, taken, heq, -, -, -⟩ := top.handOver_eq caller
  have hne : (own ++ floor).length + 1 ≠ base := by
    rw [List.length_append]
    omega
  have hleave := leave_eq_caller hm hne
  rw [heq] at hleave
  have hahead : caller.Ahead script ({ caller with owned := taken }.push top.result) := by
    refine Frame.Ahead.trans (g := { caller with owned := taken })
      ⟨rfl, rfl, Nat.le_refl _, fun hf => ⟨hf.same, hf.native⟩⟩ (Frame.ahead_push fun _ k hk => ?_)
    refine htop.native k (Or.inl ?_)
    unfold Frame.result at hk
    cases hs : top.stack with
    | nil => exact absurd hk (by simp [hs])
    | cons d stack =>
      rw [hs] at hk
      exact List.mem_cons.mpr (Or.inl hk.symm)
  refine ⟨{ caller with owned := taken }.push top.result, ⟨⟨floor, ?_, hlen⟩,
    List.forall_mem_cons.mpr ⟨hahead.runs hcaller, hbelow⟩⟩, ?_⟩
  · rw [hleave]
    rfl
  · unfold Machine.toil
    rw [(m.leave_kin base).room]
    exact Frame.toil_back (Nat.succ_pos _) hahead.left_le

end Forth

end Machine

end Troupe
