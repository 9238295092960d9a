import Troupe.Proofs.Machine.Ownership

/-!
# Frames below the running one stay

A script runs on top of the frames that were there before. An instruction works on the running frame
and may put others on it, but leaves those below alone (`Atop`), and keeps the machine sound and
what is on its heap (`Grown`). What an instruction does to the running frame is *tame*: it owns what
it owned and refers to nothing else (`Tame`), unless an object is put on the heap for it
(`pushObject_atop`). Each part of `Machine.step` has its lemma: `push_atop`, `pop_atop`,
`popMany_atop`, `popAddress_atop`, `jumpIf_atop`, `call_atop` and so on.

What is left when the frames above number `base` have ended is the machine's *floor*
(`Machine.floor`). Neither instructions nor returns to frames above it change it or what it owns
(`Spares`).

Headlines:
* **`Machine.step_atop`**: instructions leave the frames below alone.
* **`Machine.Atop.floor`**: the floor stays while frames are put on the running one.
* `Machine.leave_floor`, `Machine.leave_spares`, `Machine.unwind_spares`: it stays when frames above
  it end.
-/

namespace Troupe

variable {κ : App} {α β ε : Type}

/-! ## Taking results of fallible steps apart -/

theorem except_bind_inv {x : Except ε α} {f : α → Except ε β} {b : β} (h : x >>= f = .ok b) :
    ∃ a, x = .ok a ∧ f a = .ok b := by
  cases x with
  | error e => exact absurd h (by simp [bind, Except.bind])
  | ok a => exact ⟨a, rfl, h⟩

/-- A script's failure (`ScriptError`) is an error of the actor; a success is one of both. -/
theorem except_lift_inv {x : Except ScriptError α} {a : α}
    (h : (liftM x : Except ActorError α) = .ok a) : x = .ok a := by
  cases x with
  | error e =>
    have herror : (.error (.script e) : Except ActorError α) = .ok a := h
    exact absurd herror (by simp)
  | ok b => exact congrArg Except.ok (Except.ok.inj h)

/-- The machine that an instruction leaves (`StepResult.next`, `StepResult.demand`). -/
def StepResult.machine : StepResult κ → Machine κ
  | .next m => m
  | .demand _ m => m

namespace Machine

variable {m m' m'' : Machine κ} {base : Nat}

/-- The machines belong to the same incarnation and have the same limit (`Machine.maxFrames`). -/
structure Kin (m m' : Machine κ) : Prop where
  address : m'.address = m.address
  generation : m'.generation = m.generation
  room : m'.maxFrames = m.maxFrames

theorem Kin.refl (m : Machine κ) : Kin m m := ⟨rfl, rfl, rfl⟩

theorem Kin.trans (h : Kin m m') (h' : Kin m' m'') : Kin m m'' :=
  ⟨h'.address.trans h.address, h'.generation.trans h.generation, h'.room.trans h.room⟩

/-- A sound machine (`Machine.Sound`) stays sound, and what is on its heap stays there. -/
structure Grown (m m' : Machine κ) : Prop extends Kin m m' where
  sound : m.Sound → m'.Sound
  kept : m.Sound → ∀ cell x, m.heap.get? cell = some x → m'.heap.get? cell = some x

theorem Grown.refl (m : Machine κ) : Grown m m := ⟨.refl m, id, fun _ _ _ => id⟩

theorem Grown.trans (h : Grown m m') (h' : Grown m' m'') : Grown m m'' :=
  ⟨h.toKin.trans h'.toKin, fun hm => h'.sound (h.sound hm),
    fun hm cell x hx => h'.kept (h.sound hm) cell x (h.kept hm cell x hx)⟩

/-- Only of a sound machine is anything said. -/
theorem Grown.of_sound (hk : Kin m m') (h : m.Sound → Grown m m') : Grown m m' :=
  ⟨hk, fun hm => (h hm).sound hm, fun hm => (h hm).kept hm⟩

/-- The running frame has become one frame or more; those below are the same (`Machine.frames`). -/
structure Atop (m m' : Machine κ) : Prop extends Grown m m' where
  frames : ∃ top tops, m'.frames = top :: tops ++ m.frames.tail

theorem Atop.refl (h : m.frames ≠ []) : Atop m m := by
  refine ⟨.refl m, ?_⟩
  obtain ⟨top, rest, hm⟩ := List.exists_cons_of_ne_nil h
  exact ⟨top, [], by simp [hm]⟩

theorem Atop.trans (h : Atop m m') (h' : Atop m' m'') : Atop m m'' := by
  refine ⟨h.toGrown.trans h'.toGrown, ?_⟩
  obtain ⟨top, tops, hm⟩ := h.frames
  obtain ⟨top', tops', hm'⟩ := h'.frames
  refine ⟨top', tops' ++ tops, ?_⟩
  rw [hm', hm]
  simp

theorem Atop.depth_le (h : Atop m m') : m.depth ≤ m'.depth := by
  obtain ⟨top, tops, hm⟩ := h.frames
  unfold depth
  rw [hm, List.length_append, List.length_tail, List.length_cons]
  omega

theorem Atop.ne_nil (h : Atop m m') : m'.frames ≠ [] := by
  obtain ⟨top, tops, hm⟩ := h.frames
  rw [hm]
  exact List.cons_ne_nil _ _

/-- The frames are the same, and what they own is (`ownedCells`). -/
structure SameFrames (m m' : Machine κ) : Prop extends Grown m m' where
  frames : m'.frames = m.frames

theorem SameFrames.refl (m : Machine κ) : SameFrames m m := ⟨.refl m, rfl⟩

theorem SameFrames.trans (h : SameFrames m m') (h' : SameFrames m' m'') : SameFrames m m'' :=
  ⟨h.toGrown.trans h'.toGrown, h'.frames.trans h.frames⟩

theorem SameFrames.depth_eq (h : SameFrames m m') : m'.depth = m.depth :=
  congrArg List.length h.frames

theorem SameFrames.atop (h : SameFrames m m') (hne : m.frames ≠ []) : Atop m m' := by
  obtain ⟨top, tops, hm⟩ := (Atop.refl hne).frames
  exact ⟨h.toGrown, top, tops, h.frames.trans hm⟩

/-! ## The running frame -/

theorem onTop_inv {f : Frame κ → Except ScriptError (α × Frame κ)} {x : α}
    (h : m.onTop f = .ok (x, m')) : ∃ top rest top', m.frames = top :: rest ∧
      f top = .ok (x, top') ∧ m' = { m with frames := top' :: rest } := by
  unfold onTop at h
  split at h
  · exact absurd h (by simp)
  · rename_i top rest hm
    split at h
    · rename_i y top' hf
      obtain ⟨rfl, rfl⟩ := Prod.mk.inj (Except.ok.inj h)
      exact ⟨top, rest, top', hm, hf, rfl⟩
    · exact absurd h (by simp)

theorem withTop_inv {f : Frame κ → Frame κ} (h : m.withTop f = .ok m') : ∃ top rest,
    m.frames = top :: rest ∧ m' = { m with frames := f top :: rest } := by
  unfold withTop at h
  split at h
  · exact absurd h (by simp)
  · rename_i top rest hm
    exact ⟨top, rest, hm, (Except.ok.inj h).symm⟩

/-- The running frame changes tamely (`Frame.Tame`). -/
theorem retop_atop {top top' : Frame κ} {rest : List (Frame κ)} (hm : m.frames = top :: rest)
    (ht : top.Tame top') : Atop m { m with frames := top' :: rest } :=
  ⟨⟨⟨rfl, rfl, rfl⟩, fun h => h.retop hm ht, fun _ _ _ => id⟩, top', [], by simp [hm]⟩

theorem onTop_atop {f : Frame κ → Except ScriptError (α × Frame κ)} {x : α}
    (h : m.onTop f = .ok (x, m')) (hf : ∀ top top', f top = .ok (x, top') → top.Tame top') :
    Atop m m' := by
  obtain ⟨top, rest, top', hm, htop, rfl⟩ := onTop_inv h
  exact retop_atop hm (hf top top' htop)

theorem withTop_atop {f : Frame κ → Frame κ} (h : m.withTop f = .ok m')
    (hf : ∀ top : Frame κ, top.Tame (f top)) : Atop m m' := by
  obtain ⟨top, rest, hm, rfl⟩ := withTop_inv h
  exact retop_atop hm (hf top)

theorem jump_tame (f : Frame κ) (target : Nat) : f.Tame { f with ip := target } :=
  ⟨rfl, fun _ => id⟩

/-- An operand that is not a reference can be pushed (`Frame.push`). -/
theorem push_atop {d : Datum} (hd : ∀ cell, d ≠ .ref cell) (h : m.push d = .ok m') : Atop m m' :=
  withTop_atop h fun _ => ⟨rfl, fun cell hc => (Frame.refers_push hc).resolve_left (hd cell)⟩

/-- An operand that the frame has can be pushed once more (`Frame.push`). -/
theorem repush_tame {f : Frame κ} {d : Datum} (hd : d ∈ f.stack ∨ d ∈ f.locals) :
    f.Tame (f.push d) := by
  refine ⟨rfl, fun cell hc => ?_⟩
  rcases Frame.refers_push hc with rfl | hc
  · exact hd
  · exact hc

theorem pop_inv {f g : Frame κ} {op : String} {d : Datum} (h : f.pop op = .ok (d, g)) :
    ∃ rest, f.stack = d :: rest ∧ g = { f with stack := rest } := by
  unfold Frame.pop at h
  split at h
  · rename_i rest hs
    obtain ⟨rfl, rfl⟩ := Prod.mk.inj (Except.ok.inj h)
    exact ⟨rest, hs, rfl⟩
  · exact absurd h (by simp)

/-- Operands that are gone are not referred to (`Frame.Refers`). -/
theorem shrink_tame {f : Frame κ} {stack : List Datum} (h : stack ⊆ f.stack) :
    f.Tame { f with stack } :=
  ⟨rfl, fun _ hc => hc.imp (fun hs => h hs) id⟩

theorem pop_tame {f g : Frame κ} {op : String} {d : Datum} (h : f.pop op = .ok (d, g)) :
    f.Tame g := by
  obtain ⟨rest, hs, rfl⟩ := pop_inv h
  exact shrink_tame (hs ▸ List.subset_cons_self d rest)

theorem pop_atop {op : String} {d : Datum} (h : m.pop op = .ok (d, m')) : Atop m m' :=
  onTop_atop h fun _ _ => pop_tame

theorem popInt_tame (f : Frame κ) (op : String) : f.Tame (f.popInt op).2 := by
  unfold Frame.popInt
  split
  · rename_i hs
    exact shrink_tame (hs ▸ List.subset_cons_self _ _)
  · rename_i hs
    exact shrink_tame (hs ▸ List.subset_cons_self _ _)
  · exact ⟨rfl, fun _ => id⟩

theorem mem_of_peek {f : Frame κ} {op : String} {d : Datum} (h : f.peek op = .ok d) :
    d ∈ f.stack := by
  unfold Frame.peek at h
  split at h
  · rename_i hs
    exact Except.ok.inj h ▸ hs ▸ List.mem_cons_self
  · exact absurd h (by simp)

theorem mem_of_load {f : Frame κ} {i : Nat} {d : Datum} (h : f.load i = .ok d) :
    d ∈ f.locals := by
  unfold Frame.load at h
  split at h
  · rename_i hi
    exact Except.ok.inj h ▸ List.mem_of_getElem? hi
  · exact absurd h (by simp)

theorem store_tame {f : Frame κ} {i : Nat} {d : Datum} {rest : List Datum}
    (hs : f.stack = d :: rest) : f.Tame ({ f with stack := rest }.store i d) := by
  refine ⟨rfl, fun cell hc => hc.elim (fun h => Or.inl ?_) fun h => ?_⟩
  · exact hs ▸ List.mem_cons_of_mem d h
  · rcases List.mem_or_eq_of_mem_set h with h | h
    · rcases List.mem_append.mp h with h | h
      · exact Or.inr h
      · exact absurd (List.eq_of_mem_replicate h) (by simp)
    · exact Or.inl (hs ▸ h ▸ List.mem_cons_self)

/-! ## Instructions -/

/-- **An object is put on the heap** (`Machine.pushObject`), in a cell that was empty. -/
theorem pushObject_atop {x : HeapObject κ} (h : m.pushObject x = .ok m') : Atop m m' := by
  obtain ⟨top, rest, hm, rfl⟩ := withTop_inv h
  refine ⟨⟨⟨rfl, rfl, rfl⟩, fun hs => hs.alloc hm x, fun hs cell y hy => ?_⟩,
    _, [], by rw [show m.frames = top :: rest from hm]; rfl⟩
  obtain ⟨hempty, hget⟩ := hs.heap.get?_alloc x
  refine (hget cell).trans ((if_neg fun hc => ?_).trans hy)
  rw [hc, hempty] at hy
  exact absurd hy (by simp)

theorem pushValue_atop {v : Value κ} (h : m.pushValue v = .ok m') : Atop m m' := by
  cases v with
  | nil => exact push_atop (by simp) h
  | int n => exact push_atop (by simp) h
  | str s => exact pushObject_atop h
  | message msg => exact pushObject_atop h
  | template t => exact pushObject_atop h

theorem pushFrame_inv {f : Frame κ} (h : m.pushFrame f = .ok m') :
    m.depth < m.maxFrames ∧ m' = { m with frames := f :: m.frames } := by
  unfold pushFrame at h
  split at h
  · rename_i hroom
    exact ⟨hroom, (Except.ok.inj h).symm⟩
  · exact absurd h (by simp)

theorem pushFrame_frames {f : Frame κ} (h : m.pushFrame f = .ok m') :
    Kin m m' ∧ m'.frames = f :: m.frames := by
  obtain ⟨-, rfl⟩ := pushFrame_inv h
  exact ⟨⟨rfl, rfl, rfl⟩, rfl⟩

/-- A frame that owns nothing can be started (`Machine.pushFrame`), if what it refers to is owned
below it. -/
theorem pushFrame_grown {f : Frame κ} (ho : f.owned = [])
    (hr : ∀ cell, f.Refers cell → cell ∈ ownedCells m.frames) (h : m.pushFrame f = .ok m') :
    Grown m m' := by
  obtain ⟨hroom, rfl⟩ := pushFrame_inv h
  exact ⟨⟨rfl, rfl, rfl⟩, fun hm => hm.enter ho hr hroom, fun _ _ _ => id⟩

theorem pushFrame_main {script : Script κ} (h : m.pushFrame (.main script) = .ok m') :
    Grown m m' :=
  pushFrame_grown rfl (fun _ hc => hc.elim (absurd · List.not_mem_nil)
    (absurd · List.not_mem_nil)) h

/-- Arguments are taken from the stack (`Frame.popMany`), so what they refer to is owned. -/
theorem popMany_atop {n : Nat} {op : String} {args : List Datum}
    (h : m.onTop (fun f => f.popMany n op) = .ok (args, m')) : Atop m m' ∧
      (m.Sound → ∀ cell, .ref cell ∈ args → cell ∈ ownedCells m'.frames) := by
  obtain ⟨top, rest, top', hm, hpop, rfl⟩ := onTop_inv h
  unfold Frame.popMany at hpop
  split at hpop
  · exact absurd hpop (by simp)
  · obtain ⟨rfl, rfl⟩ := Prod.mk.inj (Except.ok.inj hpop)
    refine ⟨retop_atop hm (shrink_tame (List.drop_subset _ _)), fun hs cell hc => ?_⟩
    have hg : Grounded (top :: rest) := hm ▸ hs.grounded
    have hstack := List.mem_of_mem_take (List.mem_reverse.mp hc)
    exact (grounded_cons.mp hg).1 cell (Or.inl hstack)

theorem popAddress_atop {op : String} {a : Address} (h : m.popAddress op = .ok (a, m')) :
    Atop m m' := by
  unfold popAddress at h
  obtain ⟨⟨d, m₁⟩, hpop, h⟩ := except_bind_inv h
  have hm := pop_atop (except_lift_inv hpop)
  dsimp only at h
  split at h
  case h_3 => exact absurd h (by simp)
  all_goals
    split at h
    · obtain ⟨-, rfl⟩ := Prod.mk.inj (Except.ok.inj h)
      exact hm
    · split at h
      · obtain ⟨-, rfl⟩ := Prod.mk.inj (Except.ok.inj h)
        exact hm
      · exact absurd h (by simp)

theorem popMessage_atop {op : String} {msg : Message} (h : m.popMessage op = .ok (msg, m')) :
    Atop m m' := by
  obtain ⟨⟨d, m₁⟩, hpop, h⟩ := except_bind_inv h
  obtain ⟨-, rfl⟩ := Prod.mk.inj (Except.ok.inj h)
  exact pop_atop (except_lift_inv hpop)

theorem popTemplate_atop {op : String} {t : Template κ} (h : m.popTemplate op = .ok (t, m')) :
    Atop m m' := by
  unfold popTemplate at h
  obtain ⟨⟨d, m₁⟩, hpop, h⟩ := except_bind_inv h
  dsimp only at h
  split at h
  · obtain ⟨-, rfl⟩ := Prod.mk.inj (Except.ok.inj h)
    exact pop_atop (except_lift_inv hpop)
  · exact absurd h (by simp)

theorem jumpIf_atop {op : String} {n : Int} {target : Nat} (h : m.jumpIf op n target = .ok m') :
    Atop m m' := by
  unfold jumpIf at h
  obtain ⟨⟨k, m₁⟩, htop, h⟩ := except_bind_inv h
  have hm : Atop m m₁ := onTop_atop htop fun top top' hf => by
    obtain ⟨k', -, hk⟩ := except_bind_inv hf
    obtain ⟨-, rfl⟩ := Prod.mk.inj (Except.ok.inj hk)
    exact popInt_tame top op
  dsimp only at h
  split at h
  · exact hm.trans (withTop_atop h fun top => jump_tame top target)
  · exact Except.ok.inj h ▸ hm

theorem call_atop {argc : Nat} {r : StepResult κ}
    (h : m.call argc = .ok r) : Atop m r.machine := by
  unfold call at h
  obtain ⟨⟨d, m₁⟩, hpop, h⟩ := except_bind_inv h
  have h₁ := pop_atop hpop
  cases d with
  | fn index =>
    obtain ⟨⟨args, m₂⟩, hpops, h⟩ := except_bind_inv h
    obtain ⟨hatop, hargs⟩ := popMany_atop hpops
    have h₂ := h₁.trans hatop
    obtain ⟨info, -, h⟩ := except_bind_inv h
    split at h
    · exact absurd h (by simp)
    · split at h
      · exact Except.ok.inj h ▸ h₂
      · obtain ⟨m₃, hpush, h⟩ := except_bind_inv h
        obtain ⟨hkin, hframes⟩ := pushFrame_frames hpush
        obtain ⟨top, tops, hm₂⟩ := h₂.frames
        refine Except.ok.inj h ▸ ⟨.of_sound (h₂.toKin.trans hkin) fun hs => ?_, _, top :: tops,
          hframes.trans (congrArg (List.cons _) hm₂)⟩
        refine h₂.toGrown.trans (pushFrame_grown rfl (fun cell hc => ?_) hpush)
        exact hargs (h₁.sound hs) cell (hc.resolve_left List.not_mem_nil)
      · exact absurd h (by simp)
  | nil => exact absurd h (by simp)
  | int n => exact absurd h (by simp)
  | ref cell => exact absurd h (by simp)

/-- **Instructions leave the frames below alone** (`Machine.step`). -/
theorem step_atop {i : Instr} {r : StepResult κ} (hne : m.frames ≠ [])
    (h : m.step i = .ok r) : Atop m r.machine := by
  have self : Atop m m := .refl hne
  cases i with
  | nop | ret | recvCount | mailCount | mailDq | read | discard =>
    exact Except.ok.inj h ▸ self
  | pushNil | pushInt =>
    obtain ⟨m₁, hpush, h⟩ := except_bind_inv h
    exact Except.ok.inj h ▸ push_atop (by simp) (except_lift_inv hpush)
  | pushStr | pushMsg | pushTemplate =>
    obtain ⟨x, -, h⟩ := except_bind_inv h
    obtain ⟨m₁, hpush, h⟩ := except_bind_inv h
    exact Except.ok.inj h ▸ pushObject_atop (except_lift_inv hpush)
  | pushFun =>
    obtain ⟨x, -, h⟩ := except_bind_inv h
    obtain ⟨m₁, hpush, h⟩ := except_bind_inv h
    exact Except.ok.inj h ▸ push_atop (by simp) (except_lift_inv hpush)
  | pushSelf =>
    obtain ⟨m₁, hpush, h⟩ := except_bind_inv h
    exact Except.ok.inj h ▸ pushObject_atop (except_lift_inv hpush)
  | pop =>
    obtain ⟨⟨d, m₁⟩, hpop, h⟩ := except_bind_inv h
    exact Except.ok.inj h ▸ pop_atop (except_lift_inv hpop)
  | dup =>
    obtain ⟨⟨⟨⟩, m₁⟩, htop, h⟩ := except_bind_inv h
    refine Except.ok.inj h ▸ onTop_atop (except_lift_inv htop) fun top top' hf => ?_
    obtain ⟨d, hpeek, hf⟩ := except_bind_inv hf
    obtain ⟨-, rfl⟩ := Prod.mk.inj (Except.ok.inj hf)
    exact repush_tame (Or.inl (mem_of_peek hpeek))
  | load i =>
    obtain ⟨⟨⟨⟩, m₁⟩, htop, h⟩ := except_bind_inv h
    refine Except.ok.inj h ▸ onTop_atop (except_lift_inv htop) fun top top' hf => ?_
    obtain ⟨d, hload, hf⟩ := except_bind_inv hf
    obtain ⟨-, rfl⟩ := Prod.mk.inj (Except.ok.inj hf)
    exact repush_tame (Or.inr (mem_of_load hload))
  | store i =>
    obtain ⟨⟨⟨⟩, m₁⟩, htop, h⟩ := except_bind_inv h
    refine Except.ok.inj h ▸ onTop_atop (except_lift_inv htop) fun top top' hf => ?_
    obtain ⟨⟨d, popped⟩, hpop, hf⟩ := except_bind_inv hf
    obtain ⟨-, rfl⟩ := Prod.mk.inj (Except.ok.inj hf)
    obtain ⟨rest, hs, rfl⟩ := pop_inv hpop
    exact store_tame hs
  | jump target =>
    obtain ⟨m₁, htop, h⟩ := except_bind_inv h
    exact Except.ok.inj h ▸ withTop_atop (except_lift_inv htop) fun top => jump_tame top target
  | jumpIfZero | jumpIfOne =>
    obtain ⟨m₁, hjump, h⟩ := except_bind_inv h
    exact Except.ok.inj h ▸ jumpIf_atop (except_lift_inv hjump)
  | call => exact call_atop (except_lift_inv h)
  | alloc =>
    obtain ⟨⟨t, m₁⟩, hpop, h⟩ := except_bind_inv h
    exact Except.ok.inj h ▸ popTemplate_atop hpop
  | run | kill | route | unroute =>
    obtain ⟨⟨a, m₁⟩, hpop, h⟩ := except_bind_inv h
    exact Except.ok.inj h ▸ popAddress_atop hpop
  | send | drop =>
    obtain ⟨⟨a, m₁⟩, hpop, h⟩ := except_bind_inv h
    obtain ⟨⟨msg, m₂⟩, hpop', h⟩ := except_bind_inv h
    exact Except.ok.inj h ▸ (popAddress_atop hpop).trans (popMessage_atop hpop')
  | recv =>
    obtain ⟨x, -, h⟩ := except_bind_inv h
    exact Except.ok.inj h ▸ self
  | raise =>
    obtain ⟨x, -, h⟩ := except_bind_inv h
    exact absurd h (by simp)

theorem fetch_inv {i : Instr} (h : m.fetch = some (i, m')) : ∃ top rest,
    m.frames = top :: rest ∧ top.fetch = some i ∧
      m' = { m with frames := { top with ip := top.ip + 1 } :: rest } := by
  unfold fetch at h
  split at h
  · exact absurd h (by simp)
  · rename_i top rest hm
    split at h
    · rename_i hf
      obtain ⟨rfl, rfl⟩ := Prod.mk.inj (Option.some.inj h)
      exact ⟨top, rest, hm, hf, rfl⟩
    · exact absurd h (by simp)

theorem fetch_atop {i : Instr} (h : m.fetch = some (i, m')) : Atop m m' := by
  obtain ⟨top, rest, hm, -, rfl⟩ := fetch_inv h
  exact retop_atop hm (jump_tame top _)

/-! ## The floor -/

/-- The frames below those above number `base`. -/
def floor (m : Machine κ) (base : Nat) : List (Frame κ) :=
  m.frames.drop (m.depth - base)

theorem floor_of_le (h : m.depth ≤ base) : m.floor base = m.frames := by
  unfold floor
  rw [Nat.sub_eq_zero_of_le h, List.drop_zero]

/-- Frames that come or go above the floor (`Machine.floor`) do not change it. -/
theorem drop_append_floor (xs : List (Frame κ)) {ys : List (Frame κ)} (h : base ≤ ys.length) :
    (xs ++ ys).drop ((xs ++ ys).length - base) = ys.drop (ys.length - base) := by
  rw [List.length_append, Nat.add_sub_assoc h, List.drop_append, List.drop_eq_nil_of_le (by omega),
    List.nil_append]
  congr 1
  omega

theorem floor_tail (h : base < m.depth) :
    m.floor base = m.frames.tail.drop (m.frames.tail.length - base) := by
  unfold floor depth at *
  cases hm : m.frames with
  | nil => exact absurd h (by simp [hm])
  | cons top rest =>
    rw [hm, List.length_cons] at h
    exact drop_append_floor [top] (Nat.le_of_lt_succ h)

/-- **The floor stays** (`Machine.floor`) while frames are put on the running one. -/
theorem Atop.floor (h : Atop m m') (hb : base < m.depth) :
    base < m'.depth ∧ m'.floor base = m.floor base := by
  obtain ⟨top, tops, hm⟩ := h.frames
  have hle : base ≤ m.frames.tail.length := by
    rw [List.length_tail]
    exact Nat.le_sub_one_of_lt hb
  refine ⟨?_, ?_⟩
  · unfold depth
    rw [hm, List.length_append, List.length_cons]
    omega
  · rw [floor_tail hb]
    unfold Machine.floor depth
    rw [hm]
    exact drop_append_floor (top :: tops) hle

/-- Work above number `base` keeps a machine sound, and keeps what the floor owns. -/
structure Spares (base : Nat) (m m' : Machine κ) : Prop extends Kin m m' where
  sound : m.Sound → m'.Sound
  kept : m.Sound → ∀ cell ∈ ownedCells (m.floor base), m'.heap.get? cell = m.heap.get? cell

theorem Spares.trans (h : Spares base m m') (h' : Spares base m' m'')
    (hf : m'.floor base = m.floor base) : Spares base m m'' :=
  ⟨h.toKin.trans h'.toKin, fun hm => h'.sound (h.sound hm), fun hm cell hc =>
    (h'.kept (h.sound hm) cell (hf ▸ hc)).trans (h.kept hm cell hc)⟩

theorem owned_of_floor {cell : Nat} (h : cell ∈ ownedCells (m.floor base)) :
    cell ∈ ownedCells m.frames := by
  unfold floor at h
  rw [← List.take_append_drop (m.depth - base) m.frames, ownedCells_append]
  exact List.mem_append_right _ h

theorem Grown.spares (h : Grown m m') : Spares base m m' := by
  refine ⟨h.toKin, h.sound, fun hm cell hc => ?_⟩
  obtain ⟨x, hx⟩ := hm.holds (owned_of_floor hc)
  rw [hx]
  exact h.kept hm cell x hx

theorem unwind_spares (m : Machine κ) (base : Nat) : Spares base m (m.unwind base) := by
  refine ⟨⟨rfl, rfl, rfl⟩, fun hm => hm.unwind base, fun hm cell hc => ?_⟩
  rw [unwind_eq]
  exact hm.get?_shed (List.take_append_drop _ _).symm hc

theorem leave_kin (m : Machine κ) (base : Nat) : Kin m (m.leave base).2 := by
  unfold leave
  split
  · exact .refl m
  · split
    · exact ⟨rfl, rfl, rfl⟩
    · split <;> exact ⟨rfl, rfl, rfl⟩

/-- A frame that ends (`Machine.leave`) spares what is below it. -/
theorem leave_spares {k : Nat} (h : k < m.depth) : Spares k m (m.leave base).2 := by
  refine ⟨m.leave_kin base, fun hm => hm.leave base, fun hm cell hc => ?_⟩
  obtain ⟨top, rest, hframes⟩ : ∃ top rest, m.frames = top :: rest :=
    List.exists_cons_of_length_pos (Nat.zero_lt_of_lt h)
  refine hm.get?_leave hframes ?_
  rw [floor_tail h, hframes, List.tail_cons] at hc
  rw [← List.take_append_drop (rest.length - k) rest, ownedCells_append]
  exact List.mem_append_right _ hc

/-- The end of the last frame above the floor (`Machine.leave`) leaves the floor. -/
theorem leave_last (h : m.depth = base + 1) : (m.leave base).2.frames = m.floor base := by
  rw [floor_tail (by omega)]
  unfold leave
  unfold depth at h
  split
  · rename_i hm
    exact absurd h (by simp [hm])
  · rename_i top rest hm
    have hlen : rest.length = base := by
      rw [hm, List.length_cons] at h
      exact Nat.succ.inj h
    rw [if_pos hlen, hm]
    simp [hlen]

/-- The end of a frame further up (`Machine.leave`) goes on with the frame below it. -/
theorem leave_caller {top caller : Frame κ} {below : List (Frame κ)}
    (hm : m.frames = top :: caller :: below) (hb : below.length + 1 ≠ base) :
    ∃ caller', (m.leave base).2.frames = caller' :: below := by
  rw [leave_eq_caller hm hb]
  exact ⟨_, rfl⟩

theorem leave_depth {k : Nat} (h : m.depth = k + 1) (hb : m.depth ≠ base + 1) :
    (m.leave base).2.depth = k := by
  match hm : m.frames with
  | [] => exact absurd h (by simp [depth, hm])
  | [top] =>
    unfold depth at h hb
    rw [hm, List.length_singleton] at h hb
    unfold leave depth
    rw [hm]
    dsimp only [List.length_nil]
    rw [if_neg fun h : 0 = base => hb (congrArg Nat.succ h)]
    exact Nat.succ.inj h
  | top :: caller :: below =>
    unfold depth at h hb
    rw [hm, List.length_cons, List.length_cons] at h hb
    have hne : below.length + 1 ≠ base := by omega
    obtain ⟨caller', hl⟩ := leave_caller hm hne
    unfold depth
    rw [hl]
    exact Nat.succ.inj h

/-- The end of a frame further up leaves what is below its caller where it is. -/
theorem leave_floor {k : Nat} (h : k + 1 < m.depth) (hb : m.depth ≠ base + 1) :
    k < (m.leave base).2.depth ∧ (m.leave base).2.floor k = m.floor k := by
  match hm : m.frames with
  | [] | [_] => exact absurd h (by simp [depth, hm])
  | top :: caller :: below =>
    unfold depth at h hb
    rw [hm, List.length_cons, List.length_cons] at h hb
    have hne : below.length + 1 ≠ base := by omega
    obtain ⟨caller', hl⟩ := leave_caller hm hne
    have hbelow : k ≤ below.length := by omega
    unfold floor depth
    rw [hl, hm]
    refine ⟨Nat.lt_succ_of_le hbelow, ?_⟩
    exact (drop_append_floor [caller'] hbelow).trans (drop_append_floor [top, caller] hbelow).symm

end Machine

end Troupe
