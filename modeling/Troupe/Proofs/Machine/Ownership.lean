import Mathlib.Data.List.Perm.Basic
import Troupe.Machine.Basic
import Troupe.Proofs.Machine.Heap

/-!
# Who owns the cells of a machine

A machine is *sound* (`Machine.Sound`) when its heap is in order (`Heap.Ok`), every occupied cell is
owned by one frame, and whatever a frame refers to (`Frame.Refers`) is owned by that frame or by one
below it (`Grounded`). What a frame refers to is then there, and it goes away no earlier than the
frame does.

Soundness is kept when frames hand cells to each other (`Sound.reframe`), when an object is put on
the heap for the running frame (`Sound.alloc`), and when frames end and their cells are emptied
(`Sound.shed`). A frame that ends (`ret`) hands its result to its caller first: `handOver_eq` says
that this changes the owner of one cell at most, and nothing else.

Headlines:
* **`Sound.alloc`**, **`Sound.shed`**, **`Sound.leave`**, **`Sound.unwind`**: machines stay sound.
* **`Sound.get?_leave`**: leaving a frame keeps what those below it own.
* `Sound.live_eq`: as many cells are occupied as frames own.
-/

namespace Troupe

variable {κ : App}

/-- The cells that frames own (`Frame.owned`). -/
def ownedCells (frames : List (Frame κ)) : List Nat :=
  frames.flatMap Frame.owned

@[simp] theorem ownedCells_cons (f : Frame κ) (frames : List (Frame κ)) :
    ownedCells (f :: frames) = f.owned ++ ownedCells frames :=
  List.flatMap_cons

@[simp] theorem ownedCells_append (tops rest : List (Frame κ)) :
    ownedCells (tops ++ rest) = ownedCells tops ++ ownedCells rest :=
  List.flatMap_append

namespace Frame

/-! ## References of a frame -/

/-- The frame has a reference to a cell on its stack or in a variable (`Frame.stack`,
`Frame.locals`). -/
def Refers (f : Frame κ) (cell : Nat) : Prop :=
  .ref cell ∈ f.stack ∨ .ref cell ∈ f.locals

/-- The frame `g` owns what `f` owns and refers to nothing else. -/
structure Tame (f g : Frame κ) : Prop where
  owned : g.owned = f.owned
  refers : ∀ cell, g.Refers cell → f.Refers cell

/-- What a frame leaves to its caller when it ends. -/
def result (f : Frame κ) : Datum :=
  f.stack.head?.getD .nil

theorem refers_of_result {f : Frame κ} {cell : Nat} (h : f.result = .ref cell) : f.Refers cell := by
  unfold result at h
  cases hs : f.stack with
  | nil => exact absurd h (by simp [hs])
  | cons d stack =>
    rw [hs] at h
    have hd : d = .ref cell := h
    exact Or.inl (hs ▸ hd ▸ List.mem_cons_self)

theorem refers_push {f : Frame κ} {d : Datum} {cell : Nat} (h : (f.push d).Refers cell) :
    d = .ref cell ∨ f.Refers cell := by
  rcases h with h | h
  · exact (List.mem_cons.mp h).imp Eq.symm Or.inl
  · exact Or.inr (Or.inr h)

/-! ## Handing cells over -/

theorem swapRemove_perm {xs : List Nat} {i : Nat} (h : i < xs.length) :
    (xs[i] :: swapRemove xs i).Perm xs := by
  rcases List.eq_nil_or_concat' xs with rfl | ⟨init, last, rfl⟩
  · exact absurd h (Nat.not_lt_zero _)
  · have hback : (last :: init).Perm (init ++ [last]) := (List.perm_append_singleton last init).symm
    unfold swapRemove
    rw [List.getLast?_concat]
    dsimp only
    rw [List.length_append] at h
    rcases Nat.eq_or_lt_of_le (Nat.le_of_lt_succ h) with rfl | hlt
    · simpa using hback
    · rw [List.set_append_left _ _ hlt, List.dropLast_concat, List.getElem_append_left hlt]
      calc (init[i] :: init.set i last).Perm (init[i] :: last :: init.eraseIdx i) :=
            (List.set_perm_cons_eraseIdx hlt last).cons _
        List.Perm _ (last :: init[i] :: init.eraseIdx i) := .swap _ _ _
        List.Perm _ (last :: init) := (List.getElem_cons_eraseIdx_perm hlt).cons _
        List.Perm _ (init ++ [last]) := hback

/-- A cell that is handed over (`Frame.give`) changes its owner, and nothing else changes. -/
theorem give_eq (f : Frame κ) (cell : Nat) (g : Frame κ) : ∃ kept taken,
    f.give cell g = ({ f with owned := kept }, { g with owned := taken }) ∧
      (kept ++ taken).Perm (f.owned ++ g.owned) ∧ (∀ c ∈ g.owned, c ∈ taken) ∧
        (cell ∈ f.owned → cell ∈ taken) := by
  unfold give
  cases hi : f.owned.findIdx? (· == cell) with
  | none =>
    refine ⟨_, _, rfl, .refl _, fun _ => id, fun hmem => ?_⟩
    rw [List.findIdx?_eq_none_iff] at hi
    exact absurd (hi cell hmem) (by simp)
  | some i =>
    obtain ⟨hlt, hcell, -⟩ := List.findIdx?_eq_some_iff_getElem.mp hi
    have hcell : f.owned[i] = cell := by simpa using hcell
    refine ⟨_, _, rfl, ?_, fun c hc => List.mem_append_left _ hc, fun _ => ?_⟩
    · have hperm := swapRemove_perm hlt
      rw [hcell] at hperm
      calc (swapRemove f.owned i ++ (g.owned ++ [cell])).Perm
              (cell :: swapRemove f.owned i ++ g.owned) := by
            rw [← List.append_assoc]
            exact List.perm_append_singleton _ _
        List.Perm _ (f.owned ++ g.owned) := hperm.append_right _
    · exact List.mem_append_right _ List.mem_cons_self

/-- A frame that ends and its caller, after the result has changed hands (`Frame.result`). -/
def handOver (top caller : Frame κ) : Frame κ × Frame κ :=
  match top.result with
  | .ref cell => top.give cell caller
  | _ => (top, caller)

/-- **Handing the result over** (`handOver`) makes the caller the owner of it if the frame was, and
changes nothing else. -/
theorem handOver_eq (top caller : Frame κ) : ∃ kept taken,
    handOver top caller = ({ top with owned := kept }, { caller with owned := taken }) ∧
      (kept ++ taken).Perm (top.owned ++ caller.owned) ∧ (∀ c ∈ caller.owned, c ∈ taken) ∧
        ∀ cell, top.result = .ref cell → cell ∈ top.owned → cell ∈ taken := by
  unfold handOver
  cases hd : top.result with
  | ref cell =>
    obtain ⟨kept, taken, heq, hperm, hsub, hgiven⟩ := give_eq top cell caller
    exact ⟨kept, taken, heq, hperm, hsub, fun c hc => Datum.ref.inj hc ▸ hgiven⟩
  | nil | int | fn => exact ⟨_, _, rfl, .refl _, fun _ => id, fun _ hc => absurd hc (by simp)⟩

end Frame

/-- Whatever a frame refers to (`Frame.Refers`) is owned by that frame or by one below it. -/
def Grounded (frames : List (Frame κ)) : Prop :=
  ∀ f below, f :: below <:+ frames → ∀ cell, f.Refers cell → cell ∈ ownedCells (f :: below)

theorem Grounded.nil : Grounded ([] : List (Frame κ)) :=
  fun _ _ h => absurd (List.suffix_nil.mp h) (by simp)

theorem grounded_cons {f : Frame κ} {below : List (Frame κ)} : Grounded (f :: below) ↔
    (∀ cell, f.Refers cell → cell ∈ ownedCells (f :: below)) ∧ Grounded below := by
  constructor
  · intro h
    exact ⟨h f below (List.suffix_refl _), fun g under hg =>
      h g under (hg.trans (List.suffix_cons f _))⟩
  · rintro ⟨hf, hbelow⟩ g under hg
    rcases List.suffix_cons_iff.mp hg with heq | hg
    · obtain ⟨rfl, rfl⟩ := List.cons.inj heq
      exact hf
    · exact hbelow g under hg

theorem Grounded.suffix {tops rest : List (Frame κ)} (h : Grounded (tops ++ rest)) :
    Grounded rest :=
  fun f below hf => h f below (hf.trans (List.suffix_append _ _))

namespace Machine

variable {m m' : Machine κ} {top caller : Frame κ} {rest tops frames below : List (Frame κ)}
  {base cell : Nat} {x : HeapObject κ}

/-! ## Sound machines -/

/-- Each occupied cell is owned by one frame (`ownedCells`); references point to cells of their
frame or of those below (`Grounded`); and the frames fit (`Machine.maxFrames`). -/
structure Sound (m : Machine κ) : Prop where
  heap : m.heap.Ok
  nodup : (ownedCells m.frames).Nodup
  live : ∀ cell, cell ∈ ownedCells m.frames ↔ (m.heap.get? cell).isSome
  grounded : Grounded m.frames
  depth : m.depth ≤ m.maxFrames

theorem sound_new (a : Address) (g limit : Nat) : (Machine.new (κ := κ) a g limit).Sound :=
  ⟨.empty, .nil, fun _ => iff_of_false List.not_mem_nil (by simp [new, Heap.get?]; rfl), .nil,
    Nat.zero_le _⟩

/-- Each cell that is owned (`ownedCells`) holds something. -/
theorem Sound.holds (h : m.Sound) (hc : cell ∈ ownedCells m.frames) :
    ∃ x, m.heap.get? cell = some x :=
  Option.isSome_iff_exists.mp ((h.live cell).mp hc)

/-- As many cells are occupied (`Heap.live`) as frames own. -/
theorem Sound.live_eq (h : m.Sound) : m.heap.live = (ownedCells m.frames).length :=
  h.heap.live_eq h.nodup h.live

/-- Frames change, and cells pass from one to another at most (`ownedCells`). -/
theorem Sound.reframe (h : m.Sound) (hp : (ownedCells frames).Perm (ownedCells m.frames))
    (hg : Grounded frames) (hd : frames.length ≤ m.maxFrames) : Sound { m with frames } :=
  ⟨h.heap, hp.nodup_iff.mpr h.nodup, fun c => hp.mem_iff.trans (h.live c), hg, hd⟩

/-- The running frame changes tamely (`Frame.Tame`). -/
theorem Sound.retop {top' : Frame κ} (h : m.Sound) (hm : m.frames = top :: rest)
    (ht : top.Tame top') : Sound { m with frames := top' :: rest } := by
  have howned : ownedCells (top' :: rest) = ownedCells m.frames := by
    rw [hm, ownedCells_cons, ownedCells_cons, ht.owned]
  have hg := grounded_cons.mp (hm ▸ h.grounded)
  refine h.reframe (howned ▸ .refl _) (grounded_cons.mpr ⟨fun cell hc => ?_, hg.2⟩) ?_
  · rw [howned, hm]
    exact hg.1 cell (ht.refers cell hc)
  · exact (congrArg List.length hm).symm.trans_le h.depth

/-- An operand is pushed (`Frame.push`). If it is a reference, its cell is there. -/
theorem Sound.push {d : Datum} (h : m.Sound) (hm : m.frames = top :: rest)
    (hd : ∀ cell, d = .ref cell → cell ∈ ownedCells m.frames) :
    Sound { m with frames := top.push d :: rest } := by
  have howned : ownedCells (top.push d :: rest) = ownedCells m.frames := by
    rw [hm]
    rfl
  have hg := grounded_cons.mp (hm ▸ h.grounded)
  refine h.reframe (howned ▸ .refl _) (grounded_cons.mpr ⟨fun cell hc => ?_, hg.2⟩) ?_
  · rw [howned]
    exact (Frame.refers_push hc).elim (hd cell) fun hc => hm ▸ hg.1 cell hc
  · exact (congrArg List.length hm).symm.trans_le h.depth

/-- A frame that owns nothing comes on top (`Frame.owned`). -/
theorem Sound.enter {f : Frame κ} (h : m.Sound) (ho : f.owned = [])
    (hr : ∀ cell, f.Refers cell → cell ∈ ownedCells m.frames) (hroom : m.depth < m.maxFrames) :
    Sound { m with frames := f :: m.frames } := by
  have howned : ownedCells (f :: m.frames) = ownedCells m.frames := by
    rw [ownedCells_cons, ho, List.nil_append]
  exact h.reframe (howned ▸ .refl _) (grounded_cons.mpr ⟨howned ▸ hr, h.grounded⟩) hroom

/-- **An object is put on the heap** (`Heap.alloc`) for the running frame. Its cell was empty. -/
theorem Sound.alloc (h : m.Sound) (hm : m.frames = top :: rest) (x : HeapObject κ) :
    Sound { m with
      heap := (m.heap.alloc x).2
      frames := { top with owned := top.owned ++ [(m.heap.alloc x).1] }.push
        (.ref (m.heap.alloc x).1) :: rest } := by
  obtain ⟨hempty, hget⟩ := h.heap.get?_alloc x
  have hfresh : (m.heap.alloc x).1 ∉ ownedCells m.frames := by
    rw [h.live, hempty]
    exact Bool.false_ne_true
  have howned : (ownedCells ({ top with owned := top.owned ++ [(m.heap.alloc x).1] }.push
      (.ref (m.heap.alloc x).1) :: rest)).Perm ((m.heap.alloc x).1 :: ownedCells m.frames) := by
    rw [hm, ownedCells_cons, ownedCells_cons]
    exact (List.perm_append_singleton _ _).append_right _
  have hg := grounded_cons.mp (hm ▸ h.grounded)
  refine ⟨h.heap.alloc x, howned.nodup_iff.mpr (List.nodup_cons.mpr ⟨hfresh, h.nodup⟩),
    fun c => ?_, grounded_cons.mpr ⟨fun c hc => ?_, hg.2⟩,
    (congrArg List.length hm).symm.trans_le h.depth⟩
  · rw [howned.mem_iff, List.mem_cons, hget, h.live]
    by_cases hc : c = (m.heap.alloc x).1
    · rw [if_pos hc]
      exact iff_of_true (Or.inl hc) rfl
    · rw [if_neg hc]
      exact or_iff_right hc
  · refine howned.mem_iff.mpr (List.mem_cons.mpr ?_)
    exact (Frame.refers_push hc).imp (fun hd => (Datum.ref.inj hd).symm) fun hc => hm ▸ hg.1 c hc

/-- **Frames end**, and what they owned goes (`Heap.releaseAll`). -/
theorem Sound.shed (h : m.Sound) (hm : m.frames = tops ++ rest) :
    Sound { m with heap := m.heap.releaseAll (ownedCells tops), frames := rest } := by
  have howned : ownedCells m.frames = ownedCells tops ++ ownedCells rest := by
    rw [hm, ownedCells_append]
  have hnodup := List.nodup_append'.mp (howned ▸ h.nodup)
  have hdepth := (congrArg List.length hm).symm.trans_le h.depth
  rw [List.length_append] at hdepth
  refine ⟨h.heap.releaseAll _, hnodup.2.1, fun c => ?_, Grounded.suffix (hm ▸ h.grounded),
    Nat.le_trans (Nat.le_add_left _ _) hdepth⟩
  have hc := h.live c
  rw [howned, List.mem_append] at hc
  rw [Heap.get?_releaseAll]
  by_cases ht : c ∈ ownedCells tops
  · rw [if_pos ht]
    exact iff_of_false (hnodup.2.2 ht) Bool.false_ne_true
  · rw [if_neg ht, ← hc]
    exact (or_iff_right ht).symm

/-- What the frames that stay own is kept. -/
theorem Sound.get?_shed (h : m.Sound) (hm : m.frames = tops ++ rest)
    (hc : cell ∈ ownedCells rest) :
    (m.heap.releaseAll (ownedCells tops)).get? cell = m.heap.get? cell := by
  have hnodup := h.nodup
  rw [hm, ownedCells_append] at hnodup
  rw [Heap.get?_releaseAll, if_neg fun ht => (List.nodup_append'.mp hnodup).2.2 ht hc]

/-! ## Leaving frames -/

/-- The frame above `base` ends. -/
theorem leave_eq_last (hm : m.frames = top :: rest) (hb : rest.length = base) :
    m.leave base = (top.stack.head?.map m.resolve,
      { m with heap := m.heap.releaseAll top.owned, frames := rest }) := by
  unfold leave
  rw [hm]
  exact if_pos hb

/-- **A frame further up ends**: its result is handed over and pushed (`handOver`). -/
theorem leave_eq_caller (hm : m.frames = top :: caller :: below) (hb : below.length + 1 ≠ base) :
    m.leave base = (none, { m with
      heap := m.heap.releaseAll (top.handOver caller).1.owned
      frames := (top.handOver caller).2.push top.result :: below }) := by
  unfold leave
  rw [hm]
  dsimp only
  rw [if_neg (by simpa using hb)]
  rfl

/-- A machine between the two halves of `leave`: the result has changed hands. -/
theorem Sound.handOver (h : m.Sound) (hm : m.frames = top :: caller :: below) :
    Sound { m with frames := (top.handOver caller).1 :: (top.handOver caller).2 :: below } := by
  obtain ⟨kept, taken, heq, hperm, hsub, -⟩ := top.handOver_eq caller
  rw [heq]
  have howned : (ownedCells ({ top with owned := kept } :: { caller with owned := taken } :: below
      )).Perm (ownedCells m.frames) := by
    rw [hm]
    simp only [ownedCells_cons, ← List.append_assoc]
    exact hperm.append_right _
  obtain ⟨htop, hg⟩ := grounded_cons.mp (hm ▸ h.grounded)
  obtain ⟨hcaller, hbelow⟩ := grounded_cons.mp hg
  refine h.reframe howned (grounded_cons.mpr ⟨fun c hc => ?_, grounded_cons.mpr ⟨fun c hc => ?_,
    hbelow⟩⟩) ((congrArg List.length hm).symm.trans_le h.depth)
  · exact howned.mem_iff.mpr (hm ▸ htop c hc)
  · have hmem := hcaller c hc
    rw [ownedCells_cons, List.mem_append] at hmem ⊢
    exact hmem.imp_left (hsub c)

theorem Sound.leave (h : m.Sound) (base : Nat) : (m.leave base).2.Sound := by
  match hm : m.frames with
  | [] =>
    unfold Machine.leave
    rw [hm]
    exact h
  | [top] =>
    have hshed := h.shed (show m.frames = [top] ++ [] from hm)
    unfold Machine.leave
    rw [hm]
    dsimp only
    split <;> simpa [ownedCells] using hshed
  | top :: caller :: below =>
    by_cases hb : below.length + 1 = base
    · rw [leave_eq_last hm hb]
      simpa [ownedCells] using h.shed (show m.frames = [top] ++ caller :: below from hm)
    · rw [leave_eq_caller hm hb]
      have hshed := (h.handOver hm).shed
        (show _ = [(top.handOver caller).1] ++ (top.handOver caller).2 :: below from rfl)
      rw [show ownedCells [(top.handOver caller).1] = (top.handOver caller).1.owned from
        List.append_nil _] at hshed
      refine hshed.push rfl fun cell hd => ?_
      obtain ⟨htop, -⟩ := grounded_cons.mp (hm ▸ h.grounded)
      obtain ⟨kept, taken, heq, -, hsub, hgiven⟩ := top.handOver_eq caller
      rw [heq]
      have hmem := htop cell (Frame.refers_of_result hd)
      simp only [ownedCells_cons, List.mem_append] at hmem ⊢
      rcases hmem with hmem | hmem | hmem
      · exact Or.inl (hgiven cell hd hmem)
      · exact Or.inl (hsub cell hmem)
      · exact Or.inr hmem

/-- **Leaving a frame keeps what those below it own** (`Machine.leave`). -/
theorem Sound.get?_leave (h : m.Sound) (hm : m.frames = top :: rest)
    (hc : cell ∈ ownedCells rest) : (m.leave base).2.heap.get? cell = m.heap.get? cell := by
  have hlast : (m.heap.releaseAll top.owned).get? cell = m.heap.get? cell := by
    simpa [ownedCells] using h.get?_shed (show m.frames = [top] ++ rest from hm) hc
  cases rest with
  | nil => exact absurd hc List.not_mem_nil
  | cons caller below =>
    by_cases hb : below.length + 1 = base
    · rw [leave_eq_last hm hb]
      exact hlast
    · rw [leave_eq_caller hm hb]
      have hshed (hc : cell ∈ ownedCells ((top.handOver caller).2 :: below)) :=
        (h.handOver hm).get?_shed
          (show _ = [(top.handOver caller).1] ++ (top.handOver caller).2 :: below from rfl) hc
      obtain ⟨kept, taken, heq, -, hsub, -⟩ := top.handOver_eq caller
      rw [heq] at hshed ⊢
      simp only [ownedCells_cons, List.mem_append] at hc
      refine (congrArg (fun is => (m.heap.releaseAll is).get? cell) ?_).trans (hshed ?_)
      · exact (List.append_nil kept).symm
      · rw [ownedCells_cons, List.mem_append]
        exact hc.imp_left (hsub cell)

/-- Leaving a frame (`Machine.leave`) puts nothing on the heap. -/
theorem get?_of_leave (h : (m.leave base).2.heap.get? cell = some x) :
    m.heap.get? cell = some x := by
  have release (is : List Nat) (h : (m.heap.releaseAll is).get? cell = some x) :
      m.heap.get? cell = some x := by
    rw [Heap.get?_releaseAll] at h
    split at h
    · exact absurd h (by simp)
    · exact h
  unfold leave at h
  split at h
  · exact h
  · split at h
    · exact release _ h
    · split at h
      · exact release _ h
      · exact release _ h

/-- Frames that are unwound (`Machine.unwind`) are shed. -/
theorem unwind_eq (m : Machine κ) (base : Nat) : m.unwind base = { m with
    heap := m.heap.releaseAll (ownedCells (m.frames.take (m.depth - base)))
    frames := m.frames.drop (m.depth - base) } := by
  have hfold (h : Heap (HeapObject κ)) (frames : List (Frame κ)) :
      frames.foldl (fun h f => h.releaseAll f.owned) h = h.releaseAll (ownedCells frames) := by
    induction frames generalizing h with
    | nil => rfl
    | cons f frames ih =>
      rw [List.foldl_cons, ih, ownedCells_cons, Heap.releaseAll_append]
  unfold unwind
  dsimp only
  rw [hfold]
  rfl

theorem Sound.unwind (h : m.Sound) (base : Nat) : (m.unwind base).Sound := by
  rw [unwind_eq]
  exact h.shed (List.take_append_drop _ _).symm

end Machine

end Troupe
