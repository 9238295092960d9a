import Troupe.Proofs.Event.Hearing
import Troupe.Proofs.Stage.Leavings
import Troupe.Proofs.Stage.Removal

/-!
# Removal in closed form

`Stage.terminate` goes down a tree that shrinks under its hands. What comes of it can be said
without that: the live actors at and below an address are swept (`Platform.Sweep`), each after all
below it, and of everything that is kept by address the entries of those swept are left out
(`Platform.without`). Each of them whose code is not running gets its last call (`Stage.farewell`).

`Platform.Neat` is what this needs of a platform: nobody waits twice, and no group is empty. It
holds of every platform in order (`Inv.neat`), and `Neat.dismiss_eq` says that dismissing one actor
leaves its address out.

The proof goes down as `Stage.terminateWithin` does, level by level (`Levels`, `Sweeps`): what is
swept below the children of an address is what lives below it (`Sweep.mem_children`), each sweep
leaves fewer to the next (`Sweeps.foldl`), and the actor itself comes last (`Sweep.parent`).

Headlines:
* **`Platform.without_append`**: leaving out some addresses, then others, is leaving out all.
* **`Stage.removeAll_eq`**: removing live actors one by one leaves them out together.
* **`Stage.terminate_sweep`**: removing an actor sweeps its subtree, from the leaves up.
* **`Stage.terminate_again`**, **`Stage.terminate_comm`**: removing again changes nothing, and of
  two removals the order is told on the bus only.
-/

namespace Troupe

variable {κ : App}

namespace Platform

variable {p : Platform κ} {a k : Address} {as bs : List Address}

/-! ## Leaving addresses out -/

/-- The platform without some actors: nothing that is kept by address is kept for them, but for
tasks that are not finished, the run queue and the slots that are running. -/
def without (p : Platform κ) (as : List Address) : Platform κ :=
  { p with
    contexts := p.contexts.retain fun k _ => k ∉ as
    routes := p.routes.retain fun target router => target ∉ as ∧ router ∉ as
    groups := (p.groups.mapValues fun _ set => set.retain fun k _ => k ∉ as).retain
      fun _ set => !set.isEmpty
    pending := p.pending.retain fun k _ => k ∉ as
    blocked := p.blocked.retain fun k _ => k ∉ as
    entries := p.entries.retain fun _ e => e.owner ∉ as ∨ e.outcome = none
    waitQueue := p.waitQueue.filter (· ∉ as)
    queued := p.queued.retain fun k _ => k ∉ as ∨ k ∉ p.waitQueue
    bus := p.bus.publishAll (as.map (.about .actorRemoved)) }

theorem Table.retain_retain {κ ν : Type} [Ord κ] (t : Table κ ν) (f g : κ → ν → Bool) :
    (t.retain f).retain g = t.retain fun k v => f k v && g k v := by
  simp only [Table.retain, List.filter_filter, Bool.and_comm]

/-- Addresses that are left out one after another are left out (`Table.retain`). -/
theorem retain_notMem_append {ν : Type} (t : Table Address ν) (as bs : List Address) :
    (t.retain fun k _ => k ∉ as).retain (fun k _ => k ∉ bs) = t.retain fun k _ => k ∉ as ++ bs := by
  rw [Table.retain_retain]
  congr 1
  funext k _
  rw [← Bool.decide_and, decide_eq_decide, List.mem_append, not_or]

/-- The groups that are left when some members leave (`without`) are those that others are in. -/
theorem get?_groups_without (p : Platform κ) (as : List Address) (group : String) :
    (p.without as).groups.get? group =
      ((p.groups.get? group).map fun set => set.retain fun k _ => k ∉ as).filter
        fun set => !set.isEmpty := by
  show Table.get? (Table.retain _ _) group = _
  rw [Table.get?_retain, Table.get?_mapValues]

theorem groups_without_append (p : Platform κ) (as bs : List Address) :
    ((p.without as).without bs).groups = (p.without (as ++ bs)).groups := by
  refine Table.ext_get? fun group => ?_
  rw [get?_groups_without, get?_groups_without, get?_groups_without]
  cases p.groups.get? group with
  | none => rfl
  | some set =>
    rw [Option.map_some, Option.map_some, ← retain_notMem_append]
    generalize hrest : set.retain (fun k _ => decide (k ∉ as)) = rest
    by_cases he : rest.isEmpty = true
    · -- a group that is gone has nobody left to leave
      have hstill : (rest.retain fun k _ => decide (k ∉ bs)).isEmpty = true := by
        rw [Table.isEmpty_iff] at he ⊢
        intro k
        rw [Table.get?_retain, he k]
        rfl
      simp only [Option.filter_some, he, hstill, Bool.not_true, Option.map_none,
        Option.filter_none, Bool.false_eq_true, if_false]
    · simp only [Option.map_some, Option.filter_some, he, Bool.not_false, if_true]

/-- **Leaving out** (`without`) some addresses, then others, is leaving out all of them. -/
theorem without_append (p : Platform κ) (as bs : List Address) :
    (p.without as).without bs = p.without (as ++ bs) := by
  have hboth (k : Address) : k ∉ as ++ bs ↔ k ∉ as ∧ k ∉ bs := by
    rw [List.mem_append, not_or]
  have hgroups := groups_without_append p as bs
  unfold without at hgroups ⊢
  congr 1
  case e_contexts => exact retain_notMem_append _ as bs
  case e_routes =>
    rw [Table.retain_retain]
    congr 1
    funext target router
    rw [← Bool.decide_and, decide_eq_decide, hboth, hboth]
    exact and_and_and_comm
  case e_bus =>
    rw [List.map_append, Bus.publishAll_append]
  case e_waitQueue =>
    dsimp only
    rw [List.filter_filter]
    congr 1
    funext k
    rw [← Bool.decide_and, decide_eq_decide, hboth]
    exact and_comm
  case e_queued =>
    dsimp only
    rw [Table.retain_retain]
    congr 1
    funext k _
    rw [← Bool.decide_and, decide_eq_decide, hboth, List.mem_filter, decide_eq_true_iff]
    tauto
  case e_pending => exact retain_notMem_append _ as bs
  case e_blocked => exact retain_notMem_append _ as bs
  case e_entries =>
    dsimp only
    rw [Table.retain_retain]
    congr 1
    funext _ e
    rw [← Bool.decide_and, decide_eq_decide, hboth, and_or_right]

/-- The order in which addresses are left out is told on the bus only (`without`). -/
theorem without_congr (p : Platform κ) (h : ∀ k, k ∈ as ↔ k ∈ bs) :
    p.without as = { p.without bs with bus := (p.without as).bus } := by
  unfold without
  simp only [h]

/-- Nobody waits twice (`Platform.waitQueue`), and no group is empty (`Platform.groups`). -/
structure Neat (p : Platform κ) : Prop where
  waiting : p.waitQueue.Nodup
  inhabited : ∀ group set, p.groups.get? group = some set → set.isEmpty = false

theorem Inv.neat (h : p.Inv) : p.Neat :=
  ⟨h.queues.lined.wait_nodup, h.table.inhabited⟩

theorem Neat.without (h : p.Neat) (as : List Address) : (p.without as).Neat := by
  refine ⟨h.waiting.filter _, fun group set hset => ?_⟩
  rw [get?_groups_without, Option.filter_eq_some_iff] at hset
  simpa using hset.2

theorem Table.retain_eq_self {κ ν : Type} [Ord κ] [DecidableEq κ] [Std.LawfulEqOrd κ]
    [Std.TransOrd κ] {t : Table κ ν} {f : κ → ν → Bool}
    (hf : ∀ k v, t.get? k = some v → f k v = true) : t.retain f = t := by
  refine Table.ext_get? fun k => ?_
  rw [Table.get?_retain]
  cases hk : t.get? k with
  | none => rfl
  | some v => exact Option.filter_some_pos (hf k v hk)

/-- Leaving nobody out (`without`) changes nothing. -/
theorem Neat.without_nil (h : p.Neat) : p.without [] = p := by
  have hgroups : (p.without []).groups = p.groups := by
    refine Table.ext_get? fun group => ?_
    rw [get?_groups_without]
    cases hset : p.groups.get? group with
    | none => rfl
    | some set =>
      rw [Option.map_some, Table.retain_eq_self (by simp), Option.filter_some,
        h.inhabited group set hset]
      rfl
  unfold Platform.without at hgroups ⊢
  dsimp only at hgroups
  rw [hgroups]
  have hwaiting : p.waitQueue.filter (fun k => k ∉ []) = p.waitQueue :=
    List.filter_eq_self.mpr (by simp)
  rw [hwaiting]
  congr 1 <;> exact Table.retain_eq_self (by simp)

/-! ### One at a time -/

/-- Those that wait when one address is left out (`without`). -/
theorem Neat.waiting_without (h : p.Neat) (a : Address) :
    (p.without [a]).waitQueue = p.waitQueue.erase a ∧
      (p.without [a]).queued = if a ∈ p.waitQueue then p.queued.erase a else p.queued := by
  refine ⟨?_, ?_⟩
  · rw [h.waiting.erase_eq_filter]
    refine List.filter_congr fun k _ => ?_
    rw [Bool.eq_iff_iff]
    simp
  · show (p.queued.retain fun k _ => k ∉ [a] ∨ k ∉ p.waitQueue) = _
    split
    · rename_i ha
      unfold Table.erase
      congr 1
      funext k _
      rw [decide_eq_decide, List.mem_singleton]
      exact or_iff_left_of_imp fun hk he => hk (he ▸ ha)
    · rename_i ha
      refine Table.retain_eq_self fun k _ _ => decide_eq_true ?_
      rw [List.mem_singleton]
      exact (ne_or_eq k a).imp_right fun he => by rwa [he]

/-- **Dismissing an actor** (`Platform.dismiss`) leaves its address out (`without`). -/
theorem Neat.dismiss_eq (h : p.Neat) (a : Address) : p.dismiss a = p.without [a] := by
  obtain ⟨queued, waitQueue, hd, hq⟩ := Platform.dismiss_eq p a
  obtain ⟨hwait, hqueued⟩ := h.waiting_without a
  have hwaits : waitQueue = (p.without [a]).waitQueue ∧ queued = (p.without [a]).queued := by
    rw [hwait, hqueued]
    rcases hq with ⟨ha, rfl, rfl⟩ | ⟨ha, rfl, rfl⟩
    · exact ⟨rfl, (if_pos ha).symm⟩
    · exact ⟨(List.erase_of_not_mem ha).symm, (if_neg ha).symm⟩
  obtain ⟨rfl, rfl⟩ := hwaits
  rw [hd]
  unfold Platform.without Table.erase
  simp only [List.mem_singleton, List.map_cons, List.map_nil]
  congr 1
  case e_routes =>
    congr 1
    funext target router
    rw [Bool.eq_iff_iff]
    simp
  case e_entries =>
    congr 1
    funext _ e
    rw [Bool.eq_iff_iff]
    simp

/-! ### What is left -/

theorem context?_without :
    (p.without as).context? k = if k ∈ as then none else p.context? k := by
  show Table.get? (Table.retain _ _) k = _
  rw [Table.get?_retain]
  unfold context?
  split
  · rename_i hk
    cases p.contexts.get? k <;> simp [hk]
  · rename_i hk
    cases p.contexts.get? k <;> simp [hk]

theorem context?_without_eq_some {c : Context κ} :
    (p.without as).context? k = some c ↔ k ∉ as ∧ p.context? k = some c := by
  rw [context?_without]
  split <;> simp_all

/-- The members that are left (`without`) are the others. -/
theorem mem_members_without {group : String} :
    k ∈ (p.without as).members group ↔ k ∉ as ∧ k ∈ p.members group := by
  have hleft (set : AddressSet) : (set.retain fun k _ => k ∉ as).contains k = true ↔
      k ∉ as ∧ set.contains k = true := by
    rw [Table.contains_eq, Table.get?_retain, Table.contains_eq]
    by_cases hk : k ∈ as <;> cases set.get? k <;> simp [hk]
  rw [mem_members_iff, mem_members_iff, get?_groups_without]
  constructor
  · rintro ⟨set, hset, hk⟩
    obtain ⟨hmap, -⟩ := Option.filter_eq_some_iff.mp hset
    obtain ⟨old, hold, rfl⟩ := Option.map_eq_some_iff.mp hmap
    obtain ⟨hnot, hk⟩ := (hleft old).mp hk
    exact ⟨hnot, old, hold, hk⟩
  · rintro ⟨hnot, set, hset, hk⟩
    have hk' := (hleft set).mpr ⟨hnot, hk⟩
    refine ⟨_, Option.filter_eq_some_iff.mpr ⟨Option.map_eq_some_iff.mpr ⟨set, hset, rfl⟩, ?_⟩, hk'⟩
    rw [Table.isEmpty_of_contains hk']
    rfl

/-! ## Sweeps -/

/-- The live actors at and below some addresses (`Address.Within`), each after all that live below
it. -/
structure Sweep (p : Platform κ) (as xs : List Address) : Prop where
  distinct : xs.Nodup
  mem : ∀ k, k ∈ xs ↔ p.isLive k = true ∧ ∃ a ∈ as, k.Within a
  upward : xs.Pairwise fun x y => y.isBelow x = false

theorem Sweep.nil (p : Platform κ) : Sweep p [] [] :=
  ⟨List.nodup_nil, fun _ => ⟨fun h => absurd h List.not_mem_nil, fun ⟨_, _, h, _⟩ =>
    absurd h List.not_mem_nil⟩, .nil⟩

theorem Sweep.none (h : ∀ k c, p.context? k = some c → ¬ k.Within a) : Sweep p [a] [] := by
  refine ⟨List.nodup_nil, fun k => ⟨fun h => absurd h List.not_mem_nil, fun ⟨hk, b, hb, hor⟩ => ?_⟩,
    .nil⟩
  obtain ⟨c, hc⟩ := isLive_iff.mp hk
  exact absurd (List.mem_singleton.mp hb ▸ hor) (h k c hc)

/-- What is swept later is what the first sweep left (`without`). -/
theorem Sweep.cons {xs ys : List Address} (h : Sweep p [a] xs) (h' : Sweep (p.without xs) as ys) :
    Sweep p (a :: as) (xs ++ ys) := by
  have hleft (k : Address) : (p.without xs).isLive k = true ↔ k ∉ xs ∧ p.isLive k = true := by
    rw [isLive_iff, isLive_iff]
    simp only [context?_without_eq_some, exists_and_left]
  have hlater (k : Address) (hk : k ∈ ys) : k ∉ xs ∧ p.isLive k = true :=
    (hleft k).mp ((h'.mem k).mp hk).1
  have hfirst (k : Address) : k ∈ xs ↔ p.isLive k = true ∧ k.Within a := by
    rw [h.mem k]
    simp only [List.mem_singleton, exists_eq_left]
  refine ⟨?_, fun k => ?_, ?_⟩
  · exact List.nodup_append.mpr ⟨h.distinct, h'.distinct, fun x hx y hy hxy =>
      (hlater y hy).1 (hxy ▸ hx)⟩
  · rw [List.mem_append, h'.mem, hleft, List.exists_mem_cons_iff]
    constructor
    · rintro (hk | ⟨⟨-, hl⟩, hk⟩)
      · obtain ⟨hl, hk⟩ := (hfirst k).mp hk
        exact ⟨hl, Or.inl hk⟩
      · exact ⟨hl, Or.inr hk⟩
    · rintro ⟨hl, hk⟩
      by_cases hx : k ∈ xs
      · exact Or.inl hx
      · exact Or.inr ⟨⟨hx, hl⟩, hk.resolve_left fun hk => hx ((hfirst k).mpr ⟨hl, hk⟩)⟩
  · refine List.pairwise_append.mpr ⟨h.upward, h'.upward, fun x hx y hy => ?_⟩
    obtain ⟨hnot, hl⟩ := hlater y hy
    rw [← Bool.not_eq_true]
    intro hyx
    exact hnot ((hfirst y).mpr ⟨hl, Address.Within.trans (Or.inr hyx) ((hfirst x).mp hx).2⟩)

/-- Nothing can live below the discard address (`Platform.contains`). -/
theorem TableInv.ne_discard (h : p.TableInv) (ha : p.contains a = true) : a ≠ .discard := by
  rintro rfl
  rcases contains_iff.mp ha with hr | ⟨c, hc⟩
  · exact absurd hr (by simp [Address.root])
  · exact (h.placed _ c hc).2 rfl

/-- What is swept at and below the children of an address (`Platform.directChildren`) is what lives
below it. -/
theorem Sweep.mem_children {xs : List Address} (ht : p.TableInv)
    (h : Sweep p (p.directChildren a) xs) (k : Address) :
    k ∈ xs ↔ p.isLive k = true ∧ k.isBelow a = true := by
  rw [h.mem k, isLive_iff]
  refine and_congr_right fun hlive => ?_
  obtain ⟨c, hc⟩ := hlive
  constructor
  · rintro ⟨x, hx, hk⟩
    obtain ⟨⟨d, hd⟩, hparent⟩ := (mem_directChildren_iff ht.placed).mp hx
    have hxa := isBelow_of_parent_eq ht hd hparent
    exact hk.elim (fun he => he ▸ hxa) fun hb => Address.isBelow_trans hb hxa
  · intro hb
    obtain ⟨x, hx, hparent, hk⟩ := exists_child ht hc hb
    exact ⟨x, (mem_directChildren_iff ht.placed).mpr ⟨hx, hparent⟩, hk⟩

/-- The children are swept, then the actor itself, if it is one. -/
theorem Sweep.parent {xs : List Address} (ht : p.TableInv) (ha : p.contains a = true)
    (h : Sweep p (p.directChildren a) xs) : Sweep p [a] (if a.isRoot then xs else xs ++ [a]) := by
  have hbelow := h.mem_children ht
  have hroot : a.isRoot = true ↔ p.isLive a = false := by
    rw [← Bool.not_eq_true, isLive_iff, Address.isRoot, beq_iff_eq]
    constructor
    · rintro hr ⟨c, hc⟩
      exact (ht.placed a c hc).1 hr
    · exact (contains_iff.mp ha).resolve_right
  have hnot : a ∉ xs := fun hx => absurd ((hbelow a).mp hx).2 (by simp [Address.isBelow_irrefl])
  split
  · rename_i hr
    refine ⟨h.distinct, fun k => ?_, h.upward⟩
    rw [hbelow]
    simp only [List.mem_singleton, exists_eq_left]
    refine and_congr_right fun hl => ⟨Or.inr, fun hk => hk.resolve_left ?_⟩
    rintro rfl
    exact absurd (hl.symm.trans (hroot.mp hr)) (by simp)
  · rename_i hr
    refine ⟨?_, fun k => ?_, ?_⟩
    · exact List.nodup_append.mpr ⟨h.distinct, List.nodup_singleton a, fun x hx y hy hxy =>
        hnot (List.mem_singleton.mp hy ▸ hxy ▸ hx)⟩
    · rw [List.mem_append, hbelow]
      simp only [List.mem_singleton, exists_eq_left]
      constructor
      · rintro (⟨hl, hk⟩ | rfl)
        · exact ⟨hl, Or.inr hk⟩
        · exact ⟨by simpa [hroot] using hr, Or.inl rfl⟩
      · rintro ⟨hl, rfl | hk⟩
        · exact Or.inr rfl
        · exact Or.inl ⟨hl, hk⟩
    · refine List.pairwise_append.mpr ⟨h.upward, List.pairwise_singleton _ _, fun x hx y hy => ?_⟩
      obtain rfl := List.mem_singleton.mp hy
      rw [← Bool.not_eq_true]
      exact fun hb => absurd (Address.depth_lt_of_isBelow hb)
        (Nat.lt_asymm (Address.depth_lt_of_isBelow ((hbelow x).mp hx).2))

end Platform

namespace Stage

open Platform

variable {code : Code κ} {s : Stage κ} {a : Address} {n : Nat}

/-! ## Removing in order -/

/-- Removes actors (`Stage.remove`), one after another. -/
def removeAll (code : Code κ) (as : List Address) (s : Stage κ) : Stage κ :=
  as.foldl (fun s a => s.remove code a) s

/-- The last call of the actor at an address (`Code.stop`), if it is at hand there. -/
def farewell (code : Code κ) (p : Platform κ) (w : κ.World) (a : Address) : κ.World :=
  match (p.context? a).bind Context.actor with
  | some actor => code.stop actor w
  | none => w

/-- **Removing a live actor** (`remove`) leaves its address out (`Platform.without`). -/
theorem remove_eq (h : s.platform.Neat) (ha : s.platform.isLive a = true) :
    s.remove code a =
      { s with
        platform := s.platform.without [a]
        world := farewell code s.platform s.world a } := by
  obtain ⟨c, hc⟩ := isLive_iff.mp ha
  rw [remove_some code hc, h.dismiss_eq]
  unfold farewell
  rw [hc]
  rfl

/-- Others are still there to get their last calls (`farewell`). -/
theorem foldl_farewell_without {as bs : List Address} (h : ∀ a ∈ as, a ∉ bs) (p : Platform κ)
    (w : κ.World) : as.foldl (farewell code (p.without bs)) w = as.foldl (farewell code p) w := by
  refine List.foldl_ext _ _ w fun v a ha => ?_
  unfold farewell
  rw [context?_without, if_neg (h a ha)]

/-- **Removing** live actors one by one (`removeAll`) leaves them out together, and each gets its
last call. -/
theorem removeAll_eq (code : Code κ) (as : List Address) : ∀ s : Stage κ, s.platform.Neat →
    as.Nodup → (∀ a ∈ as, s.platform.isLive a = true) →
    s.removeAll code as =
      { s with
        platform := s.platform.without as
        world := as.foldl (farewell code s.platform) s.world } := by
  induction as with
  | nil =>
    intro s h _ _
    rw [h.without_nil]
    rfl
  | cons a as ih =>
    intro s h hnodup hlive
    obtain ⟨hnot, hnodup⟩ := List.nodup_cons.mp hnodup
    have hothers (b : Address) (hb : b ∈ as) : b ∉ [a] :=
      fun hba => hnot (List.mem_singleton.mp hba ▸ hb)
    have hrest := ih (s.remove code a)
    rw [remove_eq h (hlive a List.mem_cons_self)] at hrest
    refine Eq.trans ?_ ((hrest (h.without [a]) hnodup fun b hb => ?_).trans ?_)
    · rw [removeAll, List.foldl_cons, remove_eq h (hlive a List.mem_cons_self)]
      rfl
    · obtain ⟨c, hc⟩ := isLive_iff.mp (hlive b (List.mem_cons_of_mem a hb))
      exact isLive_iff.mpr ⟨c, context?_without_eq_some.mpr ⟨hothers b hb, hc⟩⟩
    · rw [without_append, foldl_farewell_without hothers]
      rfl

theorem removeAll_append (as bs : List Address) (s : Stage κ) :
    s.removeAll code (as ++ bs) = (s.removeAll code as).removeAll code bs :=
  List.foldl_append

/-- What is swept (`Sweep`) is there to be removed. -/
theorem removeAll_of_sweep (code : Code κ) {as xs : List Address} (h : s.platform.Neat)
    (hx : Sweep s.platform as xs) :
    s.removeAll code xs =
      { s with
        platform := s.platform.without xs
        world := xs.foldl (farewell code s.platform) s.world } :=
  removeAll_eq code xs s h hx.distinct fun a ha => ((hx.mem a).mp ha).1

/-! ## Going down -/

/-- A function that sweeps what is below an address (`Sweep`). -/
def Sweeps (code : Code κ) (n : Nat) (f : Stage κ → Address → Stage κ) : Prop :=
  ∀ a s, s.platform.TableInv → s.platform.Neat → s.Levels n a →
    Cleared [a] s (f s a) ∧ ∃ xs, Sweep s.platform [a] xs ∧ f s a = s.removeAll code xs

/-- One address after another; each sweep leaves fewer to the next. -/
theorem Sweeps.foldl {f : Stage κ → Address → Stage κ} (hf : Sweeps code n f) (as : List Address) :
    ∀ s, s.platform.TableInv → s.platform.Neat → (∀ a ∈ as, s.Levels n a) →
      ∃ xs, Sweep s.platform as xs ∧ as.foldl f s = s.removeAll code xs := by
  induction as with
  | nil => exact fun s _ _ _ => ⟨[], .nil _, rfl⟩
  | cons a as ih =>
    intro s ht hn hl
    obtain ⟨hclear, xs, hx, hfirst⟩ := hf a s ht hn (hl a List.mem_cons_self)
    have hrest := removeAll_of_sweep code hn hx
    have hp : (f s a).platform = s.platform.without xs := by rw [hfirst, hrest]
    obtain ⟨ys, hy, hlater⟩ := ih (f s a) (hclear.table ht) (hp ▸ hn.without xs)
      fun b hb k c hk => hl b (List.mem_cons_of_mem a hb) k c (hclear.live hk).1
    refine ⟨xs ++ ys, hx.cons (hp ▸ hy), ?_⟩
    rw [List.foldl_cons, hlater, removeAll_append, hfirst]

/-- Terminating within `n` steps sweeps if nothing lives deeper. -/
theorem terminateWithin_sweep (n : Nat) : ∀ (a : Address) (s : Stage κ), s.platform.TableInv →
    s.platform.Neat → s.Levels n a →
      ∃ xs, Sweep s.platform [a] xs ∧ terminateWithin code n a s = s.removeAll code xs := by
  induction n with
  | zero =>
    intro a s _ _ hl
    refine ⟨[], .none fun k c hc => ?_, rfl⟩
    obtain ⟨hne, hnb⟩ := hl.zero hc
    exact not_or.mpr ⟨hne, by simp [hnb]⟩
  | succ n ih =>
    intro a s ht hn hl
    rw [terminateWithin]
    by_cases hlive : s.platform.contains a = true
    · rw [if_pos hlive]
      have hsweeps : Sweeps code n fun s c => terminateWithin code n c s :=
        fun b s ht hn hl => ⟨terminateWithin_cleared n b s ht hl, ih b s ht hn hl⟩
      obtain ⟨xs, hx, hchildren⟩ := hsweeps.foldl (s.platform.directChildren a) s ht hn
        fun k hk => hl.child ht hk
      refine ⟨_, hx.parent ht hlive, ?_⟩
      dsimp only
      rw [hchildren]
      split
      · rfl
      · exact (removeAll_append xs [a] s).symm
    · rw [if_neg hlive]
      refine ⟨[], .none fun k c hc hk => hlive ?_, rfl⟩
      rcases hk with rfl | hb
      · exact contains_iff.mpr (Or.inr ⟨c, hc⟩)
      · exact contains_of_isBelow ht hc hb

/-- **Removing an actor** (`terminate`) sweeps its subtree, from the leaves up. -/
theorem terminate_sweep (code : Code κ) (a : Address) (ht : s.platform.TableInv)
    (hn : s.platform.Neat) :
    ∃ xs, Sweep s.platform [a] xs ∧ s.terminate code a = s.removeAll code xs := by
  refine terminateWithin_sweep _ a s ht hn fun k c hk _ => ?_
  have hle := ht.depth_le_size hk
  omega

section Terminate

variable (ht : s.platform.TableInv) (hn : s.platform.Neat)

include ht hn

/-- Removing an actor (`terminate`) leaves the platform neat. -/
theorem terminate_neat (code : Code κ) (a : Address) : (s.terminate code a).platform.Neat := by
  obtain ⟨xs, hx, hs⟩ := terminate_sweep code a ht hn
  rw [hs, removeAll_of_sweep code hn hx]
  exact hn.without xs

/-- Where nobody lives, nothing is removed (`terminate`). -/
theorem terminate_vacant (h : ∀ k c, s.platform.context? k = some c → ¬ k.Within a) :
    s.terminate code a = s := by
  obtain ⟨xs, hx, hs⟩ := terminate_sweep code a ht hn
  have hempty : xs = [] := by
    refine List.eq_nil_iff_forall_not_mem.mpr fun k hk => ?_
    obtain ⟨hl, b, hb, hor⟩ := (hx.mem k).mp hk
    obtain ⟨c, hc⟩ := isLive_iff.mp hl
    exact h k c hc (List.mem_singleton.mp hb ▸ hor)
  rw [hs, hempty]
  rfl

/-- **Removing again** (`terminate`) changes nothing. -/
theorem terminate_again (code : Code κ) (a : Address) :
    (s.terminate code a).terminate code a = s.terminate code a := by
  refine terminate_vacant ((terminate_cleared a ht).table ht) (terminate_neat ht hn code a) ?_
  intro k c hk hor
  have hcleared : Cleared [a] s (s.terminate code a) := terminate_cleared a ht
  have hgone := hcleared.gone k ⟨a, List.mem_singleton_self a, hor⟩
  exact absurd (hgone.symm.trans hk) (by simp)

/-- Two removals (`terminate`) sweep what is below either address. -/
theorem terminate_both (code : Code κ) (a b : Address) : ∃ xs, Sweep s.platform [a, b] xs ∧
    (s.terminate code a).terminate code b = s.removeAll code xs := by
  obtain ⟨xs, hx, hs⟩ := terminate_sweep code a ht hn
  have hp : (s.terminate code a).platform = s.platform.without xs := by
    rw [hs, removeAll_of_sweep code hn hx]
  obtain ⟨ys, hy, hs'⟩ := terminate_sweep code b ((terminate_cleared a ht).table ht)
    (terminate_neat ht hn code a)
  refine ⟨xs ++ ys, hx.cons (hp ▸ hy), ?_⟩
  rw [hs', removeAll_append, hs]

/-- **Of two removals** (`terminate`) the order is told on the bus only. -/
theorem terminate_comm (code : Code κ) (a b : Address) :
    ∃ bus, ((s.terminate code b).terminate code a).platform =
      { ((s.terminate code a).terminate code b).platform with bus } := by
  obtain ⟨xs, hx, hab⟩ := terminate_both ht hn code a b
  obtain ⟨ys, hy, hba⟩ := terminate_both ht hn code b a
  have hsame (k : Address) : k ∈ ys ↔ k ∈ xs := by
    rw [hx.mem, hy.mem, List.exists_mem_cons_iff, List.exists_mem_cons_iff,
      List.exists_mem_cons_iff, List.exists_mem_cons_iff]
    simp only [List.not_mem_nil, false_and, exists_false, or_false]
    rw [or_comm]
  rw [hab, hba, removeAll_of_sweep code hn hx, removeAll_of_sweep code hn hy]
  exact ⟨_, without_congr s.platform hsame⟩

end Terminate

end Stage

end Troupe
