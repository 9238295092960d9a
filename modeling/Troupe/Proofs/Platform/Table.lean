import Troupe.Proofs.Platform.Step

/-!
# The table of actors

`TableInv` says that the table of contexts and the groups are in order: the live actors form a tree
that hangs from the root, each context is filed under its own address and goes with its template and
flags, generations tell incarnations apart, and groups hold live actors only.

What an incarnation is born with, its `Identity`, does not change while it lives: a step that
neither enrols nor dismisses an actor leaves the identities at all addresses alone (`Step.table`).
The invariant speaks of identities only (`TableInv.congr`), so `TableInv.join`, `TableInv.enrol` and
`TableInv.dismiss` are all that has to be looked at.

Groups are looked at apart: who is a member after a live actor has joined (`mem_members_putMember`),
after one was dismissed (`mem_members_dismiss`), and which groups are left then (`groups_dismiss`),
since an empty group is not kept.

Headlines:
* **`TableInv.step`**, **`TableInv.loan`**, **`TableInv.turning`**, **`TableInv.dealing`**: all work
  keeps it.
* **`Outer.later`**: a generation that is handed out once never comes back (`Later`).
* `TableInv.isLive_of_mem_members`: the members of a group are alive.
-/

namespace Troupe

variable {κ : App}

/-- What does not change about an incarnation: its address, its generation, its template and its
flags. -/
structure Identity (κ : App) where
  address : Address
  generation : Nat
  template : Template κ
  flags : Flags
  boxed : Bool

/-- The identity of the incarnation that a context belongs to (`Identity`). -/
def Context.identity (c : Context κ) : Identity κ :=
  ⟨c.address, c.generation, c.template, c.flags, c.mailbox.isSome⟩

namespace Platform

variable {p q r : Platform κ} {a b : Address} {g : Nat}

/-- The identity of the incarnation at an address (`Context.identity`). -/
def identity? (p : Platform κ) (a : Address) : Option (Identity κ) :=
  (p.context? a).map Context.identity

/-- The table of actors (`Platform.contexts`) and the groups (`Platform.groups`) are in order. -/
structure TableInv (p : Platform κ) : Prop where
  /-- No actor lives at the root or at the discard address. -/
  placed : ∀ a c, p.context? a = some c → a ≠ .root ∧ a ≠ .discard
  /-- The parent of a live address is the root or live. -/
  closed : ∀ a c, p.context? a = some c → p.contains a.parent = true
  own : ∀ a c, p.context? a = some c → c.address = a
  named : ∀ a c, p.context? a = some c → c.template.id = some a.id
  /-- There is a mailbox just for buffered actors. -/
  boxed : ∀ a c, p.context? a = some c → c.mailbox.isSome = c.flags.buffered
  fresh : ∀ a c, p.context? a = some c → c.generation < p.nextGeneration
  distinct : ∀ a b c d, p.context? a = some c → p.context? b = some d →
    c.generation = d.generation → a = b
  members : ∀ group set, p.groups.get? group = some set →
    ∀ a, set.contains a = true → p.isLive a = true
  inhabited : ∀ group set, p.groups.get? group = some set → set.isEmpty = false

theorem contains_iff : p.contains a = true ↔ a = .root ∨ ∃ c, p.context? a = some c := by
  rw [contains, Bool.or_eq_true, isLive_iff, Address.isRoot, beq_iff_eq]

theorem identity?_eq_some {i : Identity κ} :
    p.identity? a = some i ↔ ∃ c, p.context? a = some c ∧ c.identity = i :=
  Option.map_eq_some_iff

theorem isLive_congr (h : q.identity? a = p.identity? a) : q.isLive a = p.isLive a := by
  have := congrArg Option.isSome h
  simpa [identity?, isLive, context?] using this

/-- The invariant speaks of identities only (`identity?`). -/
theorem TableInv.congr (h : p.TableInv) (hi : ∀ a, q.identity? a = p.identity? a)
    (hn : q.nextGeneration = p.nextGeneration) (hg : q.groups = p.groups) : q.TableInv := by
  have back (a : Address) (c : Context κ) (hc : q.context? a = some c) :
      ∃ c₀, p.context? a = some c₀ ∧ c₀.identity = c.identity :=
    identity?_eq_some.mp (hi a ▸ identity?_eq_some.mpr ⟨c, hc, rfl⟩)
  refine ⟨fun a c hc => ?_, fun a c hc => ?_, fun a c hc => ?_, fun a c hc => ?_, fun a c hc => ?_,
    fun a c hc => ?_, fun a b c d hc hd he => ?_, fun group set hs a ha => ?_, fun group set hs => ?_⟩
  · obtain ⟨c₀, hc₀, -⟩ := back a c hc
    exact h.placed a c₀ hc₀
  · obtain ⟨c₀, hc₀, -⟩ := back a c hc
    have := h.closed a c₀ hc₀
    rwa [contains, ← isLive_congr (hi a.parent)] at this
  · obtain ⟨c₀, hc₀, hid⟩ := back a c hc
    exact (congrArg Identity.address hid).symm.trans (h.own a c₀ hc₀)
  · obtain ⟨c₀, hc₀, hid⟩ := back a c hc
    have ht : c₀.template = c.template := congrArg Identity.template hid
    exact ht ▸ h.named a c₀ hc₀
  · obtain ⟨c₀, hc₀, hid⟩ := back a c hc
    have hb : c₀.mailbox.isSome = c.mailbox.isSome := congrArg Identity.boxed hid
    have hf : c₀.flags = c.flags := congrArg Identity.flags hid
    rw [← hb, ← hf, h.boxed a c₀ hc₀]
  · obtain ⟨c₀, hc₀, hid⟩ := back a c hc
    have hg : c₀.generation = c.generation := congrArg Identity.generation hid
    rw [hn, ← hg]
    exact h.fresh a c₀ hc₀
  · obtain ⟨c₀, hc₀, hid⟩ := back a c hc
    obtain ⟨d₀, hd₀, hid'⟩ := back b d hd
    have hg : c₀.generation = c.generation := congrArg Identity.generation hid
    have hg' : d₀.generation = d.generation := congrArg Identity.generation hid'
    exact h.distinct a b c₀ d₀ hc₀ hd₀ (by rw [hg, hg', he])
  · rw [isLive_congr (hi a)]
    exact h.members group set (hg ▸ hs) a ha
  · exact h.inhabited group set (hg ▸ hs)

/-- The platform without actors (`Platform.new`). -/
theorem TableInv.new (config : Config) (trap : Option κ.Trap) :
    (Platform.new config trap).TableInv where
  placed _ _ h := nomatch h
  closed _ _ h := nomatch h
  own _ _ h := nomatch h
  named _ _ h := nomatch h
  boxed _ _ h := nomatch h
  fresh _ _ h := nomatch h
  distinct _ _ _ _ h := nomatch h
  members _ _ h := nomatch h
  inhabited _ _ h := nomatch h

/-! ## Steps that touch the table -/

theorem identity?_modifyContext {f : Context κ → Context κ}
    (hf : ∀ c, (f c).identity = c.identity) :
    (p.modifyContext a f).identity? b = p.identity? b := by
  rw [identity?, context?_modifyContext_eq, identity?, Option.map_map]
  congr 1
  funext c
  show (if b = a then f c else c).identity = c.identity
  split
  · exact hf c
  · rfl

/-- **Steps and the table**: a step joins a group, enrols an actor, dismisses one (`enrol`,
`dismiss`), or leaves all identities and the groups alone. -/
theorem Step.table (h : Step p q) :
    ((∀ a, q.identity? a = p.identity? a) ∧ q.nextGeneration = p.nextGeneration ∧
      q.groups = p.groups) ∨
    (∃ group a, q = (p.putMember group a).2) ∨
    (∃ a actor b t, a ≠ .root ∧ a ≠ .discard ∧ p.contains a.parent = true ∧
      p.context? a = none ∧ t.id = some a.id ∧ q = p.enrol a actor b t) ∨
    ∃ a, (∀ k c, p.context? k = some c → k.parent ≠ a) ∧ q = p.dismiss a := by
  have mailed (p : Platform κ) (a : Address) : (∀ b, (p.scheduleMail a).identity? b = p.identity? b) ∧
      (p.scheduleMail a).nextGeneration = p.nextGeneration ∧
      (p.scheduleMail a).groups = p.groups := by
    obtain ⟨_, _, _, _, h⟩ := scheduleMail_eq p a
    rw [h]
    exact ⟨fun _ => rfl, rfl, rfl⟩
  cases h with
  | publish | raise | fail | stop | reroute | register => exact Or.inl ⟨fun _ => rfl, rfl, rfl⟩
  | join group a => exact Or.inr (Or.inl ⟨group, a, rfl⟩)
  | enrol actor b h₁ h₂ h₃ h₄ h₅ =>
    exact Or.inr (Or.inr (Or.inl ⟨_, actor, b, _, h₁, h₂, h₃, h₄, h₅, rfl⟩))
  | dismiss h => exact Or.inr (Or.inr (Or.inr ⟨_, h, rfl⟩))
  | mail a env =>
    obtain ⟨hi, hn, hg⟩ := mailed (p.putMail a env) a
    refine Or.inl ⟨fun b => (hi b).trans (identity?_modifyContext fun c => ?_), hn, hg⟩
    simp [Context.identity, Context.mapMailbox]
  | arm a t =>
    obtain ⟨hi, hn, hg⟩ := mailed
      (p.modifyContext a fun c => { c with receivers := ⟨t, false⟩ :: c.receivers }) a
    exact Or.inl ⟨fun b => (hi b).trans (identity?_modifyContext fun c => rfl), hn, hg⟩
  | look a => exact Or.inl (mailed p a)
  | takeMatch h =>
    obtain ⟨_, _, _, _, _, _, _, _, _, rfl⟩ := takeMatch_eq h
    refine Or.inl ⟨fun b => identity?_modifyContext fun c => ?_, rfl, rfl⟩
    simp [Context.identity, Context.mapMailbox]
  | takeMail a =>
    refine Or.inl ⟨fun b => identity?_modifyContext fun c => ?_, rfl, rfl⟩
    simp [Context.identity, Context.mapMailbox]
  | backlog | returnActor =>
    exact Or.inl ⟨fun b => identity?_modifyContext fun c => rfl, rfl, rfl⟩
  | @returnMachine m _ _ =>
    obtain ⟨_, _, _, h⟩ :=
      enqueue_eq (p.modifyContext m.address fun c => { c with machine := some m }) m.address
    rw [h]
    exact Or.inl ⟨fun b => identity?_modifyContext fun c => rfl, rfl, rfl⟩

theorem Loan.identity? (h : Loan p q) : q.identity? a = p.identity? a := by
  cases h <;> exact identity?_modifyContext fun _ => rfl

/-! ## The invariant is kept -/

theorem TableInv.join (h : p.TableInv) (group : String) (a : Address) :
    (p.putMember group a).2.TableInv := by
  obtain ⟨groups, _, hq, hg, -⟩ := putMember_eq p group a
  rw [hq]
  rcases hg with rfl | ⟨hl, rfl⟩
  · exact h.congr (fun _ => rfl) rfl rfl
  refine { h with members := fun g set hs b hb => ?_, inhabited := fun g set hs => ?_ }
  · rcases Table.get?_insert_eq_some.mp hs with ⟨-, rfl⟩ | ⟨-, hs⟩
    · rcases Table.contains_put.mp hb with rfl | hb
      · exact hl
      · -- an old member, so there was a set
        cases ho : p.groups.get? group with
        | none =>
          rw [ho] at hb
          exact absurd hb (by simp [EmptyCollection.emptyCollection])
        | some old =>
          rw [ho] at hb
          exact h.members group old ho b hb
    · exact h.members g set hs b hb
  · rcases Table.get?_insert_eq_some.mp hs with ⟨-, rfl⟩ | ⟨-, hs⟩
    · exact Table.isEmpty_put _ _
    · exact h.inhabited g set hs

/-- Where something can live (`contains`), it still can after enrolling an actor. -/
theorem contains_enrol {actor : κ.Actor} {bh : Behaviour} {t : Template κ}
    (h : p.contains b = true) : (p.enrol a actor bh t).contains b = true := by
  rw [contains_iff] at h ⊢
  refine h.imp_right fun ⟨c, hc⟩ => ?_
  by_cases hb : b = a
  · exact ⟨_, context?_enrol_eq_some.mpr (Or.inl ⟨hb, rfl⟩)⟩
  · exact ⟨c, context?_enrol_eq_some.mpr (Or.inr ⟨hb, hc⟩)⟩

theorem TableInv.enrol (h : p.TableInv) (actor : κ.Actor) (bh : Behaviour) {t : Template κ}
    (hr : a ≠ .root) (hd : a ≠ .discard) (hp : p.contains a.parent = true)
    (hn : p.context? a = none) (ht : t.id = some a.id) : (p.enrol a actor bh t).TableInv := by
  have hnext : (p.enrol a actor bh t).nextGeneration = p.nextGeneration + 1 := rfl
  constructor
  case placed =>
    intro k c hc
    rcases context?_enrol_eq_some.mp hc with ⟨rfl, -⟩ | ⟨-, hc⟩
    · exact ⟨hr, hd⟩
    · exact h.placed k c hc
  case closed =>
    intro k c hc
    rcases context?_enrol_eq_some.mp hc with ⟨rfl, -⟩ | ⟨-, hc⟩
    · exact contains_enrol hp
    · exact contains_enrol (h.closed k c hc)
  case own =>
    intro k c hc
    rcases context?_enrol_eq_some.mp hc with ⟨rfl, rfl⟩ | ⟨-, hc⟩
    · rfl
    · exact h.own k c hc
  case named =>
    intro k c hc
    rcases context?_enrol_eq_some.mp hc with ⟨rfl, rfl⟩ | ⟨-, hc⟩
    · exact ht
    · exact h.named k c hc
  case boxed =>
    intro k c hc
    rcases context?_enrol_eq_some.mp hc with ⟨rfl, rfl⟩ | ⟨-, hc⟩
    · cases hb : bh.flags.buffered <;> simp [Context.new, hb]
    · exact h.boxed k c hc
  case fresh =>
    intro k c hc
    rw [hnext]
    rcases context?_enrol_eq_some.mp hc with ⟨rfl, rfl⟩ | ⟨-, hc⟩
    · exact Nat.lt_succ_self _
    · exact Nat.lt_succ_of_lt (h.fresh k c hc)
  case distinct =>
    intro k l c d hc hd he
    -- a new generation is above all that are there
    rcases context?_enrol_eq_some.mp hc with ⟨rfl, rfl⟩ | ⟨-, hc'⟩ <;>
      rcases context?_enrol_eq_some.mp hd with ⟨rfl, rfl⟩ | ⟨-, hd'⟩
    · rfl
    · exact absurd (h.fresh l d hd') (by rw [← he]; exact Nat.lt_irrefl _)
    · exact absurd (h.fresh k c hc') (by rw [he]; exact Nat.lt_irrefl _)
    · exact h.distinct k l c d hc' hd' he
  case members =>
    intro group set hs k hk
    obtain ⟨c, hc⟩ := isLive_iff.mp (h.members group set hs k hk)
    have hka : k ≠ a := by
      rintro rfl
      exact absurd (hn.symm.trans hc) (by simp)
    exact isLive_iff.mpr ⟨c, context?_enrol_eq_some.mpr (Or.inr ⟨hka, hc⟩)⟩
  case inhabited => exact h.inhabited

theorem mem_members_iff {group : String} :
    a ∈ p.members group ↔ ∃ set, p.groups.get? group = some set ∧ set.contains a = true := by
  unfold members
  cases p.groups.get? group with
  | none => simp
  | some set =>
    rw [Option.map_some, Option.getD_some, Table.mem_keys_iff, ← Table.contains_eq]
    simp

/-- The members of a group (`members`) are alive. -/
theorem TableInv.isLive_of_mem_members {group : String} (h : p.TableInv)
    (ha : a ∈ p.members group) : p.isLive a = true := by
  obtain ⟨set, hset, hmem⟩ := mem_members_iff.mp ha
  exact h.members group set hset a hmem

/-- A live actor that is put into a group (`putMember`) is a member of that group too. -/
theorem mem_members_putMember {group group' : String} (ha : p.isLive a = true) :
    b ∈ (p.putMember group a).2.members group' ↔
      b ∈ p.members group' ∨ (b = a ∧ group' = group) := by
  have hcontains : ((p.groups.get? group).getD ∅).contains b = true ↔ b ∈ p.members group := by
    rw [mem_members_iff]
    cases p.groups.get? group with
    | none => simp [EmptyCollection.emptyCollection, Table.contains, Table.empty]
    | some set => simp
  unfold putMember
  dsimp only
  rw [ha, Bool.not_true, Bool.false_or]
  split
  · rename_i hold
    refine (or_iff_left_of_imp ?_).symm
    rintro ⟨rfl, rfl⟩
    exact hcontains.mp hold
  · rw [mem_members_iff (p := Platform.publish _ _)]
    change (∃ set, (p.groups.insert group _).get? group' = some set ∧ set.contains b = true) ↔ _
    by_cases hg : group' = group
    · subst hg
      rw [Table.get?_insert, if_pos rfl, ← hcontains]
      simp only [Option.some.injEq, exists_eq_left', Table.contains_put, and_true]
      exact or_comm
    · rw [Table.get?_insert, if_neg hg, mem_members_iff]
      simp [hg]

/-- The groups that are left after dismissing an actor (`dismiss`) are those that had other members.
-/
theorem groups_dismiss {group : String} {set : AddressSet}
    (h : (p.dismiss a).groups.get? group = some set) :
    set.isEmpty = false ∧ ∃ old, p.groups.get? group = some old ∧ set = old.erase a := by
  obtain ⟨_, _, hq, -⟩ := dismiss_eq p a
  rw [hq] at h
  change ((p.groups.mapValues fun _ set => set.erase a).retain fun _ set => !set.isEmpty).get? group
    = some set at h
  rw [Table.get?_retain, Option.filter_eq_some_iff, Table.get?_mapValues,
    Option.map_eq_some_iff] at h
  obtain ⟨⟨old, ho, rfl⟩, he⟩ := h
  exact ⟨by simpa using he, old, ho, rfl⟩

/-- The members that are left after dismissing an actor (`dismiss`) are the others. -/
theorem mem_members_dismiss {group : String} :
    b ∈ (p.dismiss a).members group ↔ b ≠ a ∧ b ∈ p.members group := by
  rw [mem_members_iff, mem_members_iff]
  constructor
  · rintro ⟨set, hset, hb⟩
    obtain ⟨-, old, hold, rfl⟩ := groups_dismiss hset
    obtain ⟨hne, hb⟩ := Table.contains_erase.mp hb
    exact ⟨hne, old, hold, hb⟩
  · rintro ⟨hne, old, hold, hb⟩
    have hb' : (old.erase a).contains b = true := Table.contains_erase.mpr ⟨hne, hb⟩
    obtain ⟨_, _, hq, -⟩ := dismiss_eq p a
    refine ⟨old.erase a, ?_, hb'⟩
    rw [hq]
    change ((p.groups.mapValues fun _ set => set.erase a).retain fun _ set =>
      !set.isEmpty).get? group = some (old.erase a)
    rw [Table.get?_retain, Table.get?_mapValues, hold, Option.map_some, Option.filter_some,
      if_pos]
    rw [Table.isEmpty_of_contains hb']
    rfl

theorem TableInv.dismiss (h : p.TableInv) (ha : ∀ k c, p.context? k = some c → k.parent ≠ a) :
    (p.dismiss a).TableInv := by
  have back (k : Address) (c : Context κ) (hc : (p.dismiss a).context? k = some c) :
      p.context? k = some c :=
    (context?_dismiss_eq_some.mp hc).2
  have hnext : (p.dismiss a).nextGeneration = p.nextGeneration := by
    obtain ⟨_, _, hq, -⟩ := dismiss_eq p a
    rw [hq]
  constructor
  case placed => exact fun k c hc => h.placed k c (back k c hc)
  case closed =>
    intro k c hc
    have hc := back k c hc
    refine contains_iff.mpr ((contains_iff.mp (h.closed k c hc)).imp_right fun ⟨d, hd⟩ => ⟨d, ?_⟩)
    exact context?_dismiss_eq_some.mpr ⟨ha k c hc, hd⟩
  case own => exact fun k c hc => h.own k c (back k c hc)
  case named => exact fun k c hc => h.named k c (back k c hc)
  case boxed => exact fun k c hc => h.boxed k c (back k c hc)
  case fresh => exact fun k c hc => hnext ▸ h.fresh k c (back k c hc)
  case distinct => exact fun k l c d hc hd => h.distinct k l c d (back k c hc) (back l d hd)
  case members =>
    intro group set hs k hk
    obtain ⟨-, old, ho, rfl⟩ := groups_dismiss hs
    obtain ⟨hka, hk⟩ := Table.contains_erase.mp hk
    obtain ⟨c, hc⟩ := isLive_iff.mp (h.members group old ho k hk)
    exact isLive_iff.mpr ⟨c, context?_dismiss_eq_some.mpr ⟨hka, hc⟩⟩
  case inhabited => exact fun group set hs => (groups_dismiss hs).1

theorem TableInv.step (hs : Step p q) (h : p.TableInv) : q.TableInv := by
  rcases hs.table with ⟨hi, hn, hg⟩ | ⟨group, a, rfl⟩ | ⟨a, actor, b, t, h₁, h₂, h₃, h₄, h₅, rfl⟩ |
    ⟨a, ha, rfl⟩
  · exact h.congr hi hn hg
  · exact h.join group a
  · exact h.enrol actor b h₁ h₂ h₃ h₄ h₅
  · exact h.dismiss ha

theorem TableInv.loan (hl : Loan p q) (h : p.TableInv) : q.TableInv := by
  refine h.congr (fun _ => hl.identity?) ?_ ?_
  · cases hl <;> rfl
  · cases hl <;> rfl

theorem TableInv.upkeep (hpq : Upkeep p q) (h : p.TableInv) : q.TableInv := by
  induction hpq with
  | refl => exact h
  | tail _ hs ih => exact ih.step hs.1

theorem TableInv.part (h : p.TableInv) (group : String) (a : Address) :
    (p.removeMember group a).2.TableInv := by
  unfold removeMember
  split
  · exact h
  · rename_i set hs
    dsimp only
    by_cases he : (set.erase a).isEmpty = true
    · rw [if_pos he]
      have back (g : String) (old : AddressSet)
          (ho : (p.groups.erase group).get? g = some old) : p.groups.get? g = some old :=
        (Table.get?_erase_eq_some.mp ho).2
      exact { h with
        members := fun g old ho => h.members g old (back g old ho)
        inhabited := fun g old ho => h.inhabited g old (back g old ho) }
    · rw [if_neg he]
      refine { h with members := fun g old ho b hb => ?_, inhabited := fun g old ho => ?_ }
      · rcases Table.get?_insert_eq_some.mp ho with ⟨-, rfl⟩ | ⟨-, ho⟩
        · exact h.members group set hs b (Table.contains_erase.mp hb).2
        · exact h.members g old ho b hb
      · rcases Table.get?_insert_eq_some.mp ho with ⟨-, rfl⟩ | ⟨-, ho⟩
        · exact Bool.not_eq_true _ ▸ he
        · exact h.inhabited g old ho

/-- Turning leaves all identities and the groups alone (`identity?`), unless it takes a member out.
-/
theorem Turning.table (h : Turning p q) :
    ((∀ a, q.identity? a = p.identity? a) ∧ q.nextGeneration = p.nextGeneration ∧
      q.groups = p.groups) ∨ ∃ group a, q = (p.removeMember group a).2 := by
  cases h with
  | judge | hear => exact Or.inl ⟨fun _ => rfl, rfl, rfl⟩
  | skip h =>
    obtain ⟨_, _, _, ⟨-, rfl⟩ | ⟨-, rfl⟩⟩ := turn_skipped h
    · exact Or.inl ⟨fun _ => rfl, rfl, rfl⟩
    · exact Or.inl ⟨fun _ => rfl, rfl, rfl⟩
  | begin _ h =>
    obtain ⟨_, _, _, _, _, rfl⟩ := turn_slot h
    exact Or.inl ⟨fun _ => rfl, rfl, rfl⟩
  | @finish b _ =>
    obtain ⟨_, _, _, h⟩ := endTurn_eq p b
    rw [h]
    exact Or.inl ⟨fun _ => rfl, rfl, rfl⟩
  | @schedule b g w _ =>
    obtain ⟨_, _, _, h⟩ := schedule_eq p b g (.script w)
    rw [h]
    exact Or.inl ⟨fun _ => rfl, rfl, rfl⟩
  | part group b => exact Or.inr ⟨group, b, rfl⟩

theorem TableInv.turning (ht : Turning p q) (h : p.TableInv) : q.TableInv := by
  rcases ht.table with ⟨hi, hn, hg⟩ | ⟨group, a, rfl⟩
  · exact h.congr hi hn hg
  · exact h.part group a

theorem TableInv.dealing (hd : Dealing p q) (h : p.TableInv) : q.TableInv := by
  obtain ⟨_, _, _, _, _, _, rfl⟩ := hd.eq
  exact h.congr (fun _ => rfl) rfl rfl

/-! ## Generations do not come back -/

/-- What lives at `q` with a generation that was handed out before `p` lived at `p` already. -/
structure Later (p q : Platform κ) : Prop where
  next : p.nextGeneration ≤ q.nextGeneration
  old : ∀ a i, q.identity? a = some i → i.generation < p.nextGeneration → p.identity? a = some i

theorem Later.refl (p : Platform κ) : Later p p :=
  ⟨Nat.le_refl _, fun _ _ h _ => h⟩

theorem Later.trans (h : Later p q) (h' : Later q r) : Later p r where
  next := Nat.le_trans h.next h'.next
  old a i hi hlt := h.old a i (h'.old a i hi (Nat.lt_of_lt_of_le hlt h.next)) hlt

theorem Later.of_eq (hi : ∀ a, q.identity? a = p.identity? a)
    (hn : q.nextGeneration = p.nextGeneration) : Later p q :=
  ⟨Nat.le_of_eq hn.symm, fun a _ h _ => hi a ▸ h⟩

theorem Step.later (h : Step p q) : Later p q := by
  rcases h.table with ⟨hi, hn, -⟩ | ⟨group, a, rfl⟩ | ⟨a, actor, b, t, -, -, -, -, -, rfl⟩ |
    ⟨a, -, rfl⟩
  · exact .of_eq hi hn
  · obtain ⟨_, _, hq, -⟩ := putMember_eq p group a
    rw [hq]
    exact .of_eq (fun _ => rfl) rfl
  · refine ⟨Nat.le_succ _, fun k i hi hlt => ?_⟩
    obtain ⟨c, hc, rfl⟩ := identity?_eq_some.mp hi
    rcases context?_enrol_eq_some.mp hc with ⟨-, rfl⟩ | ⟨-, hc⟩
    · exact absurd hlt (Nat.lt_irrefl _)
    · exact identity?_eq_some.mpr ⟨c, hc, rfl⟩
  · obtain ⟨_, _, hq, -⟩ := dismiss_eq p a
    have hn : (p.dismiss a).nextGeneration = p.nextGeneration := by rw [hq]
    refine ⟨Nat.le_of_eq hn.symm, fun k i hi _ => ?_⟩
    obtain ⟨c, hc, hid⟩ := identity?_eq_some.mp hi
    exact identity?_eq_some.mpr ⟨c, (context?_dismiss_eq_some.mp hc).2, hid⟩

theorem Loan.later (h : Loan p q) : Later p q := by
  refine .of_eq (fun _ => h.identity?) ?_
  cases h <;> rfl

theorem Turning.later (h : Turning p q) : Later p q := by
  rcases h.table with ⟨hi, hn, -⟩ | ⟨group, a, rfl⟩
  · exact .of_eq hi hn
  · obtain ⟨_, h⟩ := removeMember_eq p group a
    rw [h]
    exact .of_eq (fun _ => rfl) rfl

theorem Change.later {V : Event → Prop} (h : Change V p q) : Later p q := by
  cases h with
  | step h => exact h.later
  | loan h => exact h.later
  | announce h =>
    cases h
    exact .of_eq (fun _ => rfl) rfl

theorem Rounds.later {V : Event → Prop} (h : Rounds V p q) : Later p q := by
  induction h with
  | refl => exact .refl p
  | tail _ h ih => exact ih.trans (h.elim Change.later Turning.later)

/-- **Generations do not come back**, whatever is done to the platform (`Outer`). -/
theorem Outer.later {V : Event → Prop} (h : Outer V p q) : Later p q := by
  induction h with
  | refl => exact .refl p
  | tail _ h ih =>
    refine ih.trans (h.elim Rounds.later fun h => ?_)
    obtain ⟨_, _, _, _, _, _, rfl⟩ := h.eq
    exact .of_eq (fun _ => rfl) rfl

end Platform

end Troupe
