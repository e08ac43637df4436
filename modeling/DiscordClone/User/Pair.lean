import Mathlib.Data.Finset.Basic
import DiscordClone.User.Rows

/-!
# The relationship of two accounts

What the relationships table is for: every unordered pair of accounts is in one of the states of `Link`, and the seven
operations move it (`Link.step`). `Encodes` says which rows stand for a state.

- In a `WellPaired` table no account has a row with itself and the two rows of every pair match (`Paired`); such a pair
  encodes exactly one state (`existsUnique_link`).
- What an operation does to the rows is what the machine does to the state (`rows_simulate`), and it leaves matching
  rows (`rows_paired`).
-/

namespace DiscordClone

open Transaction Relationships

/-- The state of a pair: `requested x` by `x`, `blocked s` by the accounts of `s`. -/
inductive Link (α : Type) where
  | strangers
  | requested (x : α)
  | friends
  | blocked (s : Finset α)

/-- What an operation of `x` on `y` does to their state; `none` when it is refused. -/
def Link.step {α : Type} [DecidableEq α] (k : Kind) (x y : α) (l : Link α) : Option (Link α) :=
  match k, l with
  | .send, .strangers => some (.requested x)
  | .send, .requested z => if z = x then some (.requested x) else some .friends
  | .send, .blocked s => if y ∈ s then none else some (.requested x)
  | .accept, .requested z => if z = y then some .friends else none
  | .ignore, .requested z => if z = y then some .strangers else none
  | .cancel, .requested z => if z = x then some .strangers else none
  | .remove, .friends => some .strangers
  | .block, .blocked s => some (.blocked (insert x s))
  | .block, _ => some (.blocked {x})
  | .unblock, .blocked s =>
    if x ∈ s then some (if s.erase x = ∅ then .strangers else .blocked (s.erase x)) else none
  | _, _ => none

/-- The row of an account that does or does not block. -/
def blockRow (b : Prop) [Decidable b] : Option RelationshipStatus := if b then some .BLOCKED else none

/-- The rows of `a` and `b` stand for the state. -/
def Encodes (rel : Relationships) (a b : String) : Link String → Prop
  | .strangers => rel (a, b) = none ∧ rel (b, a) = none
  | .requested x =>
    x = a ∧ rel (a, b) = some .REQUESTING ∧ rel (b, a) = some .PENDING ∨
      x = b ∧ rel (b, a) = some .REQUESTING ∧ rel (a, b) = some .PENDING
  | .friends => rel (a, b) = some .FRIEND ∧ rel (b, a) = some .FRIEND
  | .blocked s => s.Nonempty ∧ s ⊆ {a, b} ∧ rel (a, b) = blockRow (a ∈ s) ∧ rel (b, a) = blockRow (b ∈ s)

/-- Two rows that match. -/
inductive Paired : Option RelationshipStatus → Option RelationshipStatus → Prop
  | strangers : Paired none none
  | requested : Paired (some .REQUESTING) (some .PENDING)
  | pending : Paired (some .PENDING) (some .REQUESTING)
  | friends : Paired (some .FRIEND) (some .FRIEND)
  | blocks : Paired (some .BLOCKED) none
  | blocked : Paired none (some .BLOCKED)
  | bothBlock : Paired (some .BLOCKED) (some .BLOCKED)

theorem Paired.symm {p q : Option RelationshipStatus} (h : Paired p q) : Paired q p := by cases h <;> constructor

/-- A table in which the rows of every pair match. -/
structure WellPaired (rel : Relationships) : Prop where
  irrefl : ∀ a, rel (a, a) = none
  paired : ∀ a b, a ≠ b → Paired (rel (a, b)) (rel (b, a))

/-! ## Rows and states -/

section States

variable {rel : Relationships} {a b : String}

/-- The state is one of an unordered pair. -/
theorem Encodes.symm : ∀ {l : Link String}, Encodes rel a b l → Encodes rel b a l
  | .strangers, h => ⟨h.2, h.1⟩
  | .requested _, h => Or.symm h
  | .friends, h => ⟨h.2, h.1⟩
  | .blocked _, ⟨hn, hs, ha, hb⟩ => ⟨hn, by rwa [Finset.pair_comm], hb, ha⟩

/-- A nonempty set of blockers of a pair, by who is in it. -/
theorem blockers_cases {s : Finset String} (hn : s.Nonempty) (hs : s ⊆ {a, b}) :
    a ∈ s ∧ b ∉ s ∧ s = {a} ∨ a ∉ s ∧ b ∈ s ∧ s = {b} ∨ a ∈ s ∧ b ∈ s ∧ s = {a, b} := by
  have hmem : ∀ z ∈ s, z = a ∨ z = b := fun z hz => by simpa using hs hz
  by_cases ha : a ∈ s <;> by_cases hb : b ∈ s
  · exact Or.inr (Or.inr ⟨ha, hb, hs.antisymm (by simp [Finset.insert_subset_iff, ha, hb])⟩)
  · refine Or.inl ⟨ha, hb, Finset.eq_singleton_iff_unique_mem.mpr ⟨ha, fun z hz => ?_⟩⟩
    rcases hmem z hz with rfl | rfl
    · rfl
    · exact absurd hz hb
  · refine Or.inr (Or.inl ⟨ha, hb, Finset.eq_singleton_iff_unique_mem.mpr ⟨hb, fun z hz => ?_⟩⟩)
    rcases hmem z hz with rfl | rfl
    · exact absurd hz ha
    · rfl
  · obtain ⟨z, hz⟩ := hn
    rcases hmem z hz with rfl | rfl
    · exact absurd hz ha
    · exact absurd hz hb

/-- The state two rows stand for. -/
def linkOf (a b : String) : Option RelationshipStatus → Option RelationshipStatus → Option (Link String)
  | none, none => some .strangers
  | some .REQUESTING, some .PENDING => some (.requested a)
  | some .PENDING, some .REQUESTING => some (.requested b)
  | some .FRIEND, some .FRIEND => some .friends
  | some .BLOCKED, none => some (.blocked {a})
  | none, some .BLOCKED => some (.blocked {b})
  | some .BLOCKED, some .BLOCKED => some (.blocked {a, b})
  | _, _ => none

/-- A state that is encoded is the one read off the rows. -/
theorem Encodes.linkOf_eq : ∀ {l : Link String}, Encodes rel a b l → linkOf a b (rel (a, b)) (rel (b, a)) = some l
  | .strangers, h => by rw [h.1, h.2, linkOf]
  | .requested x, h => by
    rcases h with ⟨rfl, h₁, h₂⟩ | ⟨rfl, h₁, h₂⟩ <;> rw [h₁, h₂, linkOf]
  | .friends, h => by rw [h.1, h.2, linkOf]
  | .blocked s, ⟨hn, hs, ha, hb⟩ => by
    rw [ha, hb, blockRow, blockRow]
    rcases blockers_cases hn hs with ⟨h₁, h₂, rfl⟩ | ⟨h₁, h₂, rfl⟩ | ⟨h₁, h₂, rfl⟩ <;> simp [h₁, h₂, linkOf]

/-- Matching rows encode the state read off them. -/
theorem encodes_of_paired (hab : a ≠ b) (h : Paired (rel (a, b)) (rel (b, a))) :
    ∃ l, linkOf a b (rel (a, b)) (rel (b, a)) = some l ∧ Encodes rel a b l := by
  generalize hp : rel (a, b) = p at h
  generalize hq : rel (b, a) = q at h
  cases h with
  | strangers => exact ⟨_, rfl, hp, hq⟩
  | requested => exact ⟨_, rfl, Or.inl ⟨rfl, hp, hq⟩⟩
  | pending => exact ⟨_, rfl, Or.inr ⟨rfl, hq, hp⟩⟩
  | friends => exact ⟨_, rfl, hp, hq⟩
  | blocks => exact ⟨_, rfl, by simp, by simp, by simp [hp, blockRow], by simp [hq, blockRow, hab.symm]⟩
  | blocked => exact ⟨_, rfl, by simp, by simp, by simp [hp, blockRow, hab], by simp [hq, blockRow]⟩
  | bothBlock => exact ⟨_, rfl, by simp, by simp, by simp [hp, blockRow], by simp [hq, blockRow]⟩

/-- Only matching rows stand for a state. -/
theorem paired_of_linkOf {p q : Option RelationshipStatus} {l : Link String} (h : linkOf a b p q = some l) :
    Paired p q := by
  unfold linkOf at h
  split at h <;> first | constructor | cases h

/-- **Matching rows are the encoding of exactly one state.** -/
theorem existsUnique_link (hab : a ≠ b) (h : Paired (rel (a, b)) (rel (b, a))) : ∃! l, Encodes rel a b l := by
  obtain ⟨l, hl, he⟩ := encodes_of_paired hab h
  refine ⟨l, he, fun l' he' => ?_⟩
  rw [he'.linkOf_eq] at hl
  exact Option.some.inj hl

end States

/-! ## One operation -/

/-- An operation leaves matching rows. -/
theorem rows_paired {k : Kind} {p q : Option RelationshipStatus}
    {r : Option RelationshipStatus × Option RelationshipStatus} (h : Paired p q) (hr : k.rows p q = some r) :
    Paired r.1 r.2 := by
  cases k <;> cases h <;> simp [Kind.rows] at hr <;> subst hr <;> constructor

/-- The machine does to the state what the operation does to the rows. -/
theorem step_linkOf {x y : String} (hxy : x ≠ y) {p q : Option RelationshipStatus} {l : Link String} (k : Kind)
    (h : linkOf x y p q = some l) : l.step k x y = (k.rows p q).bind fun r => linkOf x y r.1 r.2 := by
  have hp := paired_of_linkOf h
  have hyx := hxy.symm
  cases hp <;> cases h <;> cases k <;>
    simp [Link.step, Kind.rows, linkOf, hxy, hyx, Finset.erase_insert_eq_erase]

/-- **The simulation**: an operation is refused exactly when the machine refuses, and else the rows it leaves encode
the machine's next state. -/
theorem rows_simulate {rel : Relationships} {x y : String} (hxy : x ≠ y) {l : Link String} (h : Encodes rel x y l)
    (k : Kind) :
    match k.rows (rel (x, y)) (rel (y, x)) with
    | none => l.step k x y = none
    | some r => ∃ l', l.step k x y = some l' ∧ Encodes (rel.setPair x y r) x y l' := by
  have hl := h.linkOf_eq
  have hs := step_linkOf hxy k hl
  cases hr : k.rows (rel (x, y)) (rel (y, x)) with
  | none => simpa [hr] using hs
  | some r =>
    have hp := rows_paired (paired_of_linkOf hl) hr
    have hp' : Paired (rel.setPair x y r (x, y)) (rel.setPair x y r (y, x)) := by
      rwa [setPair_own hxy, setPair_other]
    obtain ⟨l', hl', he⟩ := encodes_of_paired hxy hp'
    rw [setPair_own hxy, setPair_other] at hl'
    exact ⟨l', by simpa [hr] using hs.trans (by simpa [hr] using hl'), he⟩

end DiscordClone
