import DiscordClone.User.Footprint
import DiscordClone.User.Refinement

/-!
# Interleaved calls and matching rows

Calls run side by side at READ COMMITTED, statement by statement. Each of them branches on rows it has read and does not
read them again.

- Most calls write both rows of their pair, and what they leave matches (`Kind.footprints`): the locks alone keep the
  table coherent, whatever the call has read.
- A block that has nothing to delete and an unblock write one row only. They are sound when the rows they have read are
  still so (`Current`), and while such a call waits for its commit nobody can turn the other row into anything but an
  absent or a BLOCKED one (`Half.stable`).
- `coherent_interleaved`: in every run whose statements are current, every committed table is coherent.
- `not_coherent_interleaved`: without that, a request that commits between the reads and the write of a block leaves a
  request on one side and a block on the other.
-/

namespace DiscordClone

open Transaction Relationships

/-- The rows of every pair agree. -/
def Coherent (rel : Relationships) : Prop :=
  ∀ a b, a ≠ b →
    (rel (a, b) = some .REQUESTING ↔ rel (b, a) = some .PENDING) ∧
    (rel (a, b) = some .FRIEND ↔ rel (b, a) = some .FRIEND) ∧
    (rel (a, b) = some .BLOCKED → rel (b, a) = none ∨ rel (b, a) = some .BLOCKED)

/-- A call in flight. -/
abbrev CallInFlight := Worker (String × String) RelationshipStatus Exception Unit Call

/-- The committed table and the calls in flight. -/
abbrev RelationshipState := State (String × String) RelationshipStatus Exception Unit Call

/-- One step of the database that serves the relationship operations. -/
abbrev relationshipStep (accounts : Accounts) : RelationshipState → Event Call → Option RelationshipState :=
  Transaction.step (Call.tx accounts)

/-- What the call has read still holds where it acts on one row alone: a block that ends with its own row finds the
other row absent or BLOCKED, and an unblock finds its row BLOCKED. -/
def Current (rel : Relationships) (w : CallInFlight) : Prop :=
  match w.call, w.prog with
  | .blockUser x y, .exec k _ (.ret _) => k = (x, y) → rel (y, x) = none ∨ rel (y, x) = some .BLOCKED
  | .unblockUser x y, .exec _ _ _ => rel (x, y) = some .BLOCKED
  | _, _ => True

instance (rel : Relationships) (w : CallInFlight) : Decidable (Current rel w) := by
  unfold Current
  split <;> infer_instance

/-- A coherent table is one whose rows match. -/
theorem coherent_iff {rel : Relationships} : Coherent rel ↔ ∀ a b, a ≠ b → Paired (rel (a, b)) (rel (b, a)) := by
  constructor
  · intro h a b hab
    obtain ⟨h₁, h₂, h₃⟩ := h a b hab
    obtain ⟨h₄, -, h₅⟩ := h b a hab.symm
    cases hp : rel (a, b) with
    | none =>
      cases hq : rel (b, a) with
      | none => exact .strangers
      | some q => cases q <;> simp_all [Paired.blocked]
    | some p =>
      cases hq : rel (b, a) with
      | none => cases p <;> simp_all [Paired.blocks]
      | some q => cases p <;> cases q <;> simp_all [Paired.requested, Paired.pending, Paired.friends, Paired.bothBlock]
  · intro h a b hab
    have hp := h a b hab
    generalize rel (a, b) = p at hp
    generalize rel (b, a) = q at hp
    cases hp <;> simp

/-! ## One call -/

section Calls

variable {accounts : Accounts} {rel : Relationships} {c : Call} {x y : String}
  {w : Tx.Writes (String × String) RelationshipStatus}

/-- A row that its owner may have blocked, and nothing else. -/
def Unrelated (p : Option RelationshipStatus) : Prop := p = none ∨ p = some .BLOCKED

theorem Unrelated.paired {p q : Option RelationshipStatus} (hp : Unrelated p) (hq : Unrelated q) : Paired p q := by
  rcases hp with rfl | rfl <;> rcases hq with rfl | rfl <;> constructor

/-- Both rows of a footprint match. -/
theorem footprint_paired {k : Kind} {p q : Option RelationshipStatus} (h : (some p, some q) ∈ k.footprints) :
    Paired p q := by
  cases k <;> simp [Kind.footprints] at h
  case send => rcases h with ⟨rfl, rfl⟩ | ⟨rfl, rfl⟩ <;> constructor
  all_goals
    obtain ⟨rfl, rfl⟩ := h
    constructor

/-- A footprint on one row is that of a block or of an unblock, on its own row. -/
theorem footprint_half {k : Kind} {f : Option (Option RelationshipStatus) × Option (Option RelationshipStatus)}
    (h : f ∈ k.footprints) : f = (none, none) ∨ (∃ p q, f = (some p, some q)) ∨
      ∃ p, f = (some p, none) ∧ Unrelated p ∧ (k = .block ∨ k = .unblock) := by
  cases k <;> simp [Kind.footprints] at h
  case send =>
    rcases h with rfl | rfl | rfl
    · exact Or.inl rfl
    · exact Or.inr (Or.inl ⟨_, _, rfl⟩)
    · exact Or.inr (Or.inl ⟨_, _, rfl⟩)
  case block =>
    rcases h with rfl | rfl
    · exact Or.inr (Or.inr ⟨_, rfl, Or.inr rfl, Or.inl rfl⟩)
    · exact Or.inr (Or.inl ⟨_, _, rfl⟩)
  case unblock =>
    subst h
    exact Or.inr (Or.inr ⟨_, rfl, Or.inl rfl, Or.inr rfl⟩)
  all_goals
    subst h
    exact Or.inr (Or.inl ⟨_, _, rfl⟩)

/-- Writes on the row `(x, y)` and not on its mirror are those of a block or an unblock by `x` of `y`. -/
theorem Footprint.half (h : Footprint accounts c w) {p : Option RelationshipStatus} (hxy : w (x, y) = some p)
    (hyx : w (y, x) = none) :
    Unrelated p ∧ c.account = x ∧ c.target accounts = some y ∧ (c.kind = .block ∨ c.kind = .unblock) ∧
      ∀ k, k ≠ (x, y) → w k = none := by
  obtain ⟨z, ht, hne, f, hf, rfl⟩ := h
  by_cases h₁ : (x, y) = (c.account, z)
  · cases h₁
    rw [pairWrites_own] at hxy
    rw [pairWrites_other hne] at hyx
    rcases footprint_half hf with rfl | ⟨p', q', rfl⟩ | ⟨p', rfl, hu, hk⟩
    · cases hxy
    · cases hyx
    · cases hxy
      refine ⟨hu, rfl, ht, hk, fun k hk' => ?_⟩
      simp [pairWrites, hk']
  · by_cases h₂ : (x, y) = (z, c.account)
    · cases h₂
      rw [pairWrites_other hne] at hxy
      rw [pairWrites_own] at hyx
      rcases footprint_half hf with rfl | ⟨p', q', rfl⟩ | ⟨p', rfl, hu, hk⟩
      · cases hxy
      · cases hyx
      · cases hxy
    · rw [pairWrites_frame h₁ h₂] at hxy
      cases hxy

theorem eq_blockUser (ht : c.target accounts = some y) (hk : c.kind = .block) : c = .blockUser c.account y := by
  cases c with
  | blockUser x z => cases ht; rfl
  | feedbackFriendRequest type x z => cases type <;> cases hk
  | _ => cases hk

theorem eq_unblockUser (ht : c.target accounts = some y) (hk : c.kind = .unblock) : c = .unblockUser c.account y := by
  cases c with
  | unblockUser x z => cases ht; rfl
  | feedbackFriendRequest type x z => cases type <;> cases hk
  | _ => cases hk

end Calls

/-! ## Calls in flight -/

section Flight

variable {accounts : Accounts} {rel : Relationships} {w : CallInFlight}

/-- What a call in flight can be relied on for: it will end in a footprint, and when it has ended with one row of its
pair, the other row is absent or BLOCKED. -/
def Steady (accounts : Accounts) (rel : Relationships) (w : CallInFlight) : Prop :=
  w.prog.Ends (· = noWrites) (fun _ => Footprint accounts w.call) w.writes ∧
    ∀ a, w.prog = .ret a → ∀ x y p, w.writes (x, y) = some p → w.writes (y, x) = none → Unrelated (rel (y, x))

/-- A statement that ends a call on one row of its pair finds the other row absent or BLOCKED, when it is current. -/
theorem steady_write {k : String × String} {wr : Write RelationshipStatus} {a : Unit} {v : Option RelationshipStatus}
    (hI : Coherent rel) (hcur : Current rel w) (hprog : w.prog = .exec k wr (.ret a))
    (hfoot : Footprint accounts w.call (Function.update w.writes k (some v))) {x y : String}
    {p : Option RelationshipStatus} (hxy : Function.update w.writes k (some v) (x, y) = some p)
    (hyx : Function.update w.writes k (some v) (y, x) = none) : Unrelated (rel (y, x)) := by
  obtain ⟨-, hx, ht, hk, hframe⟩ := hfoot.half hxy hyx
  have hkey : k = (x, y) := by
    by_contra hne
    have := hframe k hne
    rw [Function.update_self] at this
    cases this
  unfold Current at hcur
  rcases hk with hk | hk
  · rw [eq_blockUser ht hk, hx, hprog] at hcur
    exact hcur hkey
  · rw [eq_unblockUser ht hk, hx, hprog] at hcur
    have hne : x ≠ y := by
      rintro rfl
      rw [hxy] at hyx
      cases hyx
    exact (hI x y hne).2.2 hcur

/-- What a call that has ended makes of a coherent table. -/
theorem coherent_commit (hI : Coherent rel) (hfoot : Footprint accounts w.call w.writes)
    (hhalf : ∀ x y p, w.writes (x, y) = some p → w.writes (y, x) = none → Unrelated (rel (y, x))) :
    Coherent (view rel w.writes) := by
  rw [coherent_iff] at hI ⊢
  obtain ⟨y, -, hne, f, hf, hw⟩ := hfoot
  rw [hw, view_pairWrites hne]
  refine paired_setPair hI hne ?_
  rcases footprint_half hf with rfl | ⟨p, q, rfl⟩ | ⟨p, rfl, hu, -⟩
  · exact hI _ _ hne
  · exact footprint_paired hf
  · have hother : Unrelated (rel (y, w.call.account)) :=
      hhalf _ _ p (by rw [hw, pairWrites_own]) (by rw [hw, pairWrites_other hne])
    exact hu.paired hother

/-- Another call's commit leaves a call in flight what it relies on: the locks keep the two apart. -/
theorem steady_commit {w' : CallInFlight} (hfoot : Footprint accounts w.call w.writes) (hapart : w.Apart w')
    (h : Steady accounts rel w') : Steady accounts (view rel w.writes) w' := by
  refine ⟨h.1, fun a ha x y p hxy hyx => ?_⟩
  have hold := h.2 a ha x y p hxy hyx
  have hfree : w.writes (x, y) = none := by
    rcases hapart (x, y) with hn | hn
    · exact hn
    · rw [hn] at hxy
      cases hxy
  cases hv : w.writes (y, x) with
  | none => simpa [view, hv] using hold
  | some v =>
    obtain ⟨hu, -⟩ := hfoot.half hv hfree
    simpa [view, hv] using hu

/-- The relationship operations, one by one. -/
theorem coherent_rules (accounts : Accounts) : Rules (Call.tx accounts) Current Coherent (Steady accounts) where
  begin _ c _ := ⟨footprint_tx accounts c, fun _ _ _ _ _ h => by cases h⟩
  query rel w next _ hJ hprog := by
    obtain ⟨hends, -⟩ := hJ
    rw [hprog] at hends
    refine ⟨hends.2 _, fun a _ x y p hxy => ?_⟩
    rw [hends.1] at hxy
    cases hxy
  write rel w k wr next v hI hJ hcur hprog hv := by
    obtain ⟨hends, -⟩ := hJ
    rw [hprog] at hends
    have hnext := hends _ _ hv
    refine ⟨hnext, fun a ha x y p hxy hyx => ?_⟩
    simp only at ha
    subst ha
    exact steady_write hI hcur hprog hnext hxy hyx
  commit rel w a hI hJ hprog := by
    have hfoot := hJ.1
    rw [hprog] at hfoot
    exact coherent_commit hI hfoot (hJ.2 a hprog)
  stable rel w w' a _ hJ hJ' hprog hapart := by
    have hfoot := hJ.1
    rw [hprog] at hfoot
    exact steady_commit hfoot hapart hJ'

end Flight

/-- **Interleaved calls keep the table coherent** in every run in which a block or an unblock acts on one row only while
what it has read still holds. -/
theorem coherent_interleaved (accounts : Accounts) (rel : Relationships) (hrel : Coherent rel)
    (events : List (Event Call))
    (hcurrent : Machine.Along (relationshipStep accounts) (OnStatement Current) (State.idle rel) events)
    (s : RelationshipState) (hrun : Machine.run (relationshipStep accounts) (State.idle rel) events = some s) :
    Coherent s.table :=
  ((coherent_rules accounts).run (sound_idle hrel) hcurrent hrun).1

/-- bob's block of alice, with alice's whole request between its reads and its write. -/
def blockDuringRequest : List (Event Call) :=
  [.begin (.blockUser "bob" "alice"), .stmt 0, .stmt 0, .begin (.sendFriendRequest "alice" { targetId := some "bob" }),
    .stmt 1, .stmt 1, .stmt 1, .commit 1, .stmt 0, .commit 0]

/-- Not every interleaving keeps the table coherent: after `blockDuringRequest`, alice still requests bob, who blocks
her. -/
theorem not_coherent_interleaved :
    ¬∀ (accounts : Accounts) (rel : Relationships) (events : List (Event Call)) (s : RelationshipState),
      (∀ e ∈ accounts.rows, e.status = .ACTIVE) → Coherent rel →
      Machine.run (relationshipStep accounts) (State.idle rel) events = some s → Coherent s.table := by
  intro h
  have hempty : Coherent noRelationships := fun a b _ => by simp [noRelationships]
  obtain ⟨s, hs⟩ : ∃ s, Machine.run (relationshipStep activeAccounts) (State.idle noRelationships)
      blockDuringRequest = some s := ⟨_, rfl⟩
  have hrows : s.table ("alice", "bob") = some .REQUESTING ∧ s.table ("bob", "alice") = some .BLOCKED := by
    have : (Machine.run (relationshipStep activeAccounts) (State.idle noRelationships) blockDuringRequest).map
        (fun s => (s.table ("alice", "bob"), s.table ("bob", "alice"))) = some (some .REQUESTING, some .BLOCKED) := by
      decide
    rw [hs] at this
    simpa using this
  have hc := (h activeAccounts noRelationships blockDuringRequest s (by decide) hempty hs "alice" "bob" (by decide)).1
  simp [hrows] at hc

/-- The same two calls, with the request committed between the two reads of the block. -/
def requestDuringBlock : List (Event Call) :=
  [.begin (.sendFriendRequest "alice" { targetId := some "bob" }), .stmt 0, .stmt 0, .stmt 0,
    .begin (.blockUser "bob" "alice"), .stmt 1, .commit 0, .stmt 0, .stmt 0, .stmt 0, .commit 0]

theorem coherent_interleaved_sample :
    ∃ s, Machine.run (relationshipStep activeAccounts) (State.idle noRelationships) requestDuringBlock = some s ∧
      Coherent s.table :=
  ⟨_, rfl, coherent_interleaved activeAccounts noRelationships (fun a b _ => by simp [noRelationships])
    requestDuringBlock (by decide) _ rfl⟩

end DiscordClone
