import DiscordClone.Lib.ReadCommitted
import DiscordClone.User.Rows

/-!
# What a call leaves behind under any interference

Between the statements of a call other calls may commit, so what it writes rests on rows that it read earlier. Two facts
survive any interference.

- `footprint_tx`: a call that comes to its end has written one of a few patterns on its pair (`Kind.footprints`), and
  has read all it reads before its first write.
- `spares_tx`: a call that sees the row `(a, b)` BLOCKED does not write it, unless it is a block of `b` by `a` or a call
  that lifts it (`Call.Owns`).
-/

namespace DiscordClone

open Transaction Relationships

/-- What an operation may have written when it ends, in its own row and in the other row; the outer `none` is a row that
it has not written. -/
def Kind.footprints : Kind → List (Option (Option RelationshipStatus) × Option (Option RelationshipStatus))
  | .send => [(none, none), (some (some .REQUESTING), some (some .PENDING)), (some (some .FRIEND), some (some .FRIEND))]
  | .accept => [(some (some .FRIEND), some (some .FRIEND))]
  | .ignore | .cancel | .remove => [(some none, some none)]
  | .block => [(some (some .BLOCKED), none), (some (some .BLOCKED), some none)]
  | .unblock => [(some none, none)]

/-- Writes on the two rows of a pair. -/
def pairWrites (x y : String) (f : Option (Option RelationshipStatus) × Option (Option RelationshipStatus)) :
    Tx.Writes (String × String) RelationshipStatus :=
  fun k => if k = (x, y) then f.1 else if k = (y, x) then f.2 else none

/-- No write. -/
def noWrites : Tx.Writes (String × String) RelationshipStatus := fun _ => none

/-- The writes are a footprint of the call. -/
def Footprint (accounts : Accounts) (c : Call) (w : Tx.Writes (String × String) RelationshipStatus) : Prop :=
  ∃ y, c.target accounts = some y ∧ c.account ≠ y ∧ ∃ f ∈ c.kind.footprints, w = pairWrites c.account y f

/-- A block of `b` by `a`, or a call that lifts it. -/
def Call.Owns (accounts : Accounts) (a b : String) (c : Call) : Prop :=
  c.account = a ∧ c.target accounts = some b ∧ c.kind = .block ∨ c.Lifts accounts a b

instance (accounts : Accounts) (a b : String) (c : Call) : Decidable (c.Owns accounts a b) :=
  inferInstanceAs (Decidable (_ ∨ _))

section Writes

variable {x y : String} {f : Option (Option RelationshipStatus) × Option (Option RelationshipStatus)}

theorem pairWrites_own : pairWrites x y f (x, y) = f.1 := if_pos rfl

theorem pairWrites_other (h : x ≠ y) : pairWrites x y f (y, x) = f.2 := by
  rw [pairWrites, if_neg (swap_ne h).symm, if_pos rfl]

theorem pairWrites_frame {k : String × String} (h₁ : k ≠ (x, y)) (h₂ : k ≠ (y, x)) : pairWrites x y f k = none := by
  rw [pairWrites, if_neg h₁, if_neg h₂]

theorem pairWrites_none (x y : String) : noWrites = pairWrites x y (none, none) := by
  funext k
  simp [noWrites, pairWrites]

theorem update_own (p : Option RelationshipStatus) :
    Function.update (pairWrites x y f) (x, y) (some p) = pairWrites x y (some p, f.2) := by
  funext k
  by_cases h : k = (x, y)
  · rw [h, Function.update_self, pairWrites_own]
  · rw [Function.update_of_ne h]
    simp [pairWrites, h]

theorem update_other (h : x ≠ y) (q : Option RelationshipStatus) :
    Function.update (pairWrites x y f) (y, x) (some q) = pairWrites x y (f.1, some q) := by
  funext k
  by_cases hk : k = (y, x)
  · rw [hk, Function.update_self, pairWrites_other h]
  · rw [Function.update_of_ne hk]
    simp [pairWrites, hk]

/-- What a transaction with these writes sees. -/
theorem view_pairWrites (h : x ≠ y) (t : Relationships) :
    view t (pairWrites x y f) = t.setPair x y (f.1.getD (t (x, y)), f.2.getD (t (y, x))) := by
  funext k
  by_cases h₁ : k = (x, y)
  · rw [h₁, setPair_own h, view, pairWrites_own]
  · by_cases h₂ : k = (y, x)
    · rw [h₂, setPair_other, view, pairWrites_other h]
    · rw [setPair_frame h₁ h₂, view, pairWrites_frame h₁ h₂, Option.getD_none]

end Writes

/-! ## Footprints -/

section Footprints

variable {accounts : Accounts} {x y : String} {R : Tx.Writes (String × String) RelationshipStatus → Prop}
  {Q : Unit → Tx.Writes (String × String) RelationshipStatus → Prop}
  {w : Tx.Writes (String × String) RelationshipStatus}

/-- The checks write nothing. -/
theorem ends_checked {body : SelectedAccount × SelectedAccount → RelationshipTx Unit} (hR : R w)
    (h : x ≠ y → ∀ p q, (body (⟨x, p⟩, ⟨y, q⟩)).Ends R Q w) :
    (do
      UserService.verifySelfInvoke x y
      let r ← UserService.verifyAccounts accounts x y
      body r : RelationshipTx Unit).Ends R Q w := by
  rw [checked_eq]
  by_cases hxy : x = y
  · simp [hxy]
  · rw [if_neg hxy]
    refine ⟨hR, fun rel => ?_⟩
    by_cases hx : accounts.Active x
    · simp only [hx, if_true]
      refine ⟨hR, fun rel' => ?_⟩
      by_cases hy : accounts.Active y
      · simp only [hy, if_true]
        exact h hxy _ _
      · simp [hy]
    · simp [hx]

/-- Deleting both rows. -/
theorem ends_deleteBoth (hxy : x ≠ y) (h : Q () (pairWrites x y (some none, some none))) :
    (UserService.deleteBothRelationship x y).Ends R Q noWrites := by
  simp only [UserService.deleteBothRelationship, Tx.delete_bind]
  simp only [Tx.delete, Tx.ends_delete, Tx.ends_ret]
  rwa [pairWrites_none x y, update_own, update_other hxy]

theorem ends_deleteBothIf {own other : RelationshipStatus} {e : Exception} (hR : R noWrites)
    (h : x ≠ y → Q () (pairWrites x y (some none, some none))) :
    (UserService.deleteBothIf accounts own other e x y).Ends R Q noWrites := by
  refine ends_checked hR fun hxy p q => ?_
  simp only
  split_ifs
  · exact ends_deleteBoth hxy (h hxy)
  · trivial

/-- The three ways a request ends. -/
theorem ends_requestTo (hxy : x ≠ y) (q : List RelationshipStatus)
    (h : ∀ f ∈ Kind.footprints .send, Q () (pairWrites x y f)) : (UserService.requestTo x y q).Ends R Q noWrites := by
  rw [pairWrites_none x y]
  unfold UserService.requestTo
  split
  · trivial
  · trivial
  · simp only [Tx.update_bind, Tx.upsert, Tx.ends_update, Tx.ends_upsert, Tx.ends_ret]
    rw [update_other hxy, update_own]
    exact h _ (by simp [Kind.footprints])
  · exact h _ (by simp [Kind.footprints])
  · simp only [Tx.upsert_bind, Tx.create, Tx.ends_create, Tx.ends_upsert, Tx.ends_ret]
    rw [update_own, update_other hxy]
    exact h _ (by simp [Kind.footprints])

/-- **A call that comes to its end leaves one of its footprints**, and reads before it writes. -/
theorem footprint_tx (accounts : Accounts) (c : Call) :
    (c.tx accounts).Ends (· = noWrites) (fun _ => Footprint accounts c) noWrites := by
  cases c with
  | sendFriendRequest x data =>
    simp only [Call.tx]
    rcases send_cases accounts x data with ⟨y, ht, hxy, -, hp⟩ | ⟨-, e, hp | hp⟩
    · rw [hp]
      exact ⟨rfl, fun rel => ends_requestTo hxy _ fun f hf => ⟨y, ht, hxy, f, hf, rfl⟩⟩
    · rw [hp]
      trivial
    · rw [hp]
      exact ⟨rfl, fun _ => trivial⟩
  | feedbackFriendRequest type x y =>
    refine ends_checked rfl fun hxy p q => ?_
    simp only
    split_ifs
    · cases type with
      | accept =>
        simp only [Tx.update_bind]
        simp only [Tx.update, Tx.ends_update, Tx.ends_ret]
        rw [pairWrites_none x y, update_own, update_other hxy]
        exact ⟨y, rfl, hxy, _, by simp [Call.kind, Kind.footprints], rfl⟩
      | ignore => exact ends_deleteBoth hxy ⟨y, rfl, hxy, _, by simp [Call.kind, Kind.footprints], rfl⟩
    · trivial
  | cancelFriendRequest x y =>
    exact ends_deleteBothIf rfl fun hxy => ⟨y, rfl, hxy, _, by simp [Call.kind, Kind.footprints], rfl⟩
  | removeFriend x y =>
    exact ends_deleteBothIf rfl fun hxy => ⟨y, rfl, hxy, _, by simp [Call.kind, Kind.footprints], rfl⟩
  | blockUser x y =>
    refine ends_checked rfl fun hxy p q => ?_
    have hfoot : ∀ f ∈ Kind.footprints .block, Footprint accounts (.blockUser x y) (pairWrites x y f) :=
      fun f hf => ⟨y, rfl, hxy, f, hf, rfl⟩
    simp only [Tx.upsert_bind, Tx.ends_upsert]
    rw [pairWrites_none x y, update_own]
    split
    · split_ifs
      · simp only [Tx.delete, Tx.ends_delete, Tx.ends_ret]
        rw [update_other hxy]
        exact hfoot _ (by simp [Kind.footprints])
      · exact hfoot _ (by simp [Kind.footprints])
    · exact hfoot _ (by simp [Kind.footprints])
  | unblockUser x y =>
    refine ends_checked rfl fun hxy p q => ?_
    simp only
    split_ifs
    · simp only [Tx.delete, Tx.ends_delete, Tx.ends_ret]
      rw [pairWrites_none x y, update_own]
      exact ⟨y, rfl, hxy, _, by simp [Call.kind, Kind.footprints], rfl⟩
    · trivial

end Footprints

/-! ## The row of a block -/

section Spares

variable {accounts : Accounts} {a b x y : String}

/-- The checks see the row where it is one of theirs. -/
theorem spares_checked {body : SelectedAccount × SelectedAccount → RelationshipTx Unit}
    (h : x ≠ y → ∀ p q, ((x, y) = (a, b) → p = [.BLOCKED]) → ((y, x) = (a, b) → q = [.BLOCKED]) →
      (body (⟨x, p⟩, ⟨y, q⟩)).Spares (a, b) .BLOCKED) :
    (do
      UserService.verifySelfInvoke x y
      let r ← UserService.verifyAccounts accounts x y
      body r : RelationshipTx Unit).Spares (a, b) .BLOCKED := by
  rw [checked_eq]
  by_cases hxy : x = y
  · simp [hxy]
  · rw [if_neg hxy]
    intro rel hrel
    by_cases hx : accounts.Active x
    · simp only [hx, if_true]
      intro rel' hrel'
      by_cases hy : accounts.Active y
      · simp only [hy, if_true]
        refine h hxy _ _ (fun e => ?_) fun e => ?_
        · rw [e, hrel]
          rfl
        · rw [e, hrel']
          rfl
      · simp [hy]
    · simp [hx]

/-- A condition on both rows is met only where neither of them is the row of the block. -/
theorem spares_both (own other : RelationshipStatus) (tx : String → String → RelationshipTx Unit) {e : Exception}
    (ho : own ≠ .BLOCKED) (ho' : other ≠ .BLOCKED)
    (htx : (x, y) ≠ (a, b) → (y, x) ≠ (a, b) → (tx x y).Spares (a, b) .BLOCKED) :
    (do
      UserService.verifySelfInvoke x y
      let (account, target) ← UserService.verifyAccounts accounts x y
      if account.relationship[0]? = some own ∧ target.relationship[0]? = some other then tx account.id target.id
      else .throw e : RelationshipTx Unit).Spares (a, b) .BLOCKED := by
  refine spares_checked fun hxy p q hp hq => ?_
  simp only
  split_ifs with hc
  · refine htx (fun h => ho ?_) fun h => ho' ?_
    · rw [hp h] at hc
      exact (Option.some.inj hc.1).symm
    · rw [hq h] at hc
      exact (Option.some.inj hc.2).symm
  · trivial

theorem spares_deleteBoth (h₁ : (x, y) ≠ (a, b)) (h₂ : (y, x) ≠ (a, b)) :
    (UserService.deleteBothRelationship x y).Spares (a, b) .BLOCKED := by
  simp only [UserService.deleteBothRelationship, Tx.delete_bind]
  exact Tx.spares_exec_ne h₁ (Tx.spares_delete_ne h₂)

theorem spares_requestTo {q : List RelationshipStatus} (hne : (x, y) ≠ (a, b))
    (hq : (y, x) = (a, b) → q = [.BLOCKED]) : (UserService.requestTo x y q).Spares (a, b) .BLOCKED := by
  by_cases h : (y, x) = (a, b)
  · rw [hq h]
    trivial
  · unfold UserService.requestTo
    split
    · trivial
    · trivial
    · exact Tx.spares_exec_ne h (Tx.spares_upsert_ne hne)
    · trivial
    · exact Tx.spares_exec_ne hne Tx.spares_create

/-- **A call that sees the row BLOCKED does not write it**, unless it is one of its owner's. -/
theorem spares_tx {c : Call} (hc : ¬c.Owns accounts a b) : (c.tx accounts).Spares (a, b) .BLOCKED := by
  cases c with
  | sendFriendRequest x data =>
    simp only [Call.tx]
    rcases send_cases accounts x data with ⟨y, ht, hxy, -, hp⟩ | ⟨-, e, hp | hp⟩
    · have hne : (x, y) ≠ (a, b) := by
        intro h
        cases h
        exact hc (Or.inr ⟨rfl, ht, Or.inr rfl⟩)
      rw [hp]
      intro rel hrel
      refine spares_requestTo hne fun h => ?_
      rw [h, hrel]
      rfl
    · rw [hp]
      trivial
    · rw [hp]
      exact fun _ _ => trivial
  | feedbackFriendRequest type x y =>
    cases type with
    | accept =>
      let befriend (x y : String) : RelationshipTx Unit := do
        Tx.update (x, y) fun _ => .FRIEND
        Tx.update (y, x) fun _ => .FRIEND
      exact spares_both .PENDING .REQUESTING befriend (by decide) (by decide) fun h₁ h₂ =>
        Tx.spares_exec_ne h₁ (Tx.spares_update_ne h₂)
    | ignore => exact spares_both .PENDING .REQUESTING _ (by decide) (by decide) spares_deleteBoth
  | cancelFriendRequest x y => exact spares_both .REQUESTING .PENDING _ (by decide) (by decide) spares_deleteBoth
  | removeFriend x y => exact spares_both .FRIEND .FRIEND _ (by decide) (by decide) spares_deleteBoth
  | blockUser x y =>
    refine spares_checked fun hxy p q hp hq => ?_
    have hne : (x, y) ≠ (a, b) := by
      intro h
      cases h
      exact hc (Or.inl ⟨rfl, rfl, rfl⟩)
    refine Tx.spares_exec_ne hne ?_
    by_cases h : (y, x) = (a, b)
    · rw [hq h]
      trivial
    · simp only
      split
      · split_ifs
        · exact Tx.spares_delete_ne h
        · trivial
      · trivial
  | unblockUser x y =>
    refine spares_checked fun hxy p q hp hq => ?_
    have hne : (x, y) ≠ (a, b) := by
      intro h
      cases h
      exact hc (Or.inr ⟨rfl, rfl, Or.inl rfl⟩)
    simp only
    split_ifs
    · exact Tx.spares_delete_ne hne
    · trivial

end Spares

end DiscordClone
