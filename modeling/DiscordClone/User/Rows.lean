import DiscordClone.User.Service

/-!
# What a call does to the two rows of a pair

A call of `x` about `y` reads and writes only the rows `(x, y)` and `(y, x)`. Alone, it is a function of these two rows
(`Kind.rows`), once the checks that do not look at them have passed (`Call.Admitted`): `commits_eq`. Everything about
serial runs is read off this function.
-/

namespace DiscordClone

open Transaction

/-- The seven operations on a pair. -/
inductive Kind where
  | send | accept | ignore | cancel | remove | block | unblock
  deriving DecidableEq, Repr

/-- What the operation leaves in the caller's row `p` and in the other row `q`; `none` when it throws. -/
def Kind.rows (k : Kind) (p q : Option RelationshipStatus) :
    Option (Option RelationshipStatus × Option RelationshipStatus) :=
  match k with
  | .send =>
    match q with
    | none => some (some .REQUESTING, some .PENDING)
    | some .PENDING => some (p, q)
    | some .REQUESTING => some (some .FRIEND, some .FRIEND)
    | some .FRIEND | some .BLOCKED => none
  | .accept => if p = some .PENDING ∧ q = some .REQUESTING then some (some .FRIEND, some .FRIEND) else none
  | .ignore => if p = some .PENDING ∧ q = some .REQUESTING then some (none, none) else none
  | .cancel => if p = some .REQUESTING ∧ q = some .PENDING then some (none, none) else none
  | .remove => if p = some .FRIEND ∧ q = some .FRIEND then some (none, none) else none
  | .block => some (some .BLOCKED, if q = some .BLOCKED then q else none)
  | .unblock => if p = some .BLOCKED then some (none, q) else none

namespace Relationships

/-- The table with the two rows of a pair replaced. -/
def setPair (rel : Relationships) (x y : String) (r : Option RelationshipStatus × Option RelationshipStatus) :
    Relationships := Function.update (Function.update rel (x, y) r.1) (y, x) r.2

variable {rel : Relationships} {x y : String} {r : Option RelationshipStatus × Option RelationshipStatus}

theorem swap_ne (h : x ≠ y) : (x, y) ≠ (y, x) := fun e => h (Prod.mk.inj e).1

@[simp] theorem setPair_other : rel.setPair x y r (y, x) = r.2 := Function.update_self _ _ _

theorem setPair_own (h : x ≠ y) : rel.setPair x y r (x, y) = r.1 := by
  rw [setPair, Function.update_of_ne (swap_ne h), Function.update_self]

/-- Rows of other pairs are untouched. -/
theorem setPair_frame {k : String × String} (h₁ : k ≠ (x, y)) (h₂ : k ≠ (y, x)) : rel.setPair x y r k = rel k := by
  rw [setPair, Function.update_of_ne h₂, Function.update_of_ne h₁]

/-- Writing the other row back changes nothing. -/
theorem setPair_keep_other (rel : Relationships) (h : x ≠ y) (p : Option RelationshipStatus) :
    rel.setPair x y (p, rel (y, x)) = Function.update rel (x, y) p := by
  rw [setPair, ← Function.update_of_ne (swap_ne h).symm p rel, Function.update_eq_self]

/-- Writing both rows back changes nothing. -/
theorem setPair_keep (rel : Relationships) (h : x ≠ y) : rel.setPair x y (rel (x, y), rel (y, x)) = rel := by
  rw [setPair_keep_other rel h, Function.update_eq_self]

theorem setPair_comm (rel : Relationships) (h : x ≠ y) (p q : Option RelationshipStatus) :
    Function.update (Function.update rel (y, x) q) (x, y) p = rel.setPair x y (p, q) := by
  rw [setPair, Function.update_comm (swap_ne h)]

end Relationships

open Relationships

namespace Call

def kind : Call → Kind
  | .sendFriendRequest .. => .send
  | .feedbackFriendRequest .accept .. => .accept
  | .feedbackFriendRequest .ignore .. => .ignore
  | .cancelFriendRequest .. => .cancel
  | .removeFriend .. => .remove
  | .blockUser .. => .block
  | .unblockUser .. => .unblock

/-- The call passes the checks that do not look at the rows: the request asks for registered accounts, the others for
ACTIVE ones. -/
def Admitted (accounts : Accounts) (c : Call) (y : String) : Prop :=
  c.account ≠ y ∧ match c.kind with
    | .send => accounts.Registered c.account
    | _ => accounts.Active c.account ∧ accounts.Active y

instance (accounts : Accounts) (c : Call) (y : String) : Decidable (c.Admitted accounts y) := by
  unfold Admitted
  cases c.kind <;> infer_instance

/-- An unblock of `b` by `a`, or a request of `a` to `b`: the two calls with which `a` gives up a block of `b`. -/
def Lifts (accounts : Accounts) (a b : String) (c : Call) : Prop :=
  c.account = a ∧ c.target accounts = some b ∧ (c.kind = .unblock ∨ c.kind = .send)

instance (accounts : Accounts) (a b : String) (c : Call) : Decidable (c.Lifts accounts a b) :=
  inferInstanceAs (Decidable (_ ∧ _))

/-- The committed table, when the call succeeds. -/
def commits (accounts : Accounts) (c : Call) (rel : Relationships) : Option Relationships :=
  (c.exec accounts rel).toOption

end Call

/-! ## The lookups -/

section Lookups

variable {accounts : Accounts} {rel : Relationships} {x y : String}

/-- A lookup by the id finds the account with this id, if any. -/
theorem findFirst_id {p : Account → Bool} {e : Account}
    (h : (accounts.findFirst fun e => decide (e.id = x) && p e) = some e) :
    e ∈ accounts.rows ∧ e.id = x ∧ p e = true := by
  have hp := List.find?_some h
  rw [Bool.and_eq_true, decide_eq_true_eq] at hp
  exact ⟨List.mem_of_find?_eq_some h, hp.1, hp.2⟩

/-- The select of an ACTIVE account. -/
theorem select_active (accounts : Accounts) (rel : Relationships) (x t : String) :
    (accounts.findFirst fun e => decide (e.id = x) && decide (e.status = .ACTIVE)).map (selectWith rel t) =
      if accounts.Active x then some ⟨x, (rel (x, t)).toList⟩ else none := by
  cases hf : accounts.findFirst fun e => decide (e.id = x) && decide (e.status = .ACTIVE) with
  | none =>
    have hn : ¬accounts.Active x := by
      rintro ⟨e, he, hid, hs⟩
      have := List.find?_eq_none.mp hf e he
      simp [hid, hs] at this
    rw [if_neg hn, Option.map_none]
  | some e =>
    obtain ⟨he, rfl, hs⟩ := findFirst_id hf
    rw [if_pos ⟨e, he, rfl, by simpa using hs⟩, Option.map_some, selectWith]

/-- The lookup of the caller of a request. -/
theorem findFirst_registered (accounts : Accounts) (x : String) :
    (accounts.findFirst fun e => decide (e.id = x)).map Account.id =
      if accounts.Registered x then some x else none := by
  cases hf : accounts.findFirst fun e => decide (e.id = x) with
  | none =>
    have hn : ¬accounts.Registered x := by
      rintro ⟨e, he, hid⟩
      have := List.find?_eq_none.mp hf e he
      simp [hid] at this
    rw [if_neg hn, Option.map_none]
  | some e =>
    have hid : e.id = x := by simpa using List.find?_some hf
    rw [if_pos ⟨e, List.mem_of_find?_eq_some hf, hid⟩, Option.map_some, hid]

/-- A transaction that checks both accounts first, as a program: each select sees the rows as they are then. -/
theorem checked_eq (accounts : Accounts) (x y : String)
    (body : SelectedAccount × SelectedAccount → RelationshipTx Unit) :
    (do
      UserService.verifySelfInvoke x y
      let r ← UserService.verifyAccounts accounts x y
      body r : RelationshipTx Unit) =
    if x = y then .throw invalidSelfInvoke else
    .query fun rel => if accounts.Active x then
      .query fun rel' => if accounts.Active y then body (⟨x, (rel (x, y)).toList⟩, ⟨y, (rel' (y, x)).toList⟩)
        else .throw targetNotFound
      else .throw accountNotFound := by
  unfold UserService.verifySelfInvoke
  by_cases hxy : x = y
  · simp [hxy]
  · simp only [hxy, if_false, Tx.pure_eq, Tx.ret_bind, UserService.verifyAccounts, Tx.select_bind, Tx.query_bind,
      select_active]
    congr 1
    funext rel
    by_cases hx : accounts.Active x
    · simp only [hx, if_true, Tx.query_bind]
      congr 1
      funext rel'
      by_cases hy : accounts.Active y <;> simp [hy]
    · simp [hx]

/-- A request, as a program: refused without a look at the rows, or decided by the target's row. -/
theorem send_cases (accounts : Accounts) (x : String) (data : SendFriendRequestDto) :
    (∃ y, (Call.sendFriendRequest x data).target accounts = some y ∧ x ≠ y ∧ accounts.Registered x ∧
      UserService.sendFriendRequest accounts x data =
        .query fun rel => UserService.requestTo x y (rel (y, x)).toList) ∨
    (¬∃ y, (Call.sendFriendRequest x data).target accounts = some y ∧ x ≠ y ∧ accounts.Registered x) ∧
      ∃ e, UserService.sendFriendRequest accounts x data = .throw e ∨
        UserService.sendFriendRequest accounts x data = .query fun _ => .throw e := by
  unfold UserService.sendFriendRequest
  simp only [Call.target]
  split
  · exact Or.inr ⟨by simp, _, Or.inl rfl⟩
  · have hreg := findFirst_registered accounts x
    cases ha : accounts.findFirst fun e => decide (e.id = x) with
    | none =>
      have hx : ¬accounts.Registered x := by
        intro hx
        simp [ha, hx] at hreg
      exact Or.inr ⟨fun ⟨y, _, _, h⟩ => hx h, _, Or.inl rfl⟩
    | some account =>
      have hx : accounts.Registered x := by
        by_contra hx
        simp [ha, hx] at hreg
      rw [ha, if_pos hx, Option.map_some, Option.some.injEq] at hreg
      simp only [Tx.select_bind]
      cases ht : accounts.findFirst data.condition with
      | none => exact Or.inr ⟨by simp, _, Or.inr rfl⟩
      | some target =>
        simp only [Option.map_some, selectWith, hreg]
        by_cases hxy : x = target.id
        · exact Or.inr ⟨fun ⟨y, hy, h, _⟩ => h (hxy.trans (Option.some.inj hy)), invalidSelfInvoke,
            Or.inr (by simp [hxy])⟩
        · exact Or.inl ⟨target.id, rfl, hxy, hx, by simp [hxy]⟩

end Lookups

/-! ## Each operation alone -/

section Operations

variable {accounts : Accounts} {rel : Relationships} {x y : String}

/-- The rows of a call whose checks have passed. -/
def pairOutcome (k : Kind) (rel : Relationships) (x y : String) : Option Relationships :=
  (k.rows (rel (x, y)) (rel (y, x))).map (rel.setPair x y)

/-- A transaction that checks both accounts first: refused, or its body on the two selected accounts. -/
theorem commits_checked {body : SelectedAccount × SelectedAccount → RelationshipTx Unit} :
    (((do
      UserService.verifySelfInvoke x y
      let r ← UserService.verifyAccounts accounts x y
      body r : RelationshipTx Unit).run rel).map Prod.snd).toOption =
    if x ≠ y ∧ accounts.Active x ∧ accounts.Active y then
      (((body (⟨x, (rel (x, y)).toList⟩, ⟨y, (rel (y, x)).toList⟩)).run rel).map Prod.snd).toOption
    else none := by
  rw [checked_eq]
  by_cases hxy : x = y
  · simp [hxy, Except.map, Except.toOption]
  · by_cases hx : accounts.Active x <;> by_cases hy : accounts.Active y <;>
      simp [hxy, hx, hy, Except.map, Except.toOption]

/-- Deleting both rows of a pair that has both. -/
theorem run_deleteBoth (hxy : x ≠ y) {p q : RelationshipStatus} (hp : rel (x, y) = some p) (hq : rel (y, x) = some q) :
    (UserService.deleteBothRelationship x y).run rel = .ok ((), rel.setPair x y (none, none)) := by
  have hq' : Function.update rel (x, y) none (y, x) = some q := by
    rw [Function.update_of_ne (swap_ne hxy).symm, hq]
  simp only [UserService.deleteBothRelationship, Tx.delete, Tx.exec_bind, Tx.ret_bind]
  rw [Tx.run_delete hp, Tx.run_delete hq', Tx.run_ret, setPair]

theorem toList_head (p : Option RelationshipStatus) : p.toList[0]? = p := by cases p <;> rfl

theorem commits_feedback (type : Feedback) :
    (Call.feedbackFriendRequest type x y).commits accounts rel =
      if x ≠ y ∧ accounts.Active x ∧ accounts.Active y then
        pairOutcome (Call.feedbackFriendRequest type x y).kind rel x y
      else none := by
  unfold Call.commits Call.exec Call.tx UserService.feedbackFriendRequest
  rw [commits_checked]
  refine ite_congr rfl (fun hc => ?_) fun _ => rfl
  obtain ⟨hxy, -, -⟩ := hc
  simp only [toList_head]
  by_cases h : rel (x, y) = some .PENDING ∧ rel (y, x) = some .REQUESTING
  · obtain ⟨hp, hq⟩ := h
    have hq' : Function.update rel (x, y) (some .FRIEND) (y, x) = some .REQUESTING := by
      rw [Function.update_of_ne (swap_ne hxy).symm, hq]
    rw [if_pos ⟨hp, hq⟩]
    cases type with
    | accept =>
      simp only [Tx.update, Tx.exec_bind, Tx.ret_bind]
      rw [Tx.run_update hp, Tx.run_update hq']
      simp [pairOutcome, Call.kind, Kind.rows, hp, hq, setPair, Except.map, Except.toOption]
    | ignore =>
      simp only [run_deleteBoth hxy hp hq]
      simp [pairOutcome, Call.kind, Kind.rows, hp, hq, Except.map, Except.toOption]
  · rw [if_neg h]
    cases type <;> simp [pairOutcome, Call.kind, Kind.rows, h, Except.map, Except.toOption]

/-- The two operations that delete both rows under a condition on both. -/
theorem commits_deleteBothIf {k : Kind} (own other : RelationshipStatus) (e : Exception)
    (hk : ∀ p q, k.rows p q = if p = some own ∧ q = some other then some (none, none) else none) :
    (((UserService.deleteBothIf accounts own other e x y).run rel).map Prod.snd).toOption =
      if x ≠ y ∧ accounts.Active x ∧ accounts.Active y then pairOutcome k rel x y else none := by
  unfold UserService.deleteBothIf
  rw [commits_checked]
  refine ite_congr rfl (fun hc => ?_) fun _ => rfl
  simp only [toList_head, pairOutcome, hk]
  by_cases h : rel (x, y) = some own ∧ rel (y, x) = some other
  · rw [if_pos h, if_pos h, run_deleteBoth hc.1 h.1 h.2]
    rfl
  · rw [if_neg h, if_neg h]
    rfl

theorem commits_block : (Call.blockUser x y).commits accounts rel =
    if x ≠ y ∧ accounts.Active x ∧ accounts.Active y then pairOutcome .block rel x y else none := by
  unfold Call.commits Call.exec Call.tx UserService.blockUser
  rw [commits_checked]
  refine ite_congr rfl (fun hc => ?_) fun _ => rfl
  obtain ⟨hxy, -, -⟩ := hc
  simp only [toList_head, Tx.upsert_bind, pairOutcome, Kind.rows]
  have hkeep := setPair_keep_other rel hxy (some .BLOCKED)
  rw [Tx.run_upsert]
  cases hq : rel (y, x) with
  | none =>
    rw [hq] at hkeep
    simp [Except.map, Except.toOption, hkeep]
  | some q =>
    by_cases hb : q = .BLOCKED
    · rw [hq, hb] at hkeep
      simp [hb, Except.map, Except.toOption, hkeep]
    · have hq' : Function.update rel (x, y) (some .BLOCKED) (y, x) = some q := by
        rw [Function.update_of_ne (swap_ne hxy).symm, hq]
      simp [hb, Tx.delete, Tx.run_delete hq', Except.map, Except.toOption, setPair]

theorem commits_unblock : (Call.unblockUser x y).commits accounts rel =
    if x ≠ y ∧ accounts.Active x ∧ accounts.Active y then pairOutcome .unblock rel x y else none := by
  unfold Call.commits Call.exec Call.tx UserService.unblockUser
  rw [commits_checked]
  refine ite_congr rfl (fun hc => ?_) fun _ => rfl
  simp only [toList_head, pairOutcome, Kind.rows]
  by_cases h : rel (x, y) = some .BLOCKED
  · simp [h, Tx.delete, Tx.run_delete h, Except.map, Except.toOption, setPair_keep_other rel hc.1]
  · rw [if_neg h, if_neg h]
    rfl

/-- The switch of a request, over the row it has read. -/
theorem run_requestTo (hxy : x ≠ y) :
    (((UserService.requestTo x y (rel (y, x)).toList).run rel).map Prod.snd).toOption = pairOutcome .send rel x y := by
  cases hq : rel (y, x) with
  | none =>
    have hq' : Function.update rel (x, y) (some .REQUESTING) (y, x) = none := by
      rw [Function.update_of_ne (swap_ne hxy).symm, hq]
    simp only [UserService.requestTo, Option.toList_none, Tx.upsert_bind, Tx.create]
    rw [Tx.run_upsert, Tx.run_create hq']
    simp [pairOutcome, Kind.rows, hq, setPair, Except.map, Except.toOption]
  | some q =>
    cases q with
    | PENDING =>
      have hkeep := setPair_keep rel hxy
      rw [hq] at hkeep
      simp [UserService.requestTo, pairOutcome, Kind.rows, hq, hkeep, Except.map, Except.toOption]
    | REQUESTING =>
      have hcomm := setPair_comm rel hxy (some .FRIEND) (some .FRIEND)
      simp only [UserService.requestTo, Option.toList_some, Tx.update_bind, Tx.upsert]
      rw [Tx.run_update hq, Tx.run_upsert]
      simp [pairOutcome, Kind.rows, hq, hcomm, Except.map, Except.toOption]
    | FRIEND => simp [UserService.requestTo, pairOutcome, Kind.rows, hq, Except.map, Except.toOption]
    | BLOCKED => simp [UserService.requestTo, pairOutcome, Kind.rows, hq, Except.map, Except.toOption]

theorem commits_send {data : SendFriendRequestDto} :
    (Call.sendFriendRequest x data).commits accounts rel =
      ((Call.sendFriendRequest x data).target accounts).bind fun y =>
        if x ≠ y ∧ accounts.Registered x then pairOutcome .send rel x y else none := by
  unfold Call.commits Call.exec
  simp only [Call.tx]
  rcases send_cases accounts x data with ⟨y, ht, hxy, hx, hp⟩ | ⟨hn, e, hp⟩
  · rw [hp, ht, Tx.run_query, run_requestTo hxy, Option.bind_some, if_pos ⟨hxy, hx⟩]
  · have hnone : (((UserService.sendFriendRequest accounts x data).run rel).map Prod.snd).toOption = none := by
      rcases hp with hp | hp <;> rw [hp] <;> rfl
    rw [hnone]
    cases ht : (Call.sendFriendRequest x data).target accounts with
    | none => rfl
    | some y => rw [Option.bind_some, if_neg fun h => hn ⟨y, ht, h⟩]

end Operations

/-- **A call is a function of the two rows of its pair.** -/
theorem commits_eq {accounts : Accounts} {c : Call} {y : String} (ht : c.target accounts = some y)
    (rel : Relationships) :
    c.commits accounts rel = if c.Admitted accounts y then pairOutcome c.kind rel c.account y else none := by
  cases c with
  | sendFriendRequest x data =>
    rw [commits_send, ht]
    rfl
  | feedbackFriendRequest type x z =>
    cases ht
    rw [commits_feedback]
    cases type <;> rfl
  | cancelFriendRequest x z =>
    cases ht
    exact commits_deleteBothIf _ _ _ fun _ _ => rfl
  | removeFriend x z =>
    cases ht
    exact commits_deleteBothIf _ _ _ fun _ _ => rfl
  | blockUser x z =>
    cases ht
    exact commits_block
  | unblockUser x z =>
    cases ht
    exact commits_unblock

end DiscordClone
