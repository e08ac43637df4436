import DiscordClone.Dm.Sending
import DiscordClone.Lib.Isolation

/-!
# Where side by side is one after another

A relationship operation and a message work on the two rows of their pair (`traffic_within`). So they disturb one
another only about the same pair.

- `traffic_serial`: a run in which no commit changes the pair of another one that has begun to read is a serial run of
  those that commit, in the order of their commits. What has thrown would throw alone.
- `traffic_serial_sample`: calls and messages of two pairs, side by side.
-/

namespace DiscordClone

open Transaction Relationships

/-- The rows of the pair that a call or a message is about. -/
def Traffic.rows (accounts : Accounts) : Traffic → List (String × String)
  | .inl c => (c.target accounts).elim [] fun y => [(c.account, y), (y, c.account)]
  | .inr d => [(d.senderId, d.targetId), (d.targetId, d.senderId)]

/-! ## The rows of a pair -/

section Within

variable {accounts : Accounts} {x y : String}

/-- The checks read the two rows. -/
theorem within_checked {body : SelectedAccount × SelectedAccount → RelationshipTx Unit}
    (h : ∀ p q, (body (⟨x, p⟩, ⟨y, q⟩)).Within [(x, y), (y, x)]) :
    (do
      UserService.verifySelfInvoke x y
      let r ← UserService.verifyAccounts accounts x y
      body r : RelationshipTx Unit).Within [(x, y), (y, x)] := by
  rw [checked_eq]
  by_cases hxy : x = y
  · rw [if_pos hxy]
    trivial
  · rw [if_neg hxy]
    refine ⟨fun rel rel' hrel => by simp only [hrel (x, y) (by simp)], fun rel => ?_⟩
    by_cases hx : accounts.Active x
    · simp only [hx, if_true]
      refine ⟨fun rel' rel'' hrel => by simp only [hrel (y, x) (by simp)], fun rel' => ?_⟩
      by_cases hy : accounts.Active y
      · simp only [hy, if_true]
        exact h _ _
      · simp only [hy, if_false]
        trivial
    · simp only [hx, if_false]
      trivial

theorem within_deleteBoth : (UserService.deleteBothRelationship x y).Within [(x, y), (y, x)] := by
  simp [UserService.deleteBothRelationship, Tx.delete, Tx.Within]

theorem within_deleteBothIf (own other : RelationshipStatus) (e : Exception) :
    (UserService.deleteBothIf accounts own other e x y).Within [(x, y), (y, x)] := by
  refine within_checked fun p q => ?_
  simp only
  split
  · exact within_deleteBoth
  · trivial

theorem within_requestTo (q : List RelationshipStatus) : (UserService.requestTo x y q).Within [(x, y), (y, x)] := by
  unfold UserService.requestTo
  split <;> simp [Tx.upsert, Tx.create, Tx.Within]

/-- **A call works on the rows of its pair.** -/
theorem within_tx (accounts : Accounts) (c : Call) : (c.tx accounts).Within (Traffic.rows accounts (.inl c)) := by
  cases c with
  | sendFriendRequest x data =>
    simp only [Call.tx]
    rcases send_cases accounts x data with ⟨y, ht, hxy, -, hp⟩ | ⟨-, e, hp | hp⟩
    · rw [hp, Traffic.rows, ht]
      exact ⟨fun rel rel' hrel => by simp only [hrel (y, x) (by simp [Call.account])], fun rel => within_requestTo _⟩
    · rw [hp]
      trivial
    · rw [hp]
      exact ⟨fun _ _ _ => rfl, fun _ => trivial⟩
  | feedbackFriendRequest type x y =>
    refine within_checked fun p q => ?_
    simp only
    split
    · cases type with
      | accept => simp [Tx.update, Tx.Within, Call.account]
      | ignore => exact within_deleteBoth
    · trivial
  | cancelFriendRequest x y => exact within_deleteBothIf _ _ _
  | removeFriend x y => exact within_deleteBothIf _ _ _
  | blockUser x y =>
    refine within_checked fun p q => ?_
    simp only [Tx.upsert_bind]
    refine ⟨by simp [Call.account], ?_⟩
    split
    · split
      · simp [Tx.delete, Tx.Within, Call.account]
      · trivial
    · trivial
  | unblockUser x y =>
    refine within_checked fun p q => ?_
    simp only
    split
    · simp [Tx.delete, Tx.Within, Call.account]
    · trivial

/-- A message works on the rows of its pair. -/
theorem within_sending (accounts : Accounts) (d : Sending) :
    (d.tx accounts).Within (Traffic.rows accounts (.inr d)) := by
  have hcreate : d.create.Within (Traffic.rows accounts (.inr d)) := by
    unfold Sending.create
    split <;> trivial
  rw [sending_eq]
  refine ⟨fun _ _ _ => rfl, fun rel => ?_⟩
  dsimp only
  split
  · refine ⟨fun rel' rel'' hrel => ?_, fun rel' => ?_⟩
    · simp only [hrel (d.targetId, d.senderId) (by simp [Traffic.rows])]
    dsimp only
    split
    · split
      · trivial
      · exact hcreate
    · trivial
  · trivial

theorem traffic_within (accounts : Accounts) (c : Traffic) : (c.tx accounts).Within (c.rows accounts) := by
  cases c with
  | inl c => exact within_tx accounts c
  | inr d => exact within_sending accounts d

end Within

/-! ## Serial runs -/

/-- The table after a call or a message that runs alone and succeeds. -/
theorem alone_call {accounts : Accounts} {rel rel' : Relationships} {c : Call} :
    alone (Traffic.tx accounts) rel (.inl c) = some rel' ↔ c.exec accounts rel = .ok rel' := by
  unfold alone Call.exec Traffic.tx
  cases (c.tx accounts).run rel <;> simp [Except.map, Except.toOption]

theorem alone_sending {accounts : Accounts} {rel rel' : Relationships} {d : Sending}
    (h : alone (Traffic.tx accounts) rel (.inr d) = some rel') : rel' = rel := by
  unfold alone Traffic.tx at h
  cases hrun : (d.tx accounts).run rel with
  | error e =>
    rw [hrun] at h
    cases h
  | ok r =>
    rw [hrun] at h
    cases h
    exact (sending_readOnly accounts d).run_table hrun

/-- A call or a message that runs alone keeps the rows of every pair matched. -/
theorem wellPaired_alone {accounts : Accounts} (rel : Relationships) (c : Traffic) (rel' : Relationships)
    (h : WellPaired rel) (ha : alone (Traffic.tx accounts) rel c = some rel') : WellPaired rel' := by
  cases c with
  | inl c =>
    have hnext := h.apply accounts c
    rwa [Call.apply, alone_call.mp ha] at hnext
  | inr d => rwa [alone_sending ha]

/-- **Calls and messages that do not disturb one another run as if one after another.** In every interleaving in which
no commit changes the pair of another call or message that has begun to read: the ones that commit succeed, in the order
of their commits, when each runs alone on the table that the ones before it have left, and together they leave this
table; what has thrown throws the same when it runs alone on the committed table. So the rows of every pair stay
matched. -/
theorem traffic_serial (accounts : Accounts) (rel : Relationships) (events : List (Event Traffic))
    (hundisturbed : Machine.Along (trafficStep accounts)
      (Undisturbed (Traffic.tx accounts) (Traffic.rows accounts)) (State.idle rel) events)
    (s : TrafficState) (hrun : Machine.run (trafficStep accounts) (State.idle rel) events = some s) :
    Machine.run (alone (Traffic.tx accounts)) rel (committed (Traffic.tx accounts) (State.idle rel) events) =
        some s.table ∧
      (∀ w ∈ s.active, ∀ e, w.prog = .throw e → (w.call.tx accounts).run s.table = .error (.thrown e)) ∧
      (WellPaired rel → WellPaired s.table) := by
  have hidle : ∀ w ∈ (State.idle rel : TrafficState).active, w.AsAlone (Traffic.tx accounts) rel := nofun
  have hserial := serial_of_undisturbed (traffic_within accounts) hidle hundisturbed hrun
  refine ⟨hserial, fun w hw e hp => ?_, fun hpaired => ?_⟩
  · have halone := asAlone_run (traffic_within accounts) hidle hundisturbed hrun w hw
    rw [halone.run_eq, hp]
    rfl
  · exact Machine.run_inv' wellPaired_alone hpaired hserial

/-- A message of bob to carol. -/
def bobWritesCarol : Traffic :=
  .inr ⟨"bob", "carol", .ok
    { id := "m", senderId := "bob", targetId := "carol", content := "hi", createdAt := 0, updatedAt := 0 }⟩

/-- alice requests bob while carol blocks alice, and bob writes to carol while he accepts. -/
def twoPairs : List (Event Traffic) :=
  [.begin (.inl (.sendFriendRequest "alice" { targetId := some "bob" })), .begin (.inl (.blockUser "carol" "alice")),
    .stmt 0, .stmt 1, .stmt 1, .stmt 0, .stmt 1, .stmt 0, .commit 0,
    .begin (.inl (.feedbackFriendRequest .accept "bob" "alice")), .begin bobWritesCarol, .stmt 1, .stmt 2, .stmt 1,
    .stmt 1, .stmt 2, .commit 0, .stmt 0, .commit 1, .commit 0]

theorem traffic_serial_sample :
    ∃ s, Machine.run (trafficStep activeAccounts) (State.idle noRelationships) twoPairs = some s ∧
      Machine.run (alone (Traffic.tx activeAccounts)) noRelationships
        (committed (Traffic.tx activeAccounts) (State.idle noRelationships) twoPairs) = some s.table ∧
      WellPaired s.table := by
  obtain ⟨s, hs⟩ : ∃ s, Machine.run (trafficStep activeAccounts) (State.idle noRelationships) twoPairs = some s :=
    ⟨_, rfl⟩
  have hseparate : Machine.Along (trafficStep activeAccounts) (Separate (Traffic.rows activeAccounts))
      (State.idle noRelationships) twoPairs := by decide
  obtain ⟨hserial, -, hpaired⟩ := traffic_serial activeAccounts noRelationships twoPairs
    (hseparate.mono fun _ _ h => h.undisturbed) s hs
  exact ⟨s, hs, hserial, hpaired wellPaired_empty⟩

end DiscordClone
