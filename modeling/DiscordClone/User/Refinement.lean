import DiscordClone.User.Pair
import DiscordClone.Sample

/-!
# Serial runs refine one machine per pair

A serial run is a list of calls, each an atomic transaction that changes nothing when it throws (`Call.apply`).

- `apply_cases`: a call changes nothing, or it is admitted and replaces the two rows of its pair.
- `wellPaired_run`: every run from a well paired table keeps it well paired.
- `relationships_refine_pairs`: from the empty table, the rows of every pair encode one state of the machine at any
  time, and a call succeeds exactly when the machine moves, and moves the pair as the machine does.
-/

namespace DiscordClone

open Transaction Relationships

/-- The table after a serial run. -/
def runCalls (accounts : Accounts) (rel : Relationships) (calls : List Call) : Relationships :=
  calls.foldl (Call.apply accounts) rel

/-- The table without rows. -/
def noRelationships : Relationships := fun _ => none

/-! ## One call -/

section Step

variable {accounts : Accounts} {rel : Relationships} {c : Call}

theorem apply_eq (accounts : Accounts) (rel : Relationships) (c : Call) :
    c.apply accounts rel = (c.commits accounts rel).getD rel := by
  unfold Call.apply Call.commits
  cases c.exec accounts rel <;> rfl

theorem succeeds_iff : c.succeeds accounts rel = true ↔ ∃ rel', c.commits accounts rel = some rel' := by
  unfold Call.succeeds Call.commits
  cases c.exec accounts rel <;> simp [Except.toBool, Except.toOption]

/-- A request that finds no account throws. -/
theorem commits_of_no_target (h : c.target accounts = none) : c.commits accounts rel = none := by
  cases c with
  | sendFriendRequest x data => rw [commits_send, h, Option.bind_none]
  | _ => cases h

/-- What a call that succeeds has done. -/
theorem commits_cases {rel' : Relationships} (h : c.commits accounts rel = some rel') :
    ∃ y r, c.target accounts = some y ∧ c.Admitted accounts y ∧
      c.kind.rows (rel (c.account, y)) (rel (y, c.account)) = some r ∧ rel' = rel.setPair c.account y r := by
  cases ht : c.target accounts with
  | none =>
    rw [commits_of_no_target ht] at h
    cases h
  | some y =>
    rw [commits_eq ht] at h
    split_ifs at h with ha
    obtain ⟨r, hr, rfl⟩ := Option.map_eq_some_iff.mp h
    exact ⟨y, r, rfl, ha, hr, rfl⟩

/-- **What a call can do to the table.** -/
theorem apply_cases (accounts : Accounts) (rel : Relationships) (c : Call) :
    c.commits accounts rel = none ∧ c.apply accounts rel = rel ∨
      ∃ y r, c.target accounts = some y ∧ c.Admitted accounts y ∧
        c.kind.rows (rel (c.account, y)) (rel (y, c.account)) = some r ∧
        c.commits accounts rel = some (rel.setPair c.account y r) ∧
        c.apply accounts rel = rel.setPair c.account y r := by
  rw [apply_eq]
  cases h : c.commits accounts rel with
  | none => exact Or.inl ⟨rfl, rfl⟩
  | some rel' =>
    obtain ⟨y, r, ht, ha, hr, rfl⟩ := commits_cases h
    exact Or.inr ⟨y, r, ht, ha, hr, rfl, rfl⟩

/-- Replacing the rows of a pair by matching ones. -/
theorem paired_setPair {x y : String} {r : Option RelationshipStatus × Option RelationshipStatus}
    (h : ∀ a b, a ≠ b → Paired (rel (a, b)) (rel (b, a))) (hxy : x ≠ y) (hr : Paired r.1 r.2) (a b : String)
    (hab : a ≠ b) : Paired (rel.setPair x y r (a, b)) (rel.setPair x y r (b, a)) := by
  by_cases h₁ : (a, b) = (x, y)
  · cases h₁
    rwa [setPair_own hxy, setPair_other]
  · by_cases h₂ : (a, b) = (y, x)
    · cases h₂
      rw [setPair_own hxy, setPair_other]
      exact hr.symm
    · have h₃ : (b, a) ≠ (x, y) := fun e => h₂ (by cases e; rfl)
      have h₄ : (b, a) ≠ (y, x) := fun e => h₁ (by cases e; rfl)
      rw [setPair_frame h₁ h₂, setPair_frame h₃ h₄]
      exact h a b hab

theorem WellPaired.setPair {x y : String} {r : Option RelationshipStatus × Option RelationshipStatus}
    (h : WellPaired rel) (hxy : x ≠ y) (hr : Paired r.1 r.2) : WellPaired (rel.setPair x y r) where
  irrefl a := by
    rw [setPair_frame (fun e => hxy ((Prod.mk.inj e).1.symm.trans (Prod.mk.inj e).2))
      (fun e => hxy ((Prod.mk.inj e).2.symm.trans (Prod.mk.inj e).1))]
    exact h.irrefl a
  paired := paired_setPair h.paired hxy hr

/-- A call keeps the table well paired. -/
theorem WellPaired.apply (h : WellPaired rel) (accounts : Accounts) (c : Call) :
    WellPaired (c.apply accounts rel) := by
  rcases apply_cases accounts rel c with ⟨-, he⟩ | ⟨y, r, -, ha, hr, -, he⟩
  · rwa [he]
  · rw [he]
    exact h.setPair ha.1 (rows_paired (h.paired _ _ ha.1) hr)

end Step

/-! ## Runs -/

theorem wellPaired_empty : WellPaired noRelationships where
  irrefl _ := rfl
  paired _ _ _ := .strangers

/-- **Every run keeps the table well paired.** -/
theorem wellPaired_run {accounts : Accounts} : ∀ (calls : List Call) {rel : Relationships}, WellPaired rel →
    WellPaired (runCalls accounts rel calls)
  | [], _, h => h
  | c :: calls, _, h => wellPaired_run calls (h.apply accounts c)

/-- A call among ACTIVE accounts is admitted unless it is about oneself. -/
theorem admitted_of_active {accounts : Accounts} (hactive : ∀ e ∈ accounts.rows, e.status = .ACTIVE) {c : Call}
    {y : String} (hx : accounts.Registered c.account) (hy : accounts.Registered y) :
    c.Admitted accounts y ↔ c.account ≠ y := by
  have hact : ∀ {z : String}, accounts.Registered z → accounts.Active z :=
    fun ⟨e, he, hz⟩ => ⟨e, he, hz, hactive e he⟩
  unfold Call.Admitted
  cases c.kind <;> simp [hx, hact hx, hact hy]

/-- **The relationships table refines one machine per pair.** After any serial run from the empty table, among ACTIVE
accounts, no account has a row with itself and the rows of every pair encode exactly one state. The run goes on with
what a further call commits, or with the same table when it commits nothing. A further call about oneself fails; a call
about another account fails exactly when the machine has no move, and else the rows of the pair encode the machine's
next state and all other rows are as before. -/
theorem relationships_refine_pairs (accounts : Accounts) (hactive : ∀ e ∈ accounts.rows, e.status = .ACTIVE)
    (calls : List Call) :
    let rel := runCalls accounts noRelationships calls
    (∀ a, rel (a, a) = none) ∧
    (∀ a b, a ≠ b → ∃! l, Encodes rel a b l) ∧
    (∀ c : Call, runCalls accounts noRelationships (calls ++ [c]) = (c.commits accounts rel).getD rel) ∧
    ∀ (c : Call) (y : String), accounts.Registered c.account → c.target accounts = some y → accounts.Registered y →
      (c.account = y → c.commits accounts rel = none) ∧
      (c.account ≠ y → ∀ l, Encodes rel c.account y l →
        match c.commits accounts rel with
        | none => l.step c.kind c.account y = none
        | some rel' => (∃ l', l.step c.kind c.account y = some l' ∧ Encodes rel' c.account y l') ∧
            ∀ k, k ≠ (c.account, y) → k ≠ (y, c.account) → rel' k = rel k) := by
  intro rel
  have hwp : WellPaired rel := wellPaired_run calls wellPaired_empty
  refine ⟨hwp.irrefl, fun a b hab => existsUnique_link hab (hwp.paired a b hab), fun c => ?_, fun c y hx ht hy => ?_⟩
  · rw [← apply_eq, runCalls, List.foldl_append, List.foldl_cons, List.foldl_nil]
    rfl
  rw [commits_eq ht, if_congr (admitted_of_active hactive hx hy) rfl rfl]
  refine ⟨fun hxy => if_neg (not_not_intro hxy), fun hxy l hl => ?_⟩
  rw [if_pos hxy, pairOutcome]
  have hsim := rows_simulate hxy hl c.kind
  cases hr : c.kind.rows (rel (c.account, y)) (rel (y, c.account)) with
  | none =>
    rw [hr] at hsim
    exact hsim
  | some r =>
    rw [hr] at hsim
    exact ⟨hsim, fun k h₁ h₂ => setPair_frame h₁ h₂⟩

/-- alice requests bob, who blocks her. -/
def requestThenBlock : List Call :=
  [.sendFriendRequest "alice" { targetUsername := some "bob" }, .blockUser "bob" "alice"]

/-- Then the two rows encode one state, the one in which bob blocks. Another request of alice is refused there, and when
bob unblocks her the run goes on with strangers. -/
theorem refine_pairs_sample :
    (∃! l, Encodes (runCalls activeAccounts noRelationships requestThenBlock) "alice" "bob" l) ∧
    (Call.sendFriendRequest "alice" { targetId := some "bob" }).commits activeAccounts
      (runCalls activeAccounts noRelationships requestThenBlock) = none ∧
    Encodes (runCalls activeAccounts noRelationships (requestThenBlock ++ [.unblockUser "bob" "alice"])) "bob" "alice"
      .strangers := by
  obtain ⟨-, hpairs, hruns, hcalls⟩ := relationships_refine_pairs activeAccounts (by decide) requestThenBlock
  have hblocked : Encodes (runCalls activeAccounts noRelationships requestThenBlock) "alice" "bob" (.blocked {"bob"}) :=
    ⟨by decide, by decide, rfl, rfl⟩
  refine ⟨hpairs "alice" "bob" (by decide), ?_, ?_⟩
  · have hsend := (hcalls (.sendFriendRequest "alice" { targetId := some "bob" }) "bob" (by decide) rfl (by decide)).2
      (by decide) _ hblocked
    cases hc : (Call.sendFriendRequest "alice" { targetId := some "bob" }).commits activeAccounts
        (runCalls activeAccounts noRelationships requestThenBlock) with
    | none => rfl
    | some rel' =>
      rw [hc] at hsend
      obtain ⟨⟨l', hl', -⟩, -⟩ := hsend
      cases hl'
  · have hunblock := (hcalls (.unblockUser "bob" "alice") "alice" (by decide) rfl (by decide)).2 (by decide) _
      hblocked.symm
    rw [hruns]
    cases hc : (Call.unblockUser "bob" "alice").commits activeAccounts
        (runCalls activeAccounts noRelationships requestThenBlock) with
    | none =>
      rw [hc] at hunblock
      exact absurd hunblock (by decide)
    | some rel' =>
      rw [hc] at hunblock
      obtain ⟨⟨l', hl', he⟩, -⟩ := hunblock
      cases hl'
      exact he

end DiscordClone
