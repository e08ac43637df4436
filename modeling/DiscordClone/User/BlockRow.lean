import DiscordClone.User.Coherence

/-!
# The row of a block under interleaved calls

Every call that could write the row `(a, b)` of another account's block reads it first, and does not write it when it is
BLOCKED (`spares_tx`). So the row of a committed block is safe from every call that reads it after the commit
(`block_row_kept`). A call that has read it before may still overwrite or delete it: `not_block_row_kept` is a run in
which bob's block of alice, begun before hers, deletes the row of hers. That holds of a removal too: the database
refuses it while the block has left no row of bob's to delete, but not once bob has a row again (`crossingRemoval`).
-/

namespace DiscordClone

open Transaction Relationships

/-- A call in flight that will end in one of its footprints. -/
def Ending (accounts : Accounts) (w : CallInFlight) : Prop :=
  w.prog.Ends (· = noWrites) (fun _ => Footprint accounts w.call) w.writes

/-- All calls in flight will, and their writes are apart. -/
def AllEnding (accounts : Accounts) : RelationshipState → Prop := Sound (fun _ => True) fun _ => Ending accounts

theorem ending_rules (accounts : Accounts) :
    Rules (Call.tx accounts) (fun _ _ => True) (fun _ => True) fun _ => Ending accounts where
  begin _ c _ := footprint_tx accounts c
  query _ w next _ hJ hprog := by
    unfold Ending at hJ
    rw [hprog] at hJ
    exact hJ.2 _
  write _ w k wr next v _ hJ _ hprog hv := by
    unfold Ending at hJ
    rw [hprog] at hJ
    exact hJ _ _ hv
  commit _ _ _ _ _ _ := trivial
  stable _ _ _ _ _ _ hJ _ _ := hJ

section Row

variable {accounts : Accounts} {rel : Relationships} {a b : String} {s s' : RelationshipState} {e : Event Call}
  {w : CallInFlight}

theorem allEnding_step (h : AllEnding accounts s) (hs : Step (Call.tx accounts) s e s') : AllEnding accounts s' :=
  (ending_rules accounts).step h (fun _ _ _ _ => trivial) hs

theorem allEnding_run {events : List (Event Call)}
    (h : Machine.run (relationshipStep accounts) (State.idle rel) events = some s) : AllEnding accounts s :=
  (ending_rules accounts).run (sound_idle trivial) (Machine.along_of_forall (fun _ _ _ _ _ _ => trivial) _ _) h

/-- A block that has come to its end has written its row BLOCKED. -/
theorem written_of_block (h : AllEnding accounts s) (hw : w ∈ s.active) {r : Unit} (hprog : w.prog = .ret r)
    (hblock : w.call.account = a ∧ w.call.target accounts = some b ∧ w.call.kind = .block) :
    w.writes (a, b) = some (some .BLOCKED) := by
  obtain ⟨hx, ht, hk⟩ := hblock
  have hends : Ending accounts w := h.2.1 w hw
  unfold Ending at hends
  rw [hprog] at hends
  obtain ⟨y, hy, -, f, hf, hwrites⟩ := hends
  cases hy.symm.trans ht
  rw [hwrites, ← hx, pairWrites_own]
  rw [hk] at hf
  simp only [Kind.footprints, List.mem_cons, List.not_mem_nil, or_false] at hf
  rcases hf with rfl | rfl <;> rfl

/-- At the commit of the block its row is BLOCKED, and its lock has kept everybody else from writing the row. -/
theorem spared_at_commit {i : Nat} (h : AllEnding accounts s) (hw : s.active[i]? = some w)
    (hblock : w.call = .blockUser a b) (hs : Step (Call.tx accounts) s (.commit i) s')
    (hflight : ∀ w' ∈ s'.active, w'.call.Owns accounts a b ∨ w'.prog.Spares (a, b) .BLOCKED) :
    Spared (Call.Owns accounts a b) (a, b) .BLOCKED s' := by
  cases hs with
  | commit _ w₀ r hw₀ hprog =>
    cases hw.symm.trans hw₀
    have hrow : w.writes (a, b) = some (some .BLOCKED) :=
      written_of_block h (List.mem_of_getElem? hw) hprog (by rw [hblock]; exact ⟨rfl, rfl, rfl⟩)
    refine ⟨by simp [view, hrow], fun w' hw' => (hflight w' hw').imp_right fun hsp => ⟨?_, hsp⟩⟩
    rcases apart_of_exclusive h.2.2 hw hw' (a, b) with hn | hn
    · rw [hrow] at hn
      cases hn
    · exact hn

/-- A step keeps the row, unless it commits a call that lifts the block. -/
theorem spared_kept (h : AllEnding accounts s) (hsp : Spared (Call.Owns accounts a b) (a, b) .BLOCKED s)
    (hheld : OnCommit (fun w => ¬w.call.Lifts accounts a b) s e) (hs : Step (Call.tx accounts) s e s') :
    Spared (Call.Owns accounts a b) (a, b) .BLOCKED s' := by
  refine spared_step (fun c => spares_tx) hsp ?_ hs
  rintro i w rfl hw howns
  cases hs with
  | commit _ w₀ r hw₀ hprog =>
    cases hw.symm.trans hw₀
    rcases howns with hblock | hl
    · exact Or.inr (written_of_block h (List.mem_of_getElem? hw) hprog hblock)
    · exact absurd hl (hheld i w rfl hw)

end Row

/-- **The row of a block is its owner's.** Once `blockUser(a, b)` has committed, the row is BLOCKED in every later
committed table until a call of `a` that lifts it commits, provided that every other call in flight at that commit has
yet to read the row, has read it BLOCKED, or has nothing to do with it. -/
theorem block_row_kept (accounts : Accounts) (rel : Relationships) (a b : String) (before : List (Event Call))
    (s₁ : RelationshipState) (hbefore : Machine.run (relationshipStep accounts) (State.idle rel) before = some s₁)
    (i : Nat) (w : CallInFlight) (hw : s₁.active[i]? = some w) (hblock : w.call = .blockUser a b)
    (s₂ : RelationshipState) (hcommit : relationshipStep accounts s₁ (.commit i) = some s₂)
    (hflight : ∀ w' ∈ s₂.active, w'.call.Owns accounts a b ∨ w'.prog.Spares (a, b) .BLOCKED)
    (after : List (Event Call))
    (hheld : Machine.Along (relationshipStep accounts) (OnCommit fun w => ¬w.call.Lifts accounts a b) s₂ after)
    (s₃ : RelationshipState) (hafter : Machine.run (relationshipStep accounts) s₂ after = some s₃) :
    s₃.table (a, b) = some .BLOCKED := by
  have hending₁ := allEnding_run hbefore
  have hstep := step_cases hcommit
  let I : RelationshipState → Prop := fun s =>
    AllEnding accounts s ∧ Spared (Call.Owns accounts a b) (a, b) .BLOCKED s
  have hinit : I s₂ := ⟨allEnding_step hending₁ hstep, spared_at_commit hending₁ hw hblock hstep hflight⟩
  have hkeep : ∀ s e s', I s → OnCommit (fun w => ¬w.call.Lifts accounts a b) s e →
      relationshipStep accounts s e = some s' → I s' := by
    rintro s e s' ⟨hending, hspared⟩ hheld hs
    have hs := step_cases hs
    exact ⟨allEnding_step hending hs, spared_kept hending hspared hheld hs⟩
  exact (Machine.run_inv hkeep hinit hheld hafter).2.1

/-- alice requests bob; then both block each other, and alice's block commits between the reads and the writes of
bob's. -/
def crossingBlocks : List (Event Call) :=
  [.begin (.sendFriendRequest "alice" { targetId := some "bob" }), .stmt 0, .stmt 0, .stmt 0, .commit 0,
    .begin (.blockUser "bob" "alice"), .stmt 0, .stmt 0,
    .begin (.blockUser "alice" "bob"), .stmt 1, .stmt 1, .stmt 1, .stmt 1]

/-- The row of a block is not safe from the calls in flight: bob's block deletes alice's. -/
theorem not_block_row_kept :
    ¬∀ (accounts : Accounts) (rel : Relationships) (a b : String) (before : List (Event Call)) (s₁ : RelationshipState)
      (i : Nat) (w : CallInFlight) (s₂ : RelationshipState) (after : List (Event Call)) (s₃ : RelationshipState),
      (∀ e ∈ accounts.rows, e.status = .ACTIVE) →
      Machine.run (relationshipStep accounts) (State.idle rel) before = some s₁ →
      s₁.active[i]? = some w → w.call = .blockUser a b → relationshipStep accounts s₁ (.commit i) = some s₂ →
      Machine.Along (relationshipStep accounts) (OnCommit fun w => ¬w.call.Lifts accounts a b) s₂ after →
      Machine.run (relationshipStep accounts) s₂ after = some s₃ → s₃.table (a, b) = some .BLOCKED := by
  intro h
  have hkept := h activeAccounts noRelationships "alice" "bob" crossingBlocks _ 1 _ _ [.stmt 0, .stmt 0, .commit 0] _
    (by decide) rfl rfl rfl rfl (by decide) rfl
  exact absurd hkept (by decide)

/-- Both block each other again, but bob's block only begins before alice's commits, and reads after it. -/
def blocksInTurn : List (Event Call) :=
  [.begin (.blockUser "alice" "bob"), .begin (.blockUser "bob" "alice"), .stmt 0, .stmt 0, .stmt 0]

theorem block_row_kept_sample :
    ∃ s₁ s₂ s₃, Machine.run (relationshipStep activeAccounts) (State.idle noRelationships) blocksInTurn = some s₁ ∧
      relationshipStep activeAccounts s₁ (.commit 0) = some s₂ ∧
      Machine.run (relationshipStep activeAccounts) s₂ [.stmt 0, .stmt 0, .stmt 0, .commit 0] = some s₃ ∧
      s₃.table ("alice", "bob") = some .BLOCKED := by
  let s₁ := (Machine.run (relationshipStep activeAccounts) (State.idle noRelationships) blocksInTurn).get (by decide)
  let s₂ := (relationshipStep activeAccounts s₁ (.commit 0)).get (by decide)
  let s₃ := (Machine.run (relationshipStep activeAccounts) s₂ [.stmt 0, .stmt 0, .stmt 0, .commit 0]).get (by decide)
  have h₁ : Machine.run (relationshipStep activeAccounts) (State.idle noRelationships) blocksInTurn = some s₁ :=
    (Option.some_get _).symm
  have h₂ : relationshipStep activeAccounts s₁ (.commit 0) = some s₂ := (Option.some_get _).symm
  have h₃ : Machine.run (relationshipStep activeAccounts) s₂ [.stmt 0, .stmt 0, .stmt 0, .commit 0] = some s₃ :=
    (Option.some_get _).symm
  refine ⟨s₁, s₂, s₃, h₁, h₂, h₃, block_row_kept activeAccounts noRelationships "alice" "bob" blocksInTurn s₁ h₁ 0
    s₁.active[0] rfl rfl s₂ h₂ ?_ [.stmt 0, .stmt 0, .stmt 0, .commit 0] (by decide) s₃ h₃⟩
  have hactive : s₂.active = [Worker.start (Call.tx activeAccounts) (.blockUser "bob" "alice")] := rfl
  intro w hw
  rw [hactive, List.mem_singleton] at hw
  subst hw
  have hother : ¬(Call.blockUser "bob" "alice").Owns activeAccounts "alice" "bob" := by decide
  exact Or.inr (spares_tx hother)

/-- alice and bob are friends; alice's block commits between the reads of bob's removal and its deletes, and deletes the
row that the removal deletes first. -/
def crossingRemoval : List (Event Call) :=
  [.begin (.sendFriendRequest "alice" { targetId := some "bob" }), .stmt 0, .stmt 0, .stmt 0, .commit 0,
    .begin (.feedbackFriendRequest .accept "bob" "alice"), .stmt 0, .stmt 0, .stmt 0, .stmt 0, .commit 0,
    .begin (.removeFriend "bob" "alice"), .stmt 0, .stmt 0,
    .begin (.blockUser "alice" "bob"), .stmt 1, .stmt 1, .stmt 1, .stmt 1, .commit 1]

/-- The database refuses the removal's delete. But when bob has blocked alice before it, the removal deletes both rows:
a removal in flight at the commit has to be excluded for the row to be kept in every later state. -/
example :
    Machine.run (relationshipStep activeAccounts) (State.idle noRelationships) (crossingRemoval ++ [.stmt 0]) = none ∧
    (Machine.run (relationshipStep activeAccounts) (State.idle noRelationships) (crossingRemoval ++
      [.begin (.blockUser "bob" "alice"), .stmt 1, .stmt 1, .stmt 1, .commit 1, .stmt 0, .stmt 0, .commit 0])).map
        (fun s => s.table ("alice", "bob")) = some none := by decide

end DiscordClone
