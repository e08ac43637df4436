import DiscordClone.Dm.Service
import DiscordClone.Lib.Gate
import DiscordClone.User.BlockRow

/-!
# Messages and blocks side by side

The transaction of `createDirectMessage` reads the row of the target's block and inserts the message; the relationship
operations change that row in transactions of their own. They run side by side at READ COMMITTED, statement by
statement.

- `createDirectMessage_tx`: alone, the transaction is `createDirectMessage`.
- `blocked_stored_le`: from the commit of a block to the commit of a call that lifts it, no more messages to the
  blocking account are stored than had passed the check before the block committed.
- `blocked_stored_le_sample`: one that had passed the check may be stored after the block.
-/

namespace DiscordClone

open Transaction Relationships
open Json (Obj)

/-- A message on its way: its parties, and what its insert answers. -/
structure Sending where
  senderId : String
  targetId : String
  created : Except Exception DirectMessage

/-- `directMessages.create`, in another table. -/
def Sending.create (d : Sending) : RelationshipTx Unit :=
  match d.created with
  | .ok _ => .ret ()
  | .error e => .throw e

/-- The transaction of `createDirectMessage`; `verifyAccounts` is the same code as that of the relationship
operations. -/
def Sending.tx (accounts : Accounts) (d : Sending) : RelationshipTx Unit := do
  let (_, target) ← UserService.verifyAccounts accounts d.senderId d.targetId
  if target.relationship[0]? = some .BLOCKED then
    .throw (.mk CustomErrorMessage.SEND_DM__BLOCKED HttpStatus.FORBIDDEN CustomErrorCode.SEND_DM__BLOCKED)
  else d.create

/-- A relationship operation, or a message. -/
abbrev Traffic := Call ⊕ Sending

def Traffic.tx (accounts : Accounts) : Traffic → RelationshipTx Unit
  | .inl c => c.tx accounts
  | .inr d => d.tx accounts

abbrev TrafficState := State (String × String) RelationshipStatus Exception Unit Traffic

abbrev TrafficInFlight := Worker (String × String) RelationshipStatus Exception Unit Traffic

abbrev trafficStep (accounts : Accounts) : TrafficState → Event Traffic → Option TrafficState :=
  Transaction.step (Traffic.tx accounts)

/-- A message from `x` to `y`. -/
def Traffic.sends (x y : String) : Traffic → Bool
  | .inl _ => false
  | .inr d => d.senderId = x && d.targetId = y

/-- A call that writes the row `(a, b)` even when it is BLOCKED. -/
def Traffic.Owns (accounts : Accounts) (a b : String) : Traffic → Prop
  | .inl c => c.Owns accounts a b
  | .inr _ => False

/-- A call that lifts `a`'s block of `b`. -/
def Traffic.Lifts (accounts : Accounts) (a b : String) : Traffic → Prop
  | .inl c => c.Lifts accounts a b
  | .inr _ => False

instance Traffic.decidableLifts (accounts : Accounts) (a b : String) : ∀ c, Decidable (Traffic.Lifts accounts a b c)
  | .inl c => inferInstanceAs (Decidable (c.Lifts accounts a b))
  | .inr _ => .isFalse id

section Transactions

variable {accounts : Accounts} {d : Sending} {a b : String}

/-- The transaction, with its two lookups. -/
theorem sending_eq (accounts : Accounts) (d : Sending) : d.tx accounts =
    .query fun _ => if accounts.Active d.senderId then
      .query fun rel => if accounts.Active d.targetId then
        if rel (d.targetId, d.senderId) = some .BLOCKED then
          .throw (.mk CustomErrorMessage.SEND_DM__BLOCKED HttpStatus.FORBIDDEN CustomErrorCode.SEND_DM__BLOCKED)
        else d.create
        else .throw targetNotFound
      else .throw accountNotFound := by
  simp only [Sending.tx, UserService.verifyAccounts, Tx.select_bind, Tx.query_bind, select_active]
  congr 1
  funext rel
  by_cases hx : accounts.Active d.senderId
  · simp only [hx, if_true, Tx.query_bind]
    congr 1
    funext rel'
    by_cases hy : accounts.Active d.targetId
    · simp only [hy, if_true, Tx.pure_eq, Tx.ret_bind, toList_head]
    · simp [hy]
  · simp [hx]

theorem create_readOnly (d : Sending) : d.create.ReadOnly := by
  unfold Sending.create
  split <;> trivial

/-- A message writes no row of the relationships. -/
theorem sending_readOnly (accounts : Accounts) (d : Sending) : (d.tx accounts).ReadOnly := by
  rw [sending_eq]
  intro rel
  dsimp only
  split
  · intro rel'
    dsimp only
    split
    · split
      · trivial
      · exact create_readOnly d
    · trivial
  · trivial

/-- **The check refuses a message to an account that has blocked its sender.** -/
theorem sending_refused (accounts : Accounts) (d : Sending) :
    (d.tx accounts).Refused (d.targetId, d.senderId) .BLOCKED := by
  rw [sending_eq]
  intro rel _
  dsimp only
  split
  · intro rel' hrow
    dsimp only
    split
    · trivial
    · trivial
  · trivial

theorem create_gated (d : Sending) (k : String × String) (v : RelationshipStatus) : d.create.Gated k v := by
  unfold Sending.create
  split <;> trivial

/-- A message is refused until it has passed the check. -/
theorem sending_gated (accounts : Accounts) (d : Sending) :
    (d.tx accounts).Gated (d.targetId, d.senderId) .BLOCKED := by
  have href := sending_refused accounts d
  rw [sending_eq] at href ⊢
  refine ⟨href, fun rel => ?_⟩
  dsimp only
  split
  · refine ⟨fun rel' hrow => ?_, fun rel' => ?_⟩
    · dsimp only
      split <;> trivial
    · dsimp only
      split
      · split
        · trivial
        · exact create_gated d _ _
      · trivial
  · trivial

/-- **Alone, the transaction is `createDirectMessage`.** -/
theorem createDirectMessage_tx (rt : Runtime) (db : Database) (data : Obj) (senderId targetId : String)
    (hsender : data.get "senderId" = some (.str senderId)) (htarget : data.get "targetId" = some (.str targetId)) :
    let created := DirectMessages.insert rt db.directMessages data
    DirectMessageService.createDirectMessage rt db data =
      ((Sending.tx db.accounts ⟨senderId, targetId, created⟩).run db.relationships).mapError .ofAbort >>= fun _ =>
        created.map fun message => (message, { db with directMessages := db.directMessages ++ [message] }) := by
  intro created
  rw [sending_eq]
  simp only [DirectMessageService.createDirectMessage, hsender, htarget, DirectMessageService.verifyAccounts_eq,
    Tx.run_query]
  by_cases hx : db.accounts.Active senderId
  · by_cases hy : db.accounts.Active targetId
    · simp only [hx, hy, if_true, Tx.run_query]
      by_cases hb : db.relationships (targetId, senderId) = some .BLOCKED
      · simp [hb, bind, Except.bind, Except.mapError, Exception.ofAbort]
      · have hcreated : DirectMessages.insert rt db.directMessages data = created := rfl
        rw [if_neg hb, hcreated]
        cases created with
        | ok m => simp [Sending.create, hb, toList_head, bind, Except.bind, Except.mapError, Except.map]
        | error e => simp [Sending.create, hb, toList_head, bind, Except.bind, Except.mapError, Exception.ofAbort]
    · simp [hx, hy, bind, Except.bind, Except.mapError, Exception.ofAbort]
  · simp [hx, bind, Except.bind, Except.mapError, Exception.ofAbort]

end Transactions

/-! ## Side by side -/

/-- What a transaction in flight keeps to, whatever it reads: a call ends in one of its footprints, and a message writes
nothing and is refused until it has passed the check. -/
def TrafficEnding (accounts : Accounts) (w : TrafficInFlight) : Prop :=
  match w.call with
  | .inl c => w.prog.Ends (· = noWrites) (fun _ => Footprint accounts c) w.writes
  | .inr d => w.prog.ReadOnly ∧ w.writes = noWrites ∧ w.prog.Gated (d.targetId, d.senderId) .BLOCKED

theorem traffic_rules (accounts : Accounts) :
    Rules (Traffic.tx accounts) (fun _ _ => True) (fun _ => True) fun _ => TrafficEnding accounts where
  begin _ c _ := by
    cases c with
    | inl c => exact footprint_tx accounts c
    | inr d => exact ⟨sending_readOnly accounts d, rfl, sending_gated accounts d⟩
  query _ w next _ hJ hprog := by
    obtain ⟨c, prog, writes⟩ := w
    cases hprog
    cases c with
    | inl c => exact hJ.2 _
    | inr d => exact ⟨hJ.1 _, hJ.2.1, hJ.2.2.2 _⟩
  write _ w k wr next v _ hJ _ hprog hv := by
    obtain ⟨c, prog, writes⟩ := w
    cases hprog
    cases c with
    | inl c => exact hJ _ _ hv
    | inr d => exact absurd hJ.1 id
  commit _ _ _ _ _ _ := trivial
  stable _ _ _ _ _ _ hJ _ _ := hJ

/-- All transactions in flight do, and their writes are apart. -/
def AllTraffic (accounts : Accounts) : TrafficState → Prop := Sound (fun _ => True) fun _ => TrafficEnding accounts

section Row

variable {accounts : Accounts} {rel : Relationships} {a b : String} {s s' : TrafficState} {e : Event Traffic}
  {w : TrafficInFlight}

theorem allTraffic_step (h : AllTraffic accounts s) (hs : Step (Traffic.tx accounts) s e s') : AllTraffic accounts s' :=
  (traffic_rules accounts).step h (fun _ _ _ _ => trivial) hs

theorem allTraffic_run {events : List (Event Traffic)}
    (h : Machine.run (trafficStep accounts) (State.idle rel) events = some s) : AllTraffic accounts s :=
  (traffic_rules accounts).run (sound_idle trivial) (Machine.along_of_forall (fun _ _ _ _ _ _ => trivial) _ _) h

/-- The footprint of a block. -/
theorem footprint_block {c : Call} {writes : Tx.Writes (String × String) RelationshipStatus}
    (h : Footprint accounts c writes) (hblock : c.account = a ∧ c.target accounts = some b ∧ c.kind = .block) :
    writes (a, b) = some (some .BLOCKED) := by
  obtain ⟨hx, ht, hk⟩ := hblock
  obtain ⟨y, hy, -, f, hf, hwrites⟩ := h
  cases hy.symm.trans ht
  rw [hwrites, ← hx, pairWrites_own]
  rw [hk] at hf
  simp only [Kind.footprints, List.mem_cons, List.not_mem_nil, or_false] at hf
  rcases hf with rfl | rfl <;> rfl

/-- A call that has come to its end. -/
theorem footprint_of_ret (h : AllTraffic accounts s) (hw : w ∈ s.active) {r : Unit} (hprog : w.prog = .ret r) {c : Call}
    (hcall : w.call = .inl c) : Footprint accounts c w.writes := by
  have hends : TrafficEnding accounts w := h.2.1 w hw
  unfold TrafficEnding at hends
  rw [hcall, hprog] at hends
  exact hends

/-- At the commit of a block its row refuses the messages that it is about, but for those that have passed the check. -/
theorem guarded_at_commit {i : Nat} (h : AllTraffic accounts s) (hw : s.active[i]? = some w)
    (hblock : w.call = .inl (.blockUser a b)) (hs : Step (Traffic.tx accounts) s (.commit i) s')
    (hflight : ∀ w' ∈ s'.active, ∀ c, w'.call = .inl c → c.Owns accounts a b ∨ w'.prog.Spares (a, b) .BLOCKED) :
    Guarded (Traffic.Owns accounts a b) (Traffic.sends b a) (a, b) .BLOCKED s' := by
  have hnext := allTraffic_step h hs
  cases hs with
  | commit _ w₀ r hw₀ hprog =>
    cases hw.symm.trans hw₀
    have hrow : w.writes (a, b) = some (some .BLOCKED) :=
      footprint_block (footprint_of_ret h (List.mem_of_getElem? hw) hprog hblock) ⟨rfl, rfl, rfl⟩
    refine ⟨⟨by simp [view, hrow], fun w' hw' => ?_⟩, fun w' hw' hsends => ?_⟩
    · cases hcall : w'.call with
      | inl c =>
        refine (hflight w' hw' c hcall).imp_right fun hspares => ⟨?_, hspares⟩
        rcases apart_of_exclusive h.2.2 hw hw' (a, b) with hn | hn
        · rw [hrow] at hn
          cases hn
        · exact hn
      | inr d =>
        have hends : TrafficEnding accounts w' := hnext.2.1 w' hw'
        unfold TrafficEnding at hends
        rw [hcall] at hends
        exact Or.inr ⟨by rw [hends.2.1]; rfl, hends.1.spares⟩
    · cases hcall : w'.call with
      | inl c =>
        rw [hcall] at hsends
        cases hsends
      | inr d =>
        rw [hcall] at hsends
        simp only [Traffic.sends, Bool.and_eq_true, decide_eq_true_eq] at hsends
        have hends : TrafficEnding accounts w' := hnext.2.1 w' hw'
        unfold TrafficEnding at hends
        rw [hcall] at hends
        rcases hends.2.2.cases with ⟨r', hret⟩ | href
        · exact Or.inl (by rw [Worker.finished, hret])
        · rw [hsends.1, hsends.2] at href
          exact Or.inr ⟨by rw [hends.2.1]; rfl, href⟩

end Row

/-- **A block holds against messages that are on their way.** From the commit of `blockUser(a, b)` until a call of `a`
that lifts the block commits, whatever else runs side by side, no more messages from `b` to `a` are stored than had
passed their check when the block committed; provided that every other relationship call in flight at that commit has
yet to read the row, has read it BLOCKED, or has nothing to do with it. -/
theorem blocked_stored_le (accounts : Accounts) (rel : Relationships) (a b : String) (before : List (Event Traffic))
    (s₁ : TrafficState) (hbefore : Machine.run (trafficStep accounts) (State.idle rel) before = some s₁) (i : Nat)
    (w : TrafficInFlight) (hw : s₁.active[i]? = some w) (hblock : w.call = .inl (.blockUser a b)) (s₂ : TrafficState)
    (hcommit : trafficStep accounts s₁ (.commit i) = some s₂)
    (hflight : ∀ w' ∈ s₂.active, ∀ c, w'.call = .inl c → c.Owns accounts a b ∨ w'.prog.Spares (a, b) .BLOCKED)
    (after : List (Event Traffic))
    (hheld : Machine.Along (trafficStep accounts) (OnCommit fun w => ¬w.call.Lifts accounts a b) s₂ after)
    (s₃ : TrafficState) (hafter : Machine.run (trafficStep accounts) s₂ after = some s₃) :
    (committed (Traffic.tx accounts) s₂ after).countP (Traffic.sends b a) ≤ s₂.passed (Traffic.sends b a) := by
  have hall := allTraffic_run hbefore
  have hstep := step_cases hcommit
  have hbody : ∀ c, ¬Traffic.Owns accounts a b c → (Traffic.tx accounts c).Spares (a, b) .BLOCKED := by
    intro c hc
    cases c with
    | inl c => exact spares_tx hc
    | inr d => exact (sending_readOnly accounts d).spares
  have hgate : ∀ c, Traffic.sends b a c = true → (Traffic.tx accounts c).Refused (a, b) .BLOCKED := by
    intro c hc
    cases c with
    | inl c => cases hc
    | inr d =>
      simp only [Traffic.sends, Bool.and_eq_true, decide_eq_true_eq] at hc
      rw [← hc.1, ← hc.2]
      exact sending_refused accounts d
  refine committed_le hbody hgate (fun s e s' h hs => allTraffic_step h hs) ?_ (allTraffic_step hall hstep)
    (guarded_at_commit hall hw hblock hstep hflight) hheld hafter
  rintro s e s' hs hlifts hstep j w' rfl hw' howns
  cases hstep with
  | commit _ w₀ r hw₀ hprog =>
    cases hw'.symm.trans hw₀
    have hheld : ¬Traffic.Lifts accounts a b w'.call := hlifts j w' rfl hw'
    have howns : Traffic.Owns accounts a b w'.call := howns
    cases hcall : w'.call with
    | inl c =>
      rw [hcall] at howns hheld
      rcases howns with hblock | hl
      · exact Or.inr (footprint_block (footprint_of_ret hs (List.mem_of_getElem? hw') hprog hcall) hblock)
      · exact absurd hl hheld
    | inr d =>
      rw [hcall] at howns
      cases howns

/-- A message of bob to alice. -/
def bobWrites (id : String) : Traffic :=
  .inr ⟨"bob", "alice", .ok
    { id := id, senderId := "bob", targetId := "alice", content := "hi", createdAt := 0, updatedAt := 0 }⟩

/-- bob's message passes its check while alice's block has yet to commit. -/
def blockMeetsMessage : List (Event Traffic) :=
  [.begin (.inl (.blockUser "alice" "bob")), .begin (bobWrites "m1"), .stmt 0, .stmt 0, .stmt 0, .stmt 1, .stmt 1]

/-- That message is stored after the block, and the next one is not. -/
def messagesAfterBlock : List (Event Traffic) := [.commit 0, .begin (bobWrites "m2"), .stmt 0, .stmt 0]

theorem blocked_stored_le_sample :
    ∃ s₁ s₂ s₃, Machine.run (trafficStep activeAccounts) (State.idle noRelationships) blockMeetsMessage = some s₁ ∧
      trafficStep activeAccounts s₁ (.commit 0) = some s₂ ∧
      Machine.run (trafficStep activeAccounts) s₂ messagesAfterBlock = some s₃ ∧
      committed (Traffic.tx activeAccounts) s₂ messagesAfterBlock = [bobWrites "m1"] ∧
      (committed (Traffic.tx activeAccounts) s₂ messagesAfterBlock).countP (Traffic.sends "bob" "alice") ≤
        s₂.passed (Traffic.sends "bob" "alice") := by
  let s₁ := (Machine.run (trafficStep activeAccounts) (State.idle noRelationships) blockMeetsMessage).get (by decide)
  let s₂ := (trafficStep activeAccounts s₁ (.commit 0)).get (by decide)
  let s₃ := (Machine.run (trafficStep activeAccounts) s₂ messagesAfterBlock).get (by decide)
  have h₁ : Machine.run (trafficStep activeAccounts) (State.idle noRelationships) blockMeetsMessage = some s₁ :=
    (Option.some_get _).symm
  have h₂ : trafficStep activeAccounts s₁ (.commit 0) = some s₂ := (Option.some_get _).symm
  have h₃ : Machine.run (trafficStep activeAccounts) s₂ messagesAfterBlock = some s₃ := (Option.some_get _).symm
  refine ⟨s₁, s₂, s₃, h₁, h₂, h₃, rfl, blocked_stored_le activeAccounts noRelationships "alice" "bob" blockMeetsMessage
    s₁ h₁ 0 s₁.active[0] rfl rfl s₂ h₂ ?_ messagesAfterBlock (by decide) s₃ h₃⟩
  intro w hw c hc
  have hactive : s₂.active.map Worker.call = [bobWrites "m1"] := rfl
  have hcall : w.call ∈ s₂.active.map Worker.call := List.mem_map_of_mem hw
  rw [hactive, List.mem_singleton, hc] at hcall
  cases hcall

end DiscordClone
