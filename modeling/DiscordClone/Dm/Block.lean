import DiscordClone.Lib.Machine
import DiscordClone.Dm.Service
import DiscordClone.User.Lists
import DiscordClone.User.Refinement

/-!
# A block is enforced for as long as it stands

A run is a list of relationship operations and sent messages, by any accounts, each of them atomic.

- `Blocks t s`: the row `(t, s)` is BLOCKED, and the row `(s, t)` is absent or BLOCKED too.
- `blocks_of_blockUser`: a successful block establishes it, whatever the two rows were.
- `Blocks.act`: every action keeps it that does not lift it (`Action.lifts`: a successful unblock of `t`, or a
  successful request of `t` to `s`), and none of them stores a message from `s` to `t`.
-/

namespace DiscordClone

open Transaction Relationships

/-- A relationship operation, or a message sent. -/
inductive Action where
  | relationship (c : Call)
  | createDirectMessage (rt : Runtime) (data : Json.Obj)

/-- The database after an action, which is the same database when the action fails. -/
def Database.act (db : Database) : Action → Database
  | .relationship c => { db with relationships := c.apply db.accounts db.relationships }
  | .createDirectMessage rt data =>
    match DirectMessageService.createDirectMessage rt db data with
    | .ok (_, db') => db'
    | .error _ => db

/-- An action as a step. -/
def Database.step (db : Database) (a : Action) : Option Database := some (db.act a)

/-- The messages from `s` to `t`. -/
def messagesFrom (s t : String) (db : Database) : List DirectMessage :=
  db.directMessages.filter fun m => m.senderId = s && m.targetId = t

/-- A call that lifts the block of `s` by `t`, and succeeds. -/
def Action.lifts (t s : String) (db : Database) : Action → Bool
  | .relationship c => decide (c.Lifts db.accounts t s) && c.succeeds db.accounts db.relationships
  | .createDirectMessage .. => false

/-- `t` blocks `s`, and `s` has no other relationship with `t`. -/
def Blocks (t s : String) (rel : Relationships) : Prop :=
  rel (t, s) = some .BLOCKED ∧ (rel (s, t) = none ∨ rel (s, t) = some .BLOCKED)

/-! ## Rows -/

section Rows

variable {accounts : Accounts} {rel rel' : Relationships} {s t : String} {c : Call}

/-- A successful block, over whatever rows. -/
theorem blocks_of_blockUser (h : (Call.blockUser t s).commits accounts rel = some rel') :
    accounts.Active t ∧ accounts.Active s ∧ Blocks t s rel' := by
  obtain ⟨y, r, ht, ha, hr, rfl⟩ := commits_cases h
  cases ht
  obtain ⟨hts, ht, hs⟩ := ha
  simp only [Call.account, Call.kind, Kind.rows, Option.some.injEq] at hr hts ht
  subst hr
  refine ⟨ht, hs, setPair_own hts, ?_⟩
  simp only [Call.account, setPair_other]
  by_cases hq : rel (s, t) = some .BLOCKED <;> simp [hq]

/-- What the owner of a block can do to the two rows without lifting it. -/
theorem rows_owner {k : Kind} {q : Option RelationshipStatus}
    {r : Option RelationshipStatus × Option RelationshipStatus} (hq : q = none ∨ q = some .BLOCKED)
    (hr : k.rows (some .BLOCKED) q = some r) (hk : k ≠ .unblock ∧ k ≠ .send) : r = (some .BLOCKED, q) := by
  cases k with
  | send => exact absurd rfl hk.2
  | unblock => exact absurd rfl hk.1
  | block =>
    rcases hq with rfl | rfl <;> simp [Kind.rows] at hr <;> exact hr.symm
  | _ => simp [Kind.rows] at hr

/-- What the blocked account can do to the two rows: block and unblock in turn. -/
theorem rows_blocked {k : Kind} {p : Option RelationshipStatus}
    {r : Option RelationshipStatus × Option RelationshipStatus} (hp : p = none ∨ p = some .BLOCKED)
    (hr : k.rows p (some .BLOCKED) = some r) : r.2 = some .BLOCKED ∧ (r.1 = none ∨ r.1 = some .BLOCKED) := by
  cases k with
  | block =>
    simp [Kind.rows] at hr
    subst hr
    exact ⟨rfl, Or.inr rfl⟩
  | unblock =>
    simp [Kind.rows] at hr
    obtain ⟨-, rfl⟩ := hr
    exact ⟨rfl, Or.inl rfl⟩
  | _ => rcases hp with rfl | rfl <;> simp [Kind.rows] at hr

/-- **A call keeps the block** unless it lifts it. -/
theorem Blocks.apply (h : Blocks t s rel) (hl : ¬(c.Lifts accounts t s ∧ c.succeeds accounts rel = true)) :
    Blocks t s (c.apply accounts rel) := by
  obtain ⟨hb, hq⟩ := h
  rcases apply_cases accounts rel c with ⟨-, he⟩ | ⟨y, r, ht, ha, hr, hc, he⟩
  · rw [he]
    exact ⟨hb, hq⟩
  · rw [he]
    by_cases h₁ : (t, s) = (c.account, y)
    · cases h₁
      rw [hb] at hr
      have hk : c.kind ≠ .unblock ∧ c.kind ≠ .send :=
        not_or.mp fun hk => hl ⟨⟨rfl, ht, hk⟩, succeeds_iff.mpr ⟨_, hc⟩⟩
      cases rows_owner hq hr hk
      exact ⟨setPair_own ha.1, by rwa [setPair_other]⟩
    · by_cases h₂ : (t, s) = (y, c.account)
      · cases h₂
        rw [hb] at hr
        obtain ⟨hr₂, hr₁⟩ := rows_blocked hq hr
        exact ⟨by rwa [setPair_other], by rwa [setPair_own ha.1]⟩
      · have h₃ : (s, t) ≠ (c.account, y) := fun e => h₂ (by cases e; rfl)
        have h₄ : (s, t) ≠ (y, c.account) := fun e => h₁ (by cases e; rfl)
        rw [Blocks, setPair_frame h₁ h₂, setPair_frame h₃ h₄]
        exact ⟨hb, hq⟩

/-- The blocked account has no request accepted. -/
theorem Blocks.refuses (h : Blocks t s rel) {data : SendFriendRequestDto}
    (ht : (Call.sendFriendRequest s data).target accounts = some t) :
    (Call.sendFriendRequest s data).commits accounts rel = none := by
  rw [commits_eq ht]
  simp [pairOutcome, Call.account, Call.kind, Kind.rows, h.1]

end Rows

/-! ## The database -/

section Store

variable {db : Database} {s t : String} {a : Action}

theorem act_accounts (db : Database) (a : Action) : (db.act a).accounts = db.accounts := by
  cases a with
  | relationship c => rfl
  | createDirectMessage rt data =>
    unfold Database.act
    simp only
    split
    · rename_i m db' h
      obtain ⟨-, -, -, -, rfl⟩ := createDirectMessage_ok.mp h
      rfl
    · rfl

/-- An action that does not lift the block keeps it, and stores no message of the blocked account. -/
theorem Blocks.act (h : Blocks t s db.relationships) (hl : a.lifts t s db = false) :
    Blocks t s (db.act a).relationships ∧ messagesFrom s t (db.act a) = messagesFrom s t db := by
  cases a with
  | relationship c =>
    refine ⟨h.apply fun ⟨hlift, hs⟩ => ?_, rfl⟩
    simp [Action.lifts, hlift, hs] at hl
  | createDirectMessage rt data =>
    unfold Database.act
    simp only
    split
    · rename_i m db' hm
      obtain ⟨-, -, hb, -, rfl⟩ := createDirectMessage_ok.mp hm
      refine ⟨h, ?_⟩
      have hne : ¬(m.senderId = s ∧ m.targetId = t) := by
        rintro ⟨rfl, rfl⟩
        exact hb h.1
      simp [messagesFrom, List.filter_append, hne]
    · exact ⟨h, rfl⟩

/-- What a block keeps from the lists of the two accounts. -/
theorem Blocks.lists (h : Blocks t s db.relationships) (ht : db.accounts.Active t) (hs : db.accounts.Active s) :
    (s ∉ friendIds db t ∧ s ∉ incomingIds db t ∧ s ∉ outgoingIds db t) ∧
      (t ∉ friendIds db s ∧ t ∉ incomingIds db s ∧ t ∉ outgoingIds db s) ∧ s ∈ blockedIds db t := by
  obtain ⟨hb, hq⟩ := h
  rw [mem_friendIds ht.registered, mem_incomingIds ht.registered, mem_outgoingIds ht.registered,
    mem_friendIds hs.registered, mem_incomingIds hs.registered, mem_outgoingIds hs.registered,
    mem_blockedIds ht.registered]
  rcases hq with hq | hq <;> simp [hb, hq, hs]

end Store

/-- **A block is enforced for as long as it stands.** After a successful `blockUser(t, s)` and any further actions none
of which lifts the block, every request of `s` to `t` fails, no message from `s` to `t` has been added, neither account
is on a list of friends or of requests of the other, and `s` is on the list of those `t` blocks. -/
theorem block_enforced (db : Database) (t s : String) (rel : Relationships)
    (hblock : (Call.blockUser t s).commits db.accounts db.relationships = some rel) (actions : List Action)
    (hkeep : Machine.Along Database.step (fun db a => a.lifts t s db = false) { db with relationships := rel } actions)
    (db' : Database) (hrun : Machine.run Database.step { db with relationships := rel } actions = some db') :
    (∀ data, (Call.sendFriendRequest s data).target db'.accounts = some t →
      (Call.sendFriendRequest s data).commits db'.accounts db'.relationships = none) ∧
    messagesFrom s t db' = messagesFrom s t db ∧
    (s ∉ friendIds db' t ∧ s ∉ incomingIds db' t ∧ s ∉ outgoingIds db' t) ∧
    (t ∉ friendIds db' s ∧ t ∉ incomingIds db' s ∧ t ∉ outgoingIds db' s) ∧
    s ∈ blockedIds db' t := by
  obtain ⟨ht, hs, hb⟩ := blocks_of_blockUser hblock
  let I : Database → Prop := fun d =>
    d.accounts = db.accounts ∧ Blocks t s d.relationships ∧ messagesFrom s t d = messagesFrom s t db
  have hinit : I { db with relationships := rel } := ⟨rfl, hb, rfl⟩
  have hstep : ∀ d a d', I d → a.lifts t s d = false → Database.step d a = some d' → I d' := by
    rintro d a d' ⟨hacc, hbl, hmsg⟩ hl hd
    cases hd
    obtain ⟨hbl', hmsg'⟩ := hbl.act hl
    exact ⟨(act_accounts d a).trans hacc, hbl', hmsg'.trans hmsg⟩
  obtain ⟨hacc, hbl, hmsg⟩ := Machine.run_inv hstep hinit hkeep hrun
  exact ⟨fun data => hbl.refuses, hmsg, hbl.lists (hacc ▸ ht) (hacc ▸ hs)⟩

/-- The blocked account tries everything. -/
theorem block_enforced_sample :
    let db : Database := ⟨activeAccounts, fun _ => none, [], noRelationships, []⟩
    let rel := (Call.blockUser "bob" "alice").apply activeAccounts noRelationships
    let actions : List Action :=
      [.relationship (.sendFriendRequest "alice" { targetId := some "bob" }), .relationship (.blockUser "alice" "bob"),
        .relationship (.unblockUser "alice" "bob"), .relationship (.removeFriend "alice" "bob"),
        .relationship (.cancelFriendRequest "bob" "alice"), .relationship (.unblockUser "bob" "carol")]
    ∃ db', Machine.run Database.step { db with relationships := rel } actions = some db' ∧
      "alice" ∈ blockedIds db' "bob" := by
  intro db rel actions
  exact ⟨_, rfl, (block_enforced db "bob" "alice" rel rfl actions (by decide) _ rfl).2.2.2.2⟩

end DiscordClone
