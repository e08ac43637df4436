import DiscordClone.Server
import DiscordClone.User.Views

/-!
# Accounts that have not been verified

`sendFriendRequest` looks at the status of neither account. That an account which has not been verified is a party to
nothing but a request it has not answered is a matter of all modules: a token is only issued to an ACTIVE account, an
ACTIVE account stays so, and every other operation asks for ACTIVE accounts.

- `blocked_apply`: a block is of an ACTIVE account; the other rows are `Parties`.
- `unverified_parties`: what holds in every state that the server reaches, and that the lists hide no row.
-/

namespace DiscordClone

open Transaction Relationships

/-- Those who are blocked are ACTIVE. -/
def BlockedActive (accounts : Accounts) (rel : Relationships) : Prop :=
  ∀ {x y}, rel (x, y) = some .BLOCKED → accounts.Active y

/-- The ACTIVE accounts and the others: sessions, and who is a party to what. -/
structure OnlyAsked (db : Database) : Prop where
  sessions : ∀ x ∈ db.sessions, db.accounts.Active x.accountId
  friend : ∀ {a b}, db.relationships (a, b) = some .FRIEND → db.accounts.Active a ∧ db.accounts.Active b
  blocked : ∀ {a b}, db.relationships (a, b) = some .BLOCKED → db.accounts.Active a ∧ db.accounts.Active b
  requesting : ∀ {a b}, db.relationships (a, b) = some .REQUESTING → db.accounts.Active a
  /-- An account that is not ACTIVE owns PENDING rows only, and is the target of REQUESTING rows only. -/
  unverified : ∀ {a b p}, ¬db.accounts.Active a →
    (db.relationships (a, b) = some p → p = .PENDING) ∧ (db.relationships (b, a) = some p → p = .REQUESTING)

/-- A list has one entry for each row of `a` with this status. -/
def OneForEach (db : Database) (a : String) (status : RelationshipStatus) (ids : List String) : Prop :=
  ids.Nodup ∧ ∀ b, b ∈ ids ↔ db.relationships (a, b) = some status

section Rows

variable {accounts accounts' : Accounts} {rel : Relationships} {db : Database} {a : String}

/-- An operation writes a block only over a block, or where an ACTIVE account is blocked. -/
theorem rows_own_blocked {k : Kind} {p q p' q' : Option RelationshipStatus} (hr : k.rows p q = some (p', q'))
    (hb : p' = some .BLOCKED) : k ≠ .send ∨ p = some .BLOCKED := by
  cases k with
  | send =>
    cases q with
    | none => simp_all [Kind.rows]
    | some q => cases q <;> simp_all [Kind.rows]
  | _ => exact Or.inl (by decide)

/-- **A block is of an ACTIVE account.** -/
theorem blocked_apply {c : Call} (h : BlockedActive accounts rel) (hx : accounts.Active c.account) :
    BlockedActive accounts (c.apply accounts rel) := by
  rcases apply_cases accounts rel c with ⟨-, he⟩ | ⟨y, r, ht, ha, hr, -, he⟩
  · rwa [he]
  · rw [he]
    intro a b hrow
    rcases setPair_cases ha.1 hrow with ⟨⟨rfl, rfl⟩, hr'⟩ | ⟨⟨-, rfl⟩, -⟩ | hrow
    · rcases rows_own_blocked hr hr' with hk | hp
      · exact target_active ha hk
      · exact h hp
    · exact hx
    · exact h hrow

/-- Parties of blocks among them, nobody else is a party to anything but a request. -/
theorem onlyAsked (h : Parties db.accounts db.relationships) (hb : BlockedActive db.accounts db.relationships)
    (hs : ∀ x ∈ db.sessions, db.accounts.Active x.accountId) : OnlyAsked db where
  sessions := hs
  friend hp := ⟨h.active hp (by decide), h.active (h.wellPaired.matched hp (by decide)) (by decide)⟩
  blocked hp := ⟨h.active hp (by decide), hb hp⟩
  requesting hp := h.active hp (by decide)
  unverified {a b p} ha := by
    refine ⟨fun hp => ?_, fun hp => ?_⟩
    · by_contra hne
      exact ha (h.active hp hne)
    · -- the row on the other side is PENDING, or this one is a block
      by_contra hne
      by_cases hblock : p = .BLOCKED
      · exact ha (hb (hblock ▸ hp))
      · refine ha (h.active (h.wellPaired.matched hp hblock) ?_)
        cases p <;> simp_all [RelationshipStatus.matching]

/-- A list that is shown has the entries that its ids say. -/
theorem oneForEach_shown {α : Type} {id : α → String} {status : RelationshipStatus} {shown : Except Exception (List α)}
    (hok : ∃ users, shown = .ok users) (h : OneForEach db a status (idsOf id shown)) :
    ∃ users, shown = .ok users ∧ OneForEach db a status (users.map id) := by
  obtain ⟨users, rfl⟩ := hok
  exact ⟨users, rfl, h⟩

/-- The ACTIVE filter hides no row, where both ends of the rows with this status are ACTIVE. -/
theorem oneForEach_select {status : RelationshipStatus}
    (h : ∀ b, db.relationships (a, b) = some status → db.accounts.Active b) :
    OneForEach db a status
      (db.accounts.select fun e => e.status = .ACTIVE && db.relationships (a, e.id) = some status) := by
  refine ⟨select_nodup _ _, fun b => ?_⟩
  rw [mem_select_own]
  exact ⟨fun hb => hb.2, fun hb => ⟨h b hb, hb⟩⟩

/-- The friends that are shown are the FRIEND rows. -/
theorem friends_shown (h : OnlyAsked db) (ha : db.accounts.Registered a) :
    ∃ users, UserService.getFriends db a = .ok users ∧ OneForEach db a .FRIEND (users.map (·.id)) := by
  have hids : OneForEach db a .FRIEND (friendIds db a) := by
    rw [friendIds_eq ha]
    exact oneForEach_select fun b hb => (h.friend hb).2
  obtain ⟨e, he, rfl⟩ := findFirst_self ha
  exact oneForEach_shown ⟨_, by simp only [UserService.getFriends, he]; rfl⟩ hids

/-- The blocked users that are shown are the BLOCKED rows. -/
theorem blocked_shown (h : OnlyAsked db) (ha : db.accounts.Registered a) :
    ∃ users, UserService.getBlockedUsers db a = .ok users ∧ OneForEach db a .BLOCKED (users.map (·.id)) := by
  have hids : OneForEach db a .BLOCKED (blockedIds db a) := by
    rw [blockedIds_eq ha]
    exact oneForEach_select fun b hb => (h.blocked hb).2
  obtain ⟨e, he, rfl⟩ := findFirst_self ha
  exact oneForEach_shown ⟨_, by simp only [UserService.getBlockedUsers, he]; rfl⟩ hids

end Rows

/-- What the server keeps: its sessions and tokens are those of ACTIVE accounts, and the rows match. -/
structure ServerParties (s : Server) : Prop where
  sound : s.Sound
  parties : Parties s.db.accounts s.db.relationships
  blocked : BlockedActive s.db.accounts s.db.relationships

/-- **Every step keeps the parties**: an operation is one of an account that has a token, which is ACTIVE. -/
theorem serverParties_step {s s' : Server} (h : ServerParties s) (he : s.Effects s') : ServerParties s' := by
  refine ⟨sound_step h.sound he, ?_, ?_⟩
  · rcases he.relationships with hrel | ⟨c, accessToken, htoken, hacc, hrel⟩
    · rw [hrel]
      exact h.parties.extends he.accounts
    · rw [hacc, hrel]
      exact h.parties.apply (h.sound.active _ (Or.inr ⟨accessToken, htoken⟩))
  · rcases he.relationships with hrel | ⟨c, accessToken, htoken, hacc, hrel⟩
    · rw [hrel]
      exact fun hrow => he.accounts.active (h.blocked hrow)
    · rw [hacc, hrel]
      exact blocked_apply h.blocked (h.sound.active _ (Or.inr ⟨accessToken, htoken⟩))

/-- **Accounts that have not been verified are a party to nothing but an unanswered request.** From a database without
relationships, after any run of the server: every session belongs to an ACTIVE account, both ends of every FRIEND and of
every BLOCKED row and the owner of every REQUESTING row are ACTIVE, an account that is not ACTIVE owns PENDING rows
only, and `getFriends` and `getBlockedUsers` show each FRIEND and each BLOCKED row of an account once. -/
theorem unverified_parties (env : ServerEnv) (db : Database) (h₀ : db.relationships = noRelationships)
    (events : List ServerEvent) (s : Server) (hrun : Machine.run (Server.step env) (.start db) events = some s) :
    OnlyAsked s.db ∧ ∀ a, s.db.accounts.Registered a →
      (∃ users, UserService.getFriends s.db a = .ok users ∧ OneForEach s.db a .FRIEND (users.map (·.id))) ∧
      ∃ users, UserService.getBlockedUsers s.db a = .ok users ∧ OneForEach s.db a .BLOCKED (users.map (·.id)) := by
  have hinit : ServerParties (.start db) := by
    refine ⟨sound_start db, ?_, ?_⟩
    · show Parties db.accounts db.relationships
      rw [h₀]
      exact parties_without db.accounts
    · intro x y hrow
      rw [show (Server.start db).db.relationships = noRelationships from h₀] at hrow
      cases hrow
  have hs : ServerParties s :=
    Machine.run_inv' (fun _ _ _ h hstep => serverParties_step h (step_effects hstep)) hinit hrun
  have hasked : OnlyAsked s.db :=
    onlyAsked hs.parties hs.blocked fun x hx => hs.sound.active _ (Or.inl ⟨x, hx, rfl⟩)
  exact ⟨hasked, fun a ha => ⟨friends_shown hasked ha, blocked_shown hasked ha⟩⟩

/-- The access token of an account that logs in at the time 0. -/
def sampleAccessToken (name : String) : String := signToken sampleJwt id 0 .ACCESS name

/-- alice and carol register, alice verifies her account, logs in and asks carol. -/
def aliceLogsInAndAsks : List ServerEvent :=
  [.register (sampleRegister "alice").1 (sampleRegister "alice").2,
    .register (sampleRegister "carol").1 (sampleRegister "carol").2, .verify 0 "alice",
    .login 0 ⟨"alice@mail.test", "alice"⟩ 0 "session 1",
    .relationship (sampleAccessToken "alice") (.sendFriendRequest "alice" { targetUsername := some "carol" })]

/-- carol, who has not verified her account, has a PENDING row. -/
theorem unverified_parties_sample :
    ∃ s, Machine.run (Server.step sampleServerEnv) (.start Database.empty) aliceLogsInAndAsks = some s ∧
      ¬s.db.accounts.Active "carol" ∧ s.db.relationships ("carol", "alice") = some .PENDING ∧ OnlyAsked s.db :=
  ⟨_, rfl, by decide, by decide,
    (unverified_parties sampleServerEnv Database.empty rfl aliceLogsInAndAsks _ rfl).1⟩

end DiscordClone
