import DiscordClone.Lib.Machine
import DiscordClone.Auth.Register
import DiscordClone.User.Lists
import DiscordClone.User.Refinement
import DiscordClone.Sample

/-!
# What the lists offer can be acted on

A run is a list of registrations, verifications and relationship operations, each of them alone.

- `Parties`: the rows of every pair match, the owner of a row is registered, and ACTIVE unless the row is PENDING; every
  run by ACTIVE callers keeps it (`parties_run`).
- `actionable_iff`: over such a table everything on the lists of an ACTIVE account can be acted on, exactly when nobody
  who has not been verified has a request of this account pending.
- A run in which every request asks an ACTIVE account leaves no such row (`owners_active_run`). The look-up of the
  target in `sendFriendRequest` does not ask for an ACTIVE account, and `verifyAccounts` does.
-/

namespace DiscordClone

open Transaction Relationships

/-- A registration, a verification or a relationship operation. -/
inductive Operation where
  | register (env : RegisterEnv) (data : RegisterDto)
  | verify (now : DateTime) (accountId : String)
  | relationship (c : Call)

/-- The database after an operation, which is the same database when it fails. -/
def Database.perform (db : Database) : Operation → Database
  | .register env data => (AuthService.register env db data).2
  | .verify now a => (AuthService.verify now db a).toOption.getD db
  | .relationship c => { db with relationships := c.apply db.accounts db.relationships }

/-- An operation as a step. -/
def Database.operate (db : Database) (o : Operation) : Option Database := some (db.perform o)

/-- The database without rows. -/
def Database.empty : Database := ⟨Accounts.empty, fun _ => none, [], noRelationships, []⟩

namespace Operation

/-- The caller of a relationship operation is ACTIVE. -/
def ByActive (db : Database) : Operation → Prop
  | .relationship c => db.accounts.Active c.account
  | _ => True

/-- A request asks an ACTIVE account. -/
def AsksActive (db : Database) : Operation → Prop
  | .relationship (.sendFriendRequest x data) =>
    ∀ y ∈ (Call.sendFriendRequest x data).target db.accounts, db.accounts.Active y
  | _ => True

instance (db : Database) (o : Operation) : Decidable (o.ByActive db) := by
  unfold ByActive
  split <;> infer_instance

instance (db : Database) (o : Operation) : Decidable (o.AsksActive db) := by
  unfold AsksActive
  split <;> infer_instance

end Operation

/-- `b` is on a list of `a`. -/
def Listed (db : Database) (a b : String) : Prop :=
  b ∈ friendIds db a ∨ b ∈ incomingIds db a ∨ b ∈ outgoingIds db a ∨ b ∈ blockedIds db a

/-- Everything on the lists of `a` can be acted on. -/
structure Actionable (db : Database) (a : String) : Prop where
  cancel : ∀ b ∈ outgoingIds db a, ∃ rel,
    (Call.cancelFriendRequest a b).commits db.accounts db.relationships = some rel ∧
      ¬Listed { db with relationships := rel } a b
  feedback : ∀ b ∈ incomingIds db a, ∀ type,
    (Call.feedbackFriendRequest type a b).succeeds db.accounts db.relationships = true
  remove : ∀ b ∈ friendIds db a, (Call.removeFriend a b).succeeds db.accounts db.relationships = true
  unblock : ∀ b ∈ blockedIds db a, (Call.unblockUser a b).succeeds db.accounts db.relationships = true

/-- The status that stands on the other side of a row. -/
def RelationshipStatus.matching : RelationshipStatus → RelationshipStatus
  | .PENDING => .REQUESTING
  | .REQUESTING => .PENDING
  | s => s

/-- The rows match, and their owners are registered, and ACTIVE unless they have been asked. -/
structure Parties (accounts : Accounts) (rel : Relationships) : Prop where
  wellPaired : WellPaired rel
  registered : ∀ {x y p}, rel (x, y) = some p → accounts.Registered x
  active : ∀ {x y p}, rel (x, y) = some p → p ≠ .PENDING → accounts.Active x

/-- The owners of all rows are ACTIVE. -/
def OwnersActive (accounts : Accounts) (rel : Relationships) : Prop :=
  ∀ {x y p}, rel (x, y) = some p → accounts.Active x

/-! ## One operation -/

section Step

variable {accounts accounts' : Accounts} {rel : Relationships} {c : Call} {x y : String}

/-- A request is about a registered account, the other operations about an ACTIVE one. -/
theorem target_registered (ht : c.target accounts = some y) (ha : c.Admitted accounts y) : accounts.Registered y := by
  cases c with
  | sendFriendRequest x data =>
    simp only [Call.target] at ht
    split at ht
    · cases ht
    · obtain ⟨e, he, rfl⟩ := Option.map_eq_some_iff.mp ht
      exact ⟨e, List.mem_of_find?_eq_some he, rfl⟩
  | feedbackFriendRequest type => cases type <;> exact ha.2.2.registered
  | _ => exact ha.2.2.registered

theorem target_active (ha : c.Admitted accounts y) (hk : c.kind ≠ .send) : accounts.Active y := by
  obtain ⟨-, h⟩ := ha
  generalize c.kind = k at h hk
  cases k with
  | send => exact absurd rfl hk
  | _ => exact h.2

/-- A request leaves the other account a PENDING row, unless it answers a request of that account. -/
theorem rows_send {p q p' : Option RelationshipStatus} {s : RelationshipStatus}
    (hr : Kind.send.rows p q = some (p', some s)) : s = .PENDING ∨ q = some .REQUESTING := by
  cases q with
  | none =>
    simp [Kind.rows] at hr
    exact Or.inl hr.2.symm
  | some q => cases q <;> simp_all [Kind.rows]

/-- Rows of a table after a write of a pair, by the pair they belong to. -/
theorem setPair_cases {r : Option RelationshipStatus × Option RelationshipStatus} {a b : String}
    {p : RelationshipStatus} (hxy : x ≠ y) (h : rel.setPair x y r (a, b) = some p) :
    (a = x ∧ b = y) ∧ r.1 = some p ∨ (a = y ∧ b = x) ∧ r.2 = some p ∨ rel (a, b) = some p := by
  by_cases h₁ : (a, b) = (x, y)
  · cases h₁
    rw [setPair_own hxy] at h
    exact Or.inl ⟨⟨rfl, rfl⟩, h⟩
  · by_cases h₂ : (a, b) = (y, x)
    · cases h₂
      rw [setPair_other] at h
      exact Or.inr (Or.inl ⟨⟨rfl, rfl⟩, h⟩)
    · rw [setPair_frame h₁ h₂] at h
      exact Or.inr (Or.inr h)

/-- **A call of an ACTIVE account keeps the parties.** -/
theorem Parties.apply (h : Parties accounts rel) (hx : accounts.Active c.account) :
    Parties accounts (c.apply accounts rel) := by
  have hwp := h.wellPaired.apply accounts c
  rcases apply_cases accounts rel c with ⟨-, he⟩ | ⟨y, r, ht, ha, hr, -, he⟩
  · rwa [he]
  · rw [he] at hwp ⊢
    have hy := target_registered ht ha
    refine ⟨hwp, fun hrow => ?_, fun hrow hp => ?_⟩
    · rcases setPair_cases ha.1 hrow with ⟨⟨rfl, -⟩, -⟩ | ⟨⟨rfl, -⟩, -⟩ | hrow
      · exact hx.registered
      · exact hy
      · exact h.registered hrow
    · rcases setPair_cases ha.1 hrow with ⟨⟨rfl, -⟩, -⟩ | ⟨⟨rfl, -⟩, hr'⟩ | hrow
      · exact hx
      · by_cases hk : c.kind = .send
        · -- the owner of the other row has sent a request before
          rw [hk, ← Prod.eta r, hr'] at hr
          exact h.active ((rows_send hr).resolve_left hp) (by decide)
        · exact target_active ha hk
      · exact h.active hrow hp

/-- A call of an ACTIVE account leaves rows of ACTIVE accounts, when a request asks one. -/
theorem OwnersActive.apply (h : OwnersActive accounts rel) (hx : accounts.Active c.account)
    (hy : c.kind = .send → ∀ y ∈ c.target accounts, accounts.Active y) :
    OwnersActive accounts (c.apply accounts rel) := by
  rcases apply_cases accounts rel c with ⟨-, he⟩ | ⟨y, r, ht, ha, hr, -, he⟩
  · rwa [he]
  · rw [he]
    intro a b p hrow
    rcases setPair_cases ha.1 hrow with ⟨⟨rfl, -⟩, -⟩ | ⟨⟨rfl, -⟩, -⟩ | hrow
    · exact hx
    · by_cases hk : c.kind = .send
      · exact hy hk _ ht
      · exact target_active ha hk
    · exact h hrow

/-- More accounts keep the parties. -/
theorem Parties.extends (h : Parties accounts rel) (he : accounts.Extends accounts') : Parties accounts' rel :=
  ⟨h.wellPaired, fun hrow => he.registered (h.registered hrow), fun hrow hp => he.active (h.active hrow hp)⟩

/-- An operation that is not about relationships is about the accounts and their settings, and keeps the accounts. -/
theorem perform_cases (db : Database) (o : Operation) :
    (∃ c, o = .relationship c) ∨ ∃ accounts settings, db.accounts.Keeps accounts ∧
      db.perform o = { db with accounts := accounts, settings := settings } := by
  cases o with
  | register env data =>
    refine Or.inr ?_
    rcases register_cases env db data with h | ⟨e, accounts, settings, -, hc, h⟩
    · exact ⟨db.accounts, db.settings, .refl _, h⟩
    · exact ⟨accounts, settings, Accounts.keeps_create hc, h⟩
  | verify now a =>
    refine Or.inr ?_
    have hperform : db.perform (.verify now a) = (AuthService.verify now db a).toOption.getD db := rfl
    cases h : AuthService.verify now db a with
    | error e =>
      rw [h] at hperform
      exact ⟨db.accounts, db.settings, .refl _, hperform⟩
    | ok db' =>
      obtain ⟨accounts, hu, rfl⟩ := verify_ok h
      rw [h] at hperform
      exact ⟨accounts, db.settings, Accounts.keeps_updateStatus hu, hperform⟩
  | relationship c => exact Or.inl ⟨c, rfl⟩

end Step

/-! ## Runs -/

/-- Without rows there is nothing to match. -/
theorem parties_without (accounts : Accounts) : Parties accounts noRelationships where
  wellPaired := wellPaired_empty
  registered h := by cases h
  active h := by cases h

/-- **A run by ACTIVE callers keeps the parties.** -/
theorem parties_run {ops : List Operation} {db db' : Database} (h : Parties db.accounts db.relationships)
    (hcallers : Machine.Along Database.operate (fun db o => o.ByActive db) db ops)
    (hrun : Machine.run Database.operate db ops = some db') : Parties db'.accounts db'.relationships := by
  refine Machine.run_inv (I := fun db => Parties db.accounts db.relationships) ?_ h hcallers hrun
  intro db o db' h hc hs
  cases hs
  rcases perform_cases db o with ⟨c, rfl⟩ | ⟨accounts, settings, hkeeps, he⟩
  · exact h.apply hc
  · rw [he]
    exact h.extends hkeeps.extends

/-- **A run whose requests ask ACTIVE accounts leaves rows of ACTIVE accounts.** -/
theorem owners_active_run {ops : List Operation} {db db' : Database} (h : OwnersActive db.accounts db.relationships)
    (hcallers : Machine.Along Database.operate (fun db o => o.ByActive db ∧ o.AsksActive db) db ops)
    (hrun : Machine.run Database.operate db ops = some db') : OwnersActive db'.accounts db'.relationships := by
  refine Machine.run_inv (I := fun db => OwnersActive db.accounts db.relationships) ?_ h hcallers hrun
  intro db o db' h hc hs
  cases hs
  rcases perform_cases db o with ⟨c, rfl⟩ | ⟨accounts, settings, hkeeps, he⟩
  · refine OwnersActive.apply h hc.1 fun hk y hy => ?_
    cases c with
    | sendFriendRequest x data => exact hc.2 y hy
    | feedbackFriendRequest type => cases type <;> cases hk
    | _ => cases hk
  · rw [he]
    exact fun hrow => hkeeps.extends.active (h hrow)

/-! ## The lists -/

section Lists

variable {db : Database} {a b : String}

/-- Nobody has a row with oneself. -/
theorem WellPaired.ne {rel : Relationships} (h : WellPaired rel) {p : RelationshipStatus} (hp : rel (a, b) = some p) :
    a ≠ b := by
  rintro rfl
  rw [h.irrefl] at hp
  cases hp

/-- A row that is no block has its match on the other side. -/
theorem WellPaired.matched {rel : Relationships} (h : WellPaired rel) {q : RelationshipStatus}
    (hq : rel (b, a) = some q) (hb : q ≠ .BLOCKED) : rel (a, b) = some q.matching := by
  have hp := h.paired a b (h.ne hq).symm
  rw [hq] at hp
  generalize rel (a, b) = p at hp
  cases hp <;> first | rfl | exact absurd rfl hb

/-- A call among ACTIVE accounts that has an outcome for the two rows. -/
theorem commits_of_rows {c : Call} {r : Option RelationshipStatus × Option RelationshipStatus}
    (ht : c.target db.accounts = some b) (ha : c.Admitted db.accounts b)
    (hr : c.kind.rows (db.relationships (c.account, b)) (db.relationships (b, c.account)) = some r) :
    c.commits db.accounts db.relationships = some (db.relationships.setPair c.account b r) := by
  rw [commits_eq ht, if_pos ha, pairOutcome, hr, Option.map_some]

theorem succeeds_of_rows {c : Call} {r : Option RelationshipStatus × Option RelationshipStatus}
    (ht : c.target db.accounts = some b) (ha : c.Admitted db.accounts b)
    (hr : c.kind.rows (db.relationships (c.account, b)) (db.relationships (b, c.account)) = some r) :
    c.succeeds db.accounts db.relationships = true :=
  succeeds_iff.mpr ⟨_, commits_of_rows ht ha hr⟩

/-- An account without a row of the pair is on no list. -/
theorem not_listed (ha : db.accounts.Registered a) (hp : db.relationships (a, b) = none)
    (hq : db.relationships (b, a) = none) : ¬Listed db a b := by
  rw [Listed, mem_friendIds ha, mem_incomingIds ha, mem_outgoingIds ha, mem_blockedIds ha, hp, hq]
  simp

/-- **The lists of `a` can be acted on** exactly when all accounts that have a request of `a` pending are ACTIVE. -/
theorem actionable_iff (h : Parties db.accounts db.relationships) (ha : db.accounts.Active a) :
    Actionable db a ↔ ∀ b, db.relationships (b, a) = some .PENDING → db.accounts.Active b := by
  constructor
  · intro hact b hb
    have hout : b ∈ outgoingIds db a := (mem_outgoingIds ha.registered).mpr ⟨h.registered hb, hb⟩
    obtain ⟨rel, hc, -⟩ := hact.cancel b hout
    obtain ⟨y, r, ht, hadm, -⟩ := commits_cases hc
    cases ht
    exact hadm.2.2
  · intro hall
    constructor
    case cancel =>
      intro b hb
      obtain ⟨-, hq⟩ := (mem_outgoingIds ha.registered).mp hb
      have hab : a ≠ b := (h.wellPaired.ne hq).symm
      have hp : db.relationships (a, b) = some .REQUESTING := h.wellPaired.matched hq (by decide)
      have hc := commits_of_rows (c := .cancelFriendRequest a b) (r := (none, none)) rfl ⟨hab, ha, hall b hq⟩
        (by simp [Call.kind, Call.account, Kind.rows, hp, hq])
      refine ⟨_, hc, not_listed ha.registered ?_ ?_⟩
      · exact setPair_own hab
      · exact setPair_other
    case feedback =>
      intro b hb type
      obtain ⟨-, hq⟩ := (mem_incomingIds ha.registered).mp hb
      have hab : a ≠ b := (h.wellPaired.ne hq).symm
      have hp : db.relationships (a, b) = some .PENDING := h.wellPaired.matched hq (by decide)
      have hact : db.accounts.Active b := h.active hq (by decide)
      cases type with
      | accept =>
        exact succeeds_of_rows (r := (some .FRIEND, some .FRIEND)) rfl ⟨hab, ha, hact⟩
          (by simp [Call.kind, Call.account, Kind.rows, hp, hq])
      | ignore =>
        exact succeeds_of_rows (r := (none, none)) rfl ⟨hab, ha, hact⟩
          (by simp [Call.kind, Call.account, Kind.rows, hp, hq])
    case remove =>
      intro b hb
      obtain ⟨hact, hp⟩ := (mem_friendIds ha.registered).mp hb
      have hq : db.relationships (b, a) = some .FRIEND := h.wellPaired.matched hp (by decide)
      exact succeeds_of_rows (r := (none, none)) rfl ⟨h.wellPaired.ne hp, ha, hact⟩
        (by simp [Call.kind, Call.account, Kind.rows, hp, hq])
    case unblock =>
      intro b hb
      obtain ⟨hact, hp⟩ := (mem_blockedIds ha.registered).mp hb
      exact succeeds_of_rows (r := (none, db.relationships (b, a))) rfl ⟨h.wellPaired.ne hp, ha, hact⟩
        (by simp [Call.kind, Call.account, Kind.rows, hp])

end Lists

/-- **What the lists offer can be acted on, unless it is a request to an account that has not been verified.** After any
run of registrations, verifications and operations by ACTIVE accounts, everything on the lists of an ACTIVE account can
be acted on exactly when all accounts that have one of its requests pending are ACTIVE; and it can in every run whose
requests ask ACTIVE accounts. -/
theorem lists_actionable (ops : List Operation)
    (hcallers : Machine.Along Database.operate (fun db o => o.ByActive db) Database.empty ops) (db : Database)
    (hrun : Machine.run Database.operate Database.empty ops = some db) :
    (∀ a, db.accounts.Active a →
      (Actionable db a ↔ ∀ b, db.relationships (b, a) = some .PENDING → db.accounts.Active b)) ∧
    (Machine.Along Database.operate (fun db o => o.AsksActive db) Database.empty ops →
      ∀ a, db.accounts.Active a → Actionable db a) := by
  have hp : Parties db.accounts db.relationships := parties_run (parties_without _) hcallers hrun
  refine ⟨fun a ha => actionable_iff hp ha, fun hasks a ha => (actionable_iff hp ha).mpr fun b hb => ?_⟩
  have hinit : OwnersActive Database.empty.accounts Database.empty.relationships := fun h => by cases h
  exact owners_active_run hinit (hcallers.and hasks) hrun hb

/-- alice and carol register, alice verifies her account, and carol too when she does, and alice asks carol. -/
def aliceAsksCarol (carolVerifies : Bool) : List Operation :=
  [.register (sampleRegister "alice").1 (sampleRegister "alice").2,
    .register (sampleRegister "carol").1 (sampleRegister "carol").2, .verify 0 "alice"] ++
    (if carolVerifies then [.verify 1 "carol"] else []) ++
    [.relationship (.sendFriendRequest "alice" { targetUsername := some "carol" })]

/-- alice can withdraw a request to an account that has been verified. -/
theorem lists_actionable_sample :
    ∃ db, Machine.run Database.operate Database.empty (aliceAsksCarol true) = some db ∧
      outgoingIds db "alice" = ["carol"] ∧ Actionable db "alice" :=
  ⟨_, rfl, by decide,
    (lists_actionable (aliceAsksCarol true) (by decide) _ rfl).2 (by decide) "alice" (by decide)⟩

/-- alice asks carol, who has not been verified: her list shows the request, and she cannot withdraw it. -/
theorem lists_actionable_unverified :
    ∃ db, Machine.Along Database.operate (fun db o => o.ByActive db) Database.empty (aliceAsksCarol false) ∧
      Machine.run Database.operate Database.empty (aliceAsksCarol false) = some db ∧
      db.accounts.Active "alice" ∧ outgoingIds db "alice" = ["carol"] ∧
      (Call.cancelFriendRequest "alice" "carol").commits db.accounts db.relationships = none ∧
      ¬Actionable db "alice" := by
  refine ⟨_, by decide, rfl, by decide, by decide, by decide, fun h => ?_⟩
  obtain ⟨rel, hc, -⟩ := h.cancel "carol" (by decide)
  cases hc

end DiscordClone
