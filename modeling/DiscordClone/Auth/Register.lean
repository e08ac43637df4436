import DiscordClone.Auth.Token
import DiscordClone.Exceptions
import DiscordClone.Schema

/-!
# Registration

`register` and `verify` of `auth.service.ts`, each run alone, with `sendVerificationEmail` of `mail.service.ts`. The
collaborators of a registration may refuse: the database a text with a NUL, the hash, the insert when another
registration has taken the email or the username since the look-up, the signer and the mailer.

Accounts are only added, and a status only goes from NOT_VERIFIED to ACTIVE (`Accounts.Keeps`).
-/

namespace DiscordClone

/-! ## The accounts table -/

namespace Accounts

/-- A new value of a key keeps the key. -/
theorem nodup_concat {f : Account → String} {rows : List Account} {e : Account} (h : (rows.map f).Nodup)
    (he : f e ∉ rows.map f) : ((rows ++ [e]).map f).Nodup := by
  rw [List.map_append, List.map_singleton, ← List.concat_eq_append]
  exact h.concat he

/-- A map that leaves a column leaves its values. -/
theorem nodup_map_rows {f : Account → String} {g : Account → Account} {rows : List Account} (h : (rows.map f).Nodup)
    (hg : ∀ e, f (g e) = f e) : ((rows.map g).map f).Nodup := by
  have hf : f ∘ g = f := funext hg
  rwa [List.map_map, hf]

/-- `accounts.create({ data })`. -/
def create (accounts : Accounts) (e : Account) : Except Exception Accounts :=
  if h : e.id ∉ accounts.rows.map Account.id ∧ e.email ∉ accounts.rows.map Account.email ∧
      e.username ∉ accounts.rows.map Account.username then
    .ok
      { rows := accounts.rows ++ [e]
        id_nodup := nodup_concat accounts.id_nodup h.1
        email_nodup := nodup_concat accounts.email_nodup h.2.1
        username_nodup := nodup_concat accounts.username_nodup h.2.2 }
  else .error (.prisma .uniqueConstraint)

/-- The status of the account with this id, written at `now`. -/
def withStatus (id : String) (status : AccountStatus) (now : DateTime) (e : Account) : Account :=
  if e.id = id then { e with status := status, updatedAt := now } else e

/-- `accounts.update({ where: { id }, data: { status } })`. -/
def updateStatus (accounts : Accounts) (id : String) (status : AccountStatus) (now : DateTime) :
    Except Exception Accounts :=
  if accounts.rows.any fun e => e.id = id then
    .ok
      { rows := accounts.rows.map (withStatus id status now)
        id_nodup := nodup_map_rows accounts.id_nodup fun e => by unfold withStatus; split <;> rfl
        email_nodup := nodup_map_rows accounts.email_nodup fun e => by unfold withStatus; split <;> rfl
        username_nodup := nodup_map_rows accounts.username_nodup fun e => by unfold withStatus; split <;> rfl }
  else .error (.prisma .recordNotFound)

/-- The registered accounts stay registered and the ACTIVE ones stay ACTIVE. -/
structure Extends (accounts accounts' : Accounts) : Prop where
  registered : ∀ {id}, accounts.Registered id → accounts'.Registered id
  active : ∀ {id}, accounts.Active id → accounts'.Active id

/-- The accounts stay with their keys, and the ACTIVE ones stay ACTIVE. -/
def Keeps (accounts accounts' : Accounts) : Prop :=
  ∀ e ∈ accounts.rows, ∃ e' ∈ accounts'.rows, e'.id = e.id ∧ e'.email = e.email ∧ e'.username = e.username ∧
    (e.status = .ACTIVE → e'.status = .ACTIVE)

theorem Extends.refl (accounts : Accounts) : accounts.Extends accounts := ⟨id, id⟩

theorem Keeps.refl (accounts : Accounts) : accounts.Keeps accounts := fun e he => ⟨e, he, rfl, rfl, rfl, id⟩

variable {accounts accounts' : Accounts}

theorem Keeps.extends (h : accounts.Keeps accounts') : accounts.Extends accounts' where
  registered := by
    rintro id ⟨e, he, rfl⟩
    obtain ⟨e', he', hid, -⟩ := h e he
    exact ⟨e', he', hid⟩
  active := by
    rintro id ⟨e, he, rfl, hs⟩
    obtain ⟨e', he', hid, -, -, hactive⟩ := h e he
    exact ⟨e', he', hid, hactive hs⟩

theorem create_rows {e : Account} (h : accounts.create e = .ok accounts') : accounts'.rows = accounts.rows ++ [e] := by
  unfold create at h
  split at h
  · cases h
    rfl
  · cases h

/-- An insert meets a unique constraint only when a key of the row is taken. -/
theorem create_taken {e : Account} {x : Exception} (h : accounts.create e = .error x) :
    e.id ∈ accounts.rows.map Account.id ∨ e.email ∈ accounts.rows.map Account.email ∨
      e.username ∈ accounts.rows.map Account.username := by
  unfold create at h
  split at h
  · cases h
  · rename_i htaken
    by_contra hfree
    simp only [not_or] at hfree
    exact htaken hfree

theorem create_free {e : Account} (h : accounts.create e = .ok accounts') : e.id ∉ accounts.rows.map Account.id := by
  unfold create at h
  split at h
  · rename_i hfree
    exact hfree.1
  · cases h

theorem updateStatus_rows {id : String} {status : AccountStatus} {now : DateTime}
    (h : accounts.updateStatus id status now = .ok accounts') :
    accounts'.rows = accounts.rows.map (withStatus id status now) := by
  unfold updateStatus at h
  split at h
  · cases h
    rfl
  · cases h

/-- A new account leaves the others. -/
theorem keeps_create {e : Account} (h : accounts.create e = .ok accounts') : accounts.Keeps accounts' := by
  intro x hx
  refine ⟨x, ?_, rfl, rfl, rfl, id⟩
  rw [create_rows h]
  exact List.mem_append_left _ hx

/-- An account that becomes ACTIVE keeps its keys, and the others are as they were. -/
theorem keeps_updateStatus {id : String} {now : DateTime} (h : accounts.updateStatus id .ACTIVE now = .ok accounts') :
    accounts.Keeps accounts' := by
  intro x hx
  refine ⟨withStatus id .ACTIVE now x, ?_, ?_⟩
  · rw [updateStatus_rows h]
    exact List.mem_map_of_mem hx
  · unfold withStatus
    split
    · exact ⟨rfl, rfl, rfl, fun _ => rfl⟩
    · exact ⟨rfl, rfl, rfl, fun hs => hs⟩

end Accounts

/-! ## The operations -/

/-- `RegisterDto`, as far as the service reads it; its checks let every password pass that is not empty. -/
structure RegisterDto where
  email : String
  password : Json
  username : String
  displayName : Option String := none
  dateOfBirth : String

/-- The look-up of `register` can be made. -/
def RegisterDto.Searchable (data : RegisterDto) : Prop := Storable data.email ∧ Storable data.username

instance (data : RegisterDto) : Decidable data.Searchable := inferInstanceAs (Decidable (_ ∧ _))

/-- `data.displayName || data.username`. -/
def RegisterDto.shownName (data : RegisterDto) : String := (data.displayName.filter (· ≠ "")).getD data.username

/-- What the mail service hands to the mailer. -/
structure Mail where
  recipient : String
  subject : String
  template : String
  name : String
  verificationLink : String
  deriving DecidableEq, Repr

/-- The collaborators of a registration, as they behave in one call. -/
structure RegisterEnv where
  rt : Runtime
  /-- `bcrypt.hash`. -/
  hash : Json → Nat → Except Exception String
  /-- The database refuses the insert: because of another registration it meets a unique constraint, or a text of the
  row is one that it does not take, such as a name too long for its index. -/
  raced : Bool
  /-- The signer, or what it throws. -/
  jwt : Except Exception JwtService
  config : ConfigService
  /-- The time of the signature, in whole seconds. -/
  seconds : Nat
  sendMail : Mail → Except Exception Unit

namespace DefaultProfileValue

def BannerColor : String := "#5c64f4"

end DefaultProfileValue

/-- `sendVerificationEmail`. -/
def MailService.sendVerificationEmail (sendMail : Mail → Except Exception Unit)
    (recipient name verificationLink : String) :
    Except Exception Mail := do
  let mail : Mail := ⟨recipient, "Verify Email Address for SChat", "verify", name, verificationLink⟩
  sendMail mail
  pure mail

namespace AuthService

def saltRounds : Nat := 10

/-- A date column keeps the day. -/
def dateOnly (d : DateTime) : DateTime := d - d % 86400000

/-- The transaction of `register`: the new account and the database with it. -/
def registerTx (env : RegisterEnv) (db : Database) (data : RegisterDto) : Except Exception (Account × Database) :=
  if ¬data.Searchable then .error .prismaUnknown
  else match db.accounts.findFirst fun e => e.email = data.email || e.username = data.username with
  | some existingAccount =>
    if existingAccount.email = data.email then
      .error (.mk CustomErrorMessage.REGISTER__EMAIL_EXISTS HttpStatus.CONFLICT CustomErrorCode.REGISTER__EMAIL_EXISTS)
    else
      .error (.mk CustomErrorMessage.REGISTER__USERNAME_EXISTS HttpStatus.CONFLICT
        CustomErrorCode.REGISTER__USERNAME_EXISTS)
  | none => do
    let password ← env.hash data.password saltRounds
    match env.rt.parseDateTime data.dateOfBirth with
    | none => .error .prismaValidation
    | some dateOfBirth => do
      let newAccount : Account :=
        { id := env.rt.uuid
          email := data.email
          password := password
          username := data.username
          displayName := data.shownName
          dateOfBirth := dateOnly dateOfBirth
          bannerColor := DefaultProfileValue.BannerColor
          createdAt := env.rt.now
          updatedAt := env.rt.now }
      if ¬Storable data.shownName then
        .error .prismaUnknown
      else if env.raced then
        .error (.prisma .uniqueConstraint)
      else
        let accounts ← db.accounts.create newAccount
        let settings := Function.update db.settings newAccount.id (some (.obj [("pinnedDms", .arr [])]))
        pure (newAccount, { db with accounts := accounts, settings := settings })

/-- The mail that was sent, or what was thrown, and the database in either case. -/
def register (env : RegisterEnv) (db : Database) (data : RegisterDto) : Except Exception Mail × Database :=
  match registerTx env db data with
  | .error e => (.error e, db)
  | .ok (account, db') =>
    -- the transaction has committed
    let sent : Except Exception Mail := do
      let jwt ← env.jwt
      let verifyToken := signToken jwt env.config env.seconds .VERIFY account.id
      MailService.sendVerificationEmail env.sendMail account.email data.username
        (env.config "WEBAPP_VERIFY_URL" ++ "?token=" ++ verifyToken)
    (sent, db')

def verify (now : DateTime) (db : Database) (accountId : String) : Except Exception Database :=
  match db.accounts.findFirst fun e => e.id = accountId with
  | none => .error accountNotFound
  | some account =>
    if account.status ≠ .NOT_VERIFIED then
      .error (.mk CustomErrorMessage.VERIFY__INVALID_STATUS HttpStatus.CONFLICT CustomErrorCode.VERIFY__INVALID_STATUS)
    else do
      let accounts ← db.accounts.updateStatus accountId .ACTIVE now
      pure { db with accounts := accounts }

end AuthService

/-! ## What they change -/

/-- What refuses a registration in its transaction: the database refuses the look-up, the email or the username is
taken, the hash throws, the date cannot be read, or the database refuses the insert. -/
inductive Refused (env : RegisterEnv) (db : Database) (data : RegisterDto) : Prop
  | lookup (h : ¬data.Searchable)
  | taken {e} (he : e ∈ db.accounts.rows) (hkey : e.email = data.email ∨ e.username = data.username)
  | hash {x} (h : env.hash data.password AuthService.saltRounds = .error x)
  | date (h : env.rt.parseDateTime data.dateOfBirth = none)
  | name (h : ¬Storable data.shownName)
  | raced (h : env.raced = true)
  | id (h : env.rt.uuid ∈ db.accounts.rows.map Account.id)

/-- The account of a registration has been added, and nothing else. -/
structure Added (db db' : Database) (data : RegisterDto) (e : Account) : Prop where
  email : e.email = data.email
  username : e.username = data.username
  status : e.status = .NOT_VERIFIED
  rows : db'.accounts.rows = db.accounts.rows ++ [e]
  rest : db' = { db with
    accounts := db'.accounts
    settings := Function.update db.settings e.id (some (.obj [("pinnedDms", .arr [])])) }

section Register

variable {env : RegisterEnv} {db : Database} {data : RegisterDto}

/-- The look-up of `register` finds nobody exactly when the email and the username are free. -/
theorem findFirst_taken :
    (db.accounts.findFirst fun e => e.email = data.email || e.username = data.username) = none ↔
      ∀ e ∈ db.accounts.rows, ¬(e.email = data.email ∨ e.username = data.username) := by
  simp [Accounts.findFirst, List.find?_eq_none]

/-- A registration that comes to its insert: the insert meets a unique constraint or adds the account. -/
theorem registerTx_insert {password : String} {dateOfBirth : DateTime} (hsearch : data.Searchable)
    (hfree : (db.accounts.findFirst fun e => e.email = data.email || e.username = data.username) = none)
    (hhash : env.hash data.password AuthService.saltRounds = .ok password)
    (hdate : env.rt.parseDateTime data.dateOfBirth = some dateOfBirth) (hname : Storable data.shownName)
    (hraced : env.raced = false) :
    ∃ e : Account, e.id = env.rt.uuid ∧ e.email = data.email ∧ e.username = data.username ∧
      ((∃ x, db.accounts.create e = .error x ∧ AuthService.registerTx env db data = .error x) ∨
        ∃ db', db.accounts.create e = .ok db'.accounts ∧ AuthService.registerTx env db data = .ok (e, db') ∧
          Added db db' data e) := by
  unfold AuthService.registerTx
  rw [if_neg (not_not.mpr hsearch), hfree]
  simp only [hhash, hdate, hname, hraced, bind, Except.bind, not_true_eq_false, Bool.false_eq_true, if_false]
  split
  · rename_i x hc
    refine ⟨_, ?_, ?_, ?_, Or.inl ⟨x, hc, rfl⟩⟩ <;> rfl
  · rename_i accounts hc
    refine ⟨_, ?_, ?_, ?_, Or.inr ⟨_, hc, rfl, rfl, rfl, rfl, Accounts.create_rows hc, rfl⟩⟩ <;> rfl

/-- **The transaction of a registration** is refused, or adds the account. -/
theorem registerTx_cases (env : RegisterEnv) (db : Database) (data : RegisterDto) :
    Refused env db data ∧ (∃ x, AuthService.registerTx env db data = .error x) ∨
      ¬Refused env db data ∧ ∃ e db', AuthService.registerTx env db data = .ok (e, db') ∧ e.id = env.rt.uuid ∧
        db.accounts.create e = .ok db'.accounts ∧ Added db db' data e := by
  by_cases hsearch : ¬data.Searchable
  · exact Or.inl ⟨.lookup hsearch, _, if_pos hsearch⟩
  cases hf : db.accounts.findFirst fun e => e.email = data.email || e.username = data.username with
  | some e =>
    have hkey : e.email = data.email ∨ e.username = data.username := by simpa using List.find?_some hf
    refine Or.inl ⟨.taken (List.mem_of_find?_eq_some hf) hkey, ?_⟩
    unfold AuthService.registerTx
    rw [if_neg hsearch, hf]
    simp only
    split <;> exact ⟨_, rfl⟩
  | none =>
    cases hhash : env.hash data.password AuthService.saltRounds with
    | error x => exact Or.inl ⟨.hash hhash, x, by rw [AuthService.registerTx, if_neg hsearch, hf, hhash]; rfl⟩
    | ok password =>
      cases hdate : env.rt.parseDateTime data.dateOfBirth with
      | none =>
        exact Or.inl ⟨.date hdate, _, by rw [AuthService.registerTx, if_neg hsearch, hf, hhash, hdate]; rfl⟩
      | some dateOfBirth =>
        by_cases hname : ¬Storable data.shownName
        · refine Or.inl ⟨.name hname, .prismaUnknown, ?_⟩
          rw [AuthService.registerTx, if_neg hsearch, hf, hhash, hdate]
          exact if_pos hname
        cases hraced : env.raced with
        | true =>
          refine Or.inl ⟨.raced hraced, .prisma .uniqueConstraint, ?_⟩
          rw [AuthService.registerTx, if_neg hsearch, hf, hhash, hdate, hraced]
          exact if_neg hname
        | false =>
          obtain ⟨e, hid, hemail, husername, hcases⟩ := registerTx_insert (not_not.mp hsearch) hf hhash hdate
            (not_not.mp hname) hraced
          rcases hcases with ⟨x, hc, htx⟩ | ⟨db', hc, htx, hadded⟩
          · refine Or.inl ⟨?_, x, htx⟩
            rcases Accounts.create_taken hc with h | h | h
            · exact .id (hid ▸ h)
            · obtain ⟨e', he', hkey⟩ := List.mem_map.mp h
              exact .taken he' (Or.inl (hkey.trans hemail))
            · obtain ⟨e', he', hkey⟩ := List.mem_map.mp h
              exact .taken he' (Or.inr (hkey.trans husername))
          · refine Or.inr ⟨?_, e, db', htx, hid, hc, hadded⟩
            rintro (h | ⟨he', hkey⟩ | h | h | h | h | h)
            · exact hsearch h
            · exact findFirst_taken.mp hf _ he' hkey
            · cases hhash.symm.trans h
            · cases hdate.symm.trans h
            · exact hname h
            · cases hraced.symm.trans h
            · exact Accounts.create_free hc (hid ▸ h)

end Register

/-- A registration adds an account with its settings, or nothing. -/
theorem register_cases (env : RegisterEnv) (db : Database) (data : RegisterDto) :
    (AuthService.register env db data).2 = db ∨
      ∃ e accounts settings, e.status = .NOT_VERIFIED ∧ db.accounts.create e = .ok accounts ∧
        (AuthService.register env db data).2 = { db with accounts := accounts, settings := settings } := by
  unfold AuthService.register
  rcases registerTx_cases env db data with ⟨-, x, hx⟩ | ⟨-, e, db', h, -, hc, hadded⟩
  · rw [hx]
    exact Or.inl rfl
  · rw [h]
    exact Or.inr ⟨e, db'.accounts, _, hadded.status, hc, hadded.rest⟩

/-- A verification makes an account ACTIVE. -/
theorem verify_ok {now : DateTime} {db db' : Database} {a : String} (h : AuthService.verify now db a = .ok db') :
    ∃ accounts, db.accounts.updateStatus a .ACTIVE now = .ok accounts ∧ db' = { db with accounts := accounts } := by
  unfold AuthService.verify at h
  split at h
  · cases h
  · split at h
    · cases h
    · obtain ⟨accounts, hu, h⟩ := bind_eq_ok.mp h
      cases h
      exact ⟨accounts, hu, rfl⟩

end DiscordClone
