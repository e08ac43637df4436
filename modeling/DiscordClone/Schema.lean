import Mathlib.Data.List.Nodup
import DiscordClone.Lib.Transaction
import DiscordClone.Lib.Json

/-!
# The data model

`prisma/schema.prisma`. Rows are records, and a table is what its keys make of it.

- `Accounts` is the accounts table without its `settings` column: the rows, with the unique constraints on `id`, `email`
  and `username` as fields.
- `Relationships` is keyed by `(accountId, targetId)`, its primary key, and holds the status of the row. The time stamps
  of these rows decide nothing and are left out, also where a list shows one.
- The `settings` column of the accounts, sessions and direct messages stand beside them in `Database`.
-/

namespace DiscordClone

/-- An instant, in milliseconds of the epoch. -/
abbrev DateTime := Int

/-- A text that a column can hold or be compared with: PostgreSQL refuses the character NUL. -/
def Storable (text : String) : Prop := Char.ofNat 0 ∉ text.toList

instance (text : String) : Decidable (Storable text) := inferInstanceAs (Decidable (_ ∉ _))

/-- What the database client supplies: a fresh `uuid()`, `now()`, and the reading of a date string. -/
structure Runtime where
  uuid : String
  now : DateTime
  parseDateTime : String → Option DateTime

inductive AccountStatus where
  | NOT_VERIFIED | ACTIVE | DISABLED
  deriving DecidableEq, Repr

inductive RelationshipStatus where
  | PENDING | REQUESTING | FRIEND | BLOCKED
  deriving DecidableEq, Repr, Inhabited

inductive ConnectionStatus where
  | ONLINE | OFFLINE
  deriving DecidableEq, Repr

inductive MessageTypes where
  | TEXT | IMAGE
  deriving DecidableEq, Repr

/-- A row of the accounts table, the `settings` column apart. -/
structure Account where
  id : String
  email : String
  password : String
  username : String
  dateOfBirth : DateTime
  phoneNumber : Option String := none
  status : AccountStatus := .NOT_VERIFIED
  displayName : String
  pronouns : Option String := none
  avatar : Option String := none
  bannerColor : String
  about : Option String := none
  createdAt : DateTime
  updatedAt : DateTime
  deriving DecidableEq, Repr

/-- The accounts table with its unique constraints. -/
structure Accounts where
  rows : List Account
  id_nodup : (rows.map Account.id).Nodup
  email_nodup : (rows.map Account.email).Nodup
  username_nodup : (rows.map Account.username).Nodup

/-- A row of the sessions table; `account_id` carries no unique constraint. -/
structure Session where
  id : String
  accountId : String
  refreshToken : String
  connectionStatus : ConnectionStatus := .OFFLINE
  deriving DecidableEq, Repr

/-- A row of the direct messages table. -/
structure DirectMessage where
  id : String
  senderId : String
  targetId : String
  content : String
  type : MessageTypes := .TEXT
  createdAt : DateTime
  updatedAt : DateTime
  deriving DecidableEq, Repr

/-- The relationships table: the status of the row `(accountId, targetId)`. -/
abbrev Relationships := Transaction.Table (String × String) RelationshipStatus

/-- The `settings` column of the accounts table, by `id`. -/
abbrev Settings := Transaction.Table String Json

structure Database where
  accounts : Accounts
  settings : Settings
  sessions : List Session
  relationships : Relationships
  directMessages : List DirectMessage

namespace Accounts

/-- `accounts.findFirst` with a condition. -/
def findFirst (accounts : Accounts) (p : Account → Bool) : Option Account := accounts.rows.find? p

/-- The empty table. -/
def empty : Accounts := ⟨[], List.nodup_nil, List.nodup_nil, List.nodup_nil⟩

/-- Some account has this id. -/
def Registered (accounts : Accounts) (id : String) : Prop := ∃ e ∈ accounts.rows, e.id = id

/-- The account with this id is ACTIVE. -/
def Active (accounts : Accounts) (id : String) : Prop := ∃ e ∈ accounts.rows, e.id = id ∧ e.status = .ACTIVE

instance (accounts : Accounts) (id : String) : Decidable (accounts.Registered id) :=
  inferInstanceAs (Decidable (∃ e ∈ accounts.rows, e.id = id))

instance (accounts : Accounts) (id : String) : Decidable (accounts.Active id) :=
  inferInstanceAs (Decidable (∃ e ∈ accounts.rows, e.id = id ∧ e.status = .ACTIVE))

theorem Active.registered {accounts : Accounts} {id : String} (h : accounts.Active id) : accounts.Registered id := by
  obtain ⟨e, he, hid, _⟩ := h
  exact ⟨e, he, hid⟩

end Accounts

end DiscordClone
