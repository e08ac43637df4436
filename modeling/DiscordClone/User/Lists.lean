import DiscordClone.Exceptions
import DiscordClone.Schema

/-!
# The relationship lists

`getFriends`, `getPendingFriendRequest` and `getBlockedUsers` of `user.service.ts`. They read the same rows from
different sides: friends and blocked users are selected by the account's own row, requests by the other side's row, and
`inRelationshipWith` is always the own row. The rows of a result come in the order of the table, and instants are not
printed.

Each list is a selection of the accounts (`friendIds_eq`, `blockedIds_eq`, `incomingIds_eq`, `outgoingIds_eq`), so that
it repeats nobody (`select_nodup`). `mem_friendIds`, `mem_incomingIds`, `mem_outgoingIds` and `mem_blockedIds` say which
rows put an account on it.
-/

namespace DiscordClone

/-- `IUserDto`. -/
structure UserDto where
  id : String
  email : String
  username : String
  displayName : String
  dateOfBirth : DateTime
  phoneNumber : Option String
  avatar : Option String
  pronouns : Option String
  bannerColor : String
  about : Option String
  createdAt : DateTime
  updatedAt : DateTime
  deriving DecidableEq, Repr

/-- `IRelationshipDto`, without its `updatedAt`. -/
structure RelationshipDto where
  userId : String
  targetId : String
  status : RelationshipStatus
  deriving DecidableEq, Repr

/-- `IUserDto & WithRelationship`. -/
structure RelatedUserDto extends UserDto where
  inRelationshipWith : Option RelationshipDto
  deriving DecidableEq, Repr

/-- `IUserDto & WithRelationship & WithConnectionStatus`. -/
structure ConnectedUserDto extends RelatedUserDto where
  connectionStatus : ConnectionStatus
  deriving DecidableEq, Repr

/-- `IGetFriendRequestsResult`. -/
structure FriendRequestsDto where
  incomingRequests : List RelatedUserDto
  outgoingRequests : List RelatedUserDto
  deriving DecidableEq, Repr

def Account.toUserDto (e : Account) : UserDto where
  id := e.id
  email := e.email
  username := e.username
  displayName := e.displayName
  dateOfBirth := e.dateOfBirth
  phoneNumber := e.phoneNumber
  avatar := e.avatar
  pronouns := e.pronouns
  bannerColor := e.bannerColor
  about := e.about
  createdAt := e.createdAt
  updatedAt := e.updatedAt

/-- The rows `relationshipWith` of an account that belong to `accountId`. -/
def relationshipWith (rel : Relationships) (accountId : String) (e : Account) : List RelationshipDto :=
  (rel (accountId, e.id)).toList.map fun status => ⟨accountId, e.id, status⟩

/-- An account as a list of `accountId` shows it. -/
def toRelatedUser (rel : Relationships) (accountId : String) (e : Account) : RelatedUserDto where
  toUserDto := e.toUserDto
  inRelationshipWith :=
    match relationshipWith rel accountId e with
    | [r] => some r
    | _ => none

/-- The status of the first session that is not OFFLINE. -/
def connectionStatus (sessions : List Session) (e : Account) : ConnectionStatus :=
  match sessions.filter fun s => s.accountId = e.id && s.connectionStatus ≠ .OFFLINE with
  | s :: _ => s.connectionStatus
  | [] => .OFFLINE

namespace UserService

def getFriends (db : Database) (accountId : String) : Except Exception (List ConnectedUserDto) :=
  match db.accounts.findFirst fun e => e.id = accountId with
  | none => .error accountNotFound
  | some account =>
    let users := db.accounts.rows.filter fun e =>
      e.status = .ACTIVE && db.relationships (account.id, e.id) = some .FRIEND
    .ok <| users.map fun e =>
      { toRelatedUserDto := toRelatedUser db.relationships account.id e
        connectionStatus := connectionStatus db.sessions e }

def getPendingFriendRequest (db : Database) (accountId : String) : Except Exception FriendRequestsDto :=
  match db.accounts.findFirst fun e => e.id = accountId with
  | none => .error accountNotFound
  | some account =>
    -- no condition on the status of the other account
    let incoming := db.accounts.rows.filter fun e => db.relationships (e.id, account.id) = some .REQUESTING
    let outgoing := db.accounts.rows.filter fun e => db.relationships (e.id, account.id) = some .PENDING
    .ok
      { incomingRequests := incoming.map (toRelatedUser db.relationships account.id)
        outgoingRequests := outgoing.map (toRelatedUser db.relationships account.id) }

def getBlockedUsers (db : Database) (accountId : String) : Except Exception (List RelatedUserDto) :=
  match db.accounts.findFirst fun e => e.id = accountId with
  | none => .error accountNotFound
  | some account =>
    let users := db.accounts.rows.filter fun e =>
      e.status = .ACTIVE && db.relationships (account.id, e.id) = some .BLOCKED
    .ok <| users.map (toRelatedUser db.relationships account.id)

end UserService

/-! ## Who is on a list -/

/-- The ids on a list that was asked for; a request that throws lists nobody. -/
def idsOf {α : Type} (id : α → String) : Except Exception (List α) → List String
  | .ok users => users.map id
  | .error _ => []

def friendIds (db : Database) (a : String) : List String := idsOf (·.id) (UserService.getFriends db a)

def incomingIds (db : Database) (a : String) : List String :=
  idsOf (·.id) ((UserService.getPendingFriendRequest db a).map FriendRequestsDto.incomingRequests)

def outgoingIds (db : Database) (a : String) : List String :=
  idsOf (·.id) ((UserService.getPendingFriendRequest db a).map FriendRequestsDto.outgoingRequests)

def blockedIds (db : Database) (a : String) : List String := idsOf (·.id) (UserService.getBlockedUsers db a)

section Members

variable {db : Database} {a b : String}

/-- The account that asks for a list is looked up by its id. -/
theorem findFirst_self (h : db.accounts.Registered a) :
    ∃ e, (db.accounts.findFirst fun e => decide (e.id = a)) = some e ∧ e.id = a := by
  cases hf : db.accounts.findFirst fun e => decide (e.id = a) with
  | none =>
    obtain ⟨e, he, hid⟩ := h
    have := List.find?_eq_none.mp hf e he
    simp [hid] at this
  | some e => exact ⟨e, rfl, by simpa using List.find?_some hf⟩

/-- The ids of the accounts that meet a condition. -/
def Accounts.select (accounts : Accounts) (p : Account → Bool) : List String := (accounts.rows.filter p).map Account.id

/-- A selection repeats nobody. -/
theorem select_nodup (accounts : Accounts) (p : Account → Bool) : (accounts.select p).Nodup :=
  accounts.id_nodup.sublist (List.filter_sublist.map _)

theorem friendIds_eq (h : db.accounts.Registered a) :
    friendIds db a = db.accounts.select fun e => e.status = .ACTIVE && db.relationships (a, e.id) = some .FRIEND := by
  obtain ⟨e, he, rfl⟩ := findFirst_self h
  simp only [friendIds, UserService.getFriends, he, idsOf, List.map_map]
  rfl

theorem blockedIds_eq (h : db.accounts.Registered a) :
    blockedIds db a = db.accounts.select fun e => e.status = .ACTIVE && db.relationships (a, e.id) = some .BLOCKED := by
  obtain ⟨e, he, rfl⟩ := findFirst_self h
  simp only [blockedIds, UserService.getBlockedUsers, he, idsOf, List.map_map]
  rfl

theorem incomingIds_eq (h : db.accounts.Registered a) :
    incomingIds db a = db.accounts.select fun e => db.relationships (e.id, a) = some .REQUESTING := by
  obtain ⟨e, he, rfl⟩ := findFirst_self h
  simp only [incomingIds, UserService.getPendingFriendRequest, he, Except.map, idsOf, List.map_map]
  rfl

theorem outgoingIds_eq (h : db.accounts.Registered a) :
    outgoingIds db a = db.accounts.select fun e => db.relationships (e.id, a) = some .PENDING := by
  obtain ⟨e, he, rfl⟩ := findFirst_self h
  simp only [outgoingIds, UserService.getPendingFriendRequest, he, Except.map, idsOf, List.map_map]
  rfl

/-- A selection of the ACTIVE accounts by the row of `a`. -/
theorem mem_select_own {s : RelationshipStatus} :
    b ∈ db.accounts.select (fun e => e.status = .ACTIVE && db.relationships (a, e.id) = some s) ↔
      db.accounts.Active b ∧ db.relationships (a, b) = some s := by
  simp only [Accounts.select, List.mem_map, List.mem_filter, Bool.and_eq_true, decide_eq_true_eq]
  constructor
  · rintro ⟨x, ⟨hx, hs, hr⟩, rfl⟩
    exact ⟨⟨x, hx, rfl, hs⟩, hr⟩
  · rintro ⟨⟨x, hx, rfl, hs⟩, hr⟩
    exact ⟨x, ⟨hx, hs, hr⟩, rfl⟩

/-- A selection of all accounts by the row on their side. -/
theorem mem_select_other {s : RelationshipStatus} :
    b ∈ db.accounts.select (fun e => db.relationships (e.id, a) = some s) ↔
      db.accounts.Registered b ∧ db.relationships (b, a) = some s := by
  simp only [Accounts.select, List.mem_map, List.mem_filter, decide_eq_true_eq]
  constructor
  · rintro ⟨x, ⟨hx, hr⟩, rfl⟩
    exact ⟨⟨x, hx, rfl⟩, hr⟩
  · rintro ⟨⟨x, hx, rfl⟩, hr⟩
    exact ⟨x, ⟨hx, hr⟩, rfl⟩

theorem mem_friendIds (h : db.accounts.Registered a) :
    b ∈ friendIds db a ↔ db.accounts.Active b ∧ db.relationships (a, b) = some .FRIEND := by
  rw [friendIds_eq h, mem_select_own]

theorem mem_blockedIds (h : db.accounts.Registered a) :
    b ∈ blockedIds db a ↔ db.accounts.Active b ∧ db.relationships (a, b) = some .BLOCKED := by
  rw [blockedIds_eq h, mem_select_own]

theorem mem_incomingIds (h : db.accounts.Registered a) :
    b ∈ incomingIds db a ↔ db.accounts.Registered b ∧ db.relationships (b, a) = some .REQUESTING := by
  rw [incomingIds_eq h, mem_select_other]

theorem mem_outgoingIds (h : db.accounts.Registered a) :
    b ∈ outgoingIds db a ↔ db.accounts.Registered b ∧ db.relationships (b, a) = some .PENDING := by
  rw [outgoingIds_eq h, mem_select_other]

end Members

end DiscordClone
