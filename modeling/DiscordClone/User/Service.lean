import DiscordClone.Exceptions
import DiscordClone.Schema

/-!
# The relationship operations

The operations of `user.service.ts` that change the relationships table, as transactions over it. Each of them is one
`prismaService.$transaction`; the checks the source makes before it opens one throw first. The accounts table is read by
all of them and written by none, so it is a parameter. An upsert is one statement: Prisma reads the row and then inserts
or updates it, and where the row comes or goes in between, the second statement is refused and the transaction rolled
back.
-/

namespace DiscordClone

open Transaction

/-- A transaction over the relationships table. -/
abbrev RelationshipTx := Tx (String × String) RelationshipStatus Exception

/-- `{ select: { id: true, relationship: { select: { status: true }, where } } }`. -/
structure SelectedAccount where
  id : String
  relationship : List RelationshipStatus
  deriving DecidableEq, Repr

/-- The select of an account with its relationship to `targetId`, of which the primary key allows at most one. -/
def selectWith (rel : Relationships) (targetId : String) (account : Account) : SelectedAccount :=
  ⟨account.id, (rel (account.id, targetId)).toList⟩

/-- `SendFriendRequestDto`. -/
structure SendFriendRequestDto where
  targetId : Option String := none
  targetUsername : Option String := none
  deriving DecidableEq, Repr

/-- The argument `'accept' | 'ignore'` of `feedbackFriendRequest`. -/
inductive Feedback where
  | accept | ignore
  deriving DecidableEq, Repr

/-- A string condition of a `where` that is spread only when it is truthy. -/
def truthy (s : Option String) : Option String := s.filter (· ≠ "")

namespace SendFriendRequestDto

/-- `...(data.targetId && { id }), ...(data.targetUsername && { username })`. -/
def condition (data : SendFriendRequestDto) (e : Account) : Bool :=
  (truthy data.targetId).all (e.id = ·) && (truthy data.targetUsername).all (e.username = ·)

end SendFriendRequestDto

namespace UserService

variable (accounts : Accounts)

def verifySelfInvoke (id1 id2 : String) : RelationshipTx Unit :=
  if id1 = id2 then .throw invalidSelfInvoke else pure ()

def verifyAccounts (accountId targetId : String) : RelationshipTx (SelectedAccount × SelectedAccount) := do
  let account ← Tx.select fun rel =>
    (accounts.findFirst fun e => e.id = accountId && e.status = .ACTIVE).map (selectWith rel targetId)
  match account with
  | none => .throw accountNotFound
  | some account =>
    let target ← Tx.select fun rel =>
      (accounts.findFirst fun e => e.id = targetId && e.status = .ACTIVE).map (selectWith rel accountId)
    match target with
    | none => .throw targetNotFound
    | some target => pure (account, target)

def deleteBothRelationship (accountId targetId : String) : RelationshipTx Unit := do
  Tx.delete (accountId, targetId)
  Tx.delete (targetId, accountId)

/-- The `switch` of `sendFriendRequest` on the target's row. -/
def requestTo (accountId targetId : String) (relationship : List RelationshipStatus) : RelationshipTx Unit :=
  match relationship with
  | [.FRIEND] =>
    .throw (.mk CustomErrorMessage.SEND_FRIEND_REQUEST__ALREADY_FRIEND HttpStatus.CONFLICT
      CustomErrorCode.SEND_FRIEND_REQUEST__ALREADY_FRIEND)
  | [.BLOCKED] =>
    .throw (.mk CustomErrorMessage.SEND_FRIEND_REQUEST__BLOCKED HttpStatus.CONFLICT
      CustomErrorCode.SEND_FRIEND_REQUEST__BLOCKED)
  | [.REQUESTING] => do
    Tx.update (targetId, accountId) fun _ => .FRIEND
    Tx.upsert (accountId, targetId) .FRIEND fun _ => .FRIEND
  | [.PENDING] => pure ()  -- no case of the switch
  | _ => do
    Tx.upsert (accountId, targetId) .REQUESTING fun _ => .REQUESTING
    Tx.create (targetId, accountId) .PENDING

def sendFriendRequest (accountId : String) (data : SendFriendRequestDto) : RelationshipTx Unit := do
  if truthy data.targetId = none ∧ truthy data.targetUsername = none then
    .throw (.mk CustomErrorMessage.COMMON__INVALID_DATA HttpStatus.BAD_REQUEST
      CustomErrorCode.SEND_FRIEND_REQUEST__NO_TARGET)
  else
  -- neither lookup asks for an ACTIVE account
  match accounts.findFirst fun e => e.id = accountId with
  | none => .throw accountNotFound
  | some account =>
    let target ← Tx.select fun rel => (accounts.findFirst data.condition).map (selectWith rel account.id)
    match target with
    | none => .throw targetNotFound
    | some target =>
      if account.id = target.id then .throw invalidSelfInvoke
      else requestTo account.id target.id target.relationship

def feedbackFriendRequest (type : Feedback) (accountId targetId : String) : RelationshipTx Unit := do
  verifySelfInvoke accountId targetId
  let (account, target) ← verifyAccounts accounts accountId targetId
  if account.relationship[0]? = some .PENDING ∧ target.relationship[0]? = some .REQUESTING then
    match type with
    | .accept => do
      Tx.update (account.id, target.id) fun _ => .FRIEND
      Tx.update (target.id, account.id) fun _ => .FRIEND
    | .ignore => deleteBothRelationship account.id target.id
  else
    .throw (.mk CustomErrorMessage.FRIEND_REQUEST_FEEDBACK__NO_REQUEST HttpStatus.CONFLICT
      CustomErrorCode.FRIEND_REQUEST_FEEDBACK__NO_REQUEST)

/-- The body that `cancelFriendRequest` and `removeFriend` share: delete both rows when they have the two statuses. -/
def deleteBothIf (own other : RelationshipStatus) (refusal : Exception) (accountId targetId : String) :
    RelationshipTx Unit := do
  verifySelfInvoke accountId targetId
  let (account, target) ← verifyAccounts accounts accountId targetId
  if account.relationship[0]? = some own ∧ target.relationship[0]? = some other then
    deleteBothRelationship account.id target.id
  else
    .throw refusal

def cancelFriendRequest (accountId targetId : String) : RelationshipTx Unit :=
  deleteBothIf accounts .REQUESTING .PENDING
    (.mk CustomErrorMessage.FRIEND_REQUEST_FEEDBACK__NO_REQUEST HttpStatus.CONFLICT
      CustomErrorCode.FRIEND_REQUEST_FEEDBACK__NO_REQUEST) accountId targetId

def removeFriend (accountId targetId : String) : RelationshipTx Unit :=
  deleteBothIf accounts .FRIEND .FRIEND
    (.mk CustomErrorMessage.REMOVE_FRIEND__NOT_FRIEND HttpStatus.CONFLICT CustomErrorCode.REMOVE_FRIEND__NOT_FRIEND)
    accountId targetId

def blockUser (accountId targetId : String) : RelationshipTx Unit := do
  verifySelfInvoke accountId targetId
  let (account, target) ← verifyAccounts accounts accountId targetId
  Tx.upsert (account.id, target.id) .BLOCKED fun _ => .BLOCKED
  match target.relationship[0]? with
  | some status => if status ≠ .BLOCKED then Tx.delete (target.id, account.id) else pure ()
  | none => pure ()

def unblockUser (accountId targetId : String) : RelationshipTx Unit := do
  verifySelfInvoke accountId targetId
  let (account, target) ← verifyAccounts accounts accountId targetId
  if account.relationship[0]? = some .BLOCKED then
    Tx.delete (account.id, target.id)
  else
    .throw (.mk CustomErrorMessage.UNBLOCK__NOT_BLOCKED HttpStatus.CONFLICT CustomErrorCode.UNBLOCK__NOT_BLOCKED)

end UserService

/-! ## Calls -/

/-- A call of one of the relationship operations. -/
inductive Call where
  | sendFriendRequest (accountId : String) (data : SendFriendRequestDto)
  | feedbackFriendRequest (type : Feedback) (accountId targetId : String)
  | cancelFriendRequest (accountId targetId : String)
  | removeFriend (accountId targetId : String)
  | blockUser (accountId targetId : String)
  | unblockUser (accountId targetId : String)
  deriving DecidableEq, Repr

namespace Call

/-- The account that makes the call. -/
def account : Call → String
  | .sendFriendRequest x _ | .feedbackFriendRequest _ x _ | .cancelFriendRequest x _ | .removeFriend x _
  | .blockUser x _ | .unblockUser x _ => x

/-- The account the call is about: a request finds it by its id, its username or both. -/
def target (accounts : Accounts) : Call → Option String
  | .sendFriendRequest _ data =>
    if truthy data.targetId = none ∧ truthy data.targetUsername = none then none
    else (accounts.findFirst data.condition).map Account.id
  | .feedbackFriendRequest _ _ y | .cancelFriendRequest _ y | .removeFriend _ y | .blockUser _ y
  | .unblockUser _ y => some y

/-- The texts of the call that its look-ups compare, if it comes to them. -/
def queried (accounts : Accounts) : Call → List String
  | .sendFriendRequest x data =>
    if accounts.Registered x then (truthy data.targetId).toList ++ (truthy data.targetUsername).toList else []
  | .feedbackFriendRequest _ x y | .cancelFriendRequest x y | .removeFriend x y | .blockUser x y | .unblockUser x y =>
    if x ≠ y ∧ accounts.Active x then [y] else []

/-- The transaction of the call. -/
def tx (accounts : Accounts) : Call → RelationshipTx Unit
  | .sendFriendRequest x data => UserService.sendFriendRequest accounts x data
  | .feedbackFriendRequest type x y => UserService.feedbackFriendRequest accounts type x y
  | .cancelFriendRequest x y => UserService.cancelFriendRequest accounts x y
  | .removeFriend x y => UserService.removeFriend accounts x y
  | .blockUser x y => UserService.blockUser accounts x y
  | .unblockUser x y => UserService.unblockUser accounts x y

/-- The call as one atomic transaction: the table it commits, or the reason for which it is rolled back. -/
def exec (accounts : Accounts) (c : Call) (rel : Relationships) : Except (Abort Exception) Relationships :=
  ((c.tx accounts).run rel).map Prod.snd

/-- The table after the call, which is the same table when the call fails. -/
def apply (accounts : Accounts) (rel : Relationships) (c : Call) : Relationships :=
  match c.exec accounts rel with
  | .ok rel' => rel'
  | .error _ => rel

/-- The call succeeds. -/
def succeeds (accounts : Accounts) (rel : Relationships) (c : Call) : Bool := (c.exec accounts rel).toBool

end Call

end DiscordClone
