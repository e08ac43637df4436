import DiscordClone.Lib.Transaction

/-!
# Error codes, messages and exceptions

`shared/constants/error.ts` and `src/exceptions`: the codes and the texts that the modelled operations use, under the
source's names, and the exceptions they are thrown in.
-/

set_option linter.style.nameCheck false

namespace DiscordClone

namespace HttpStatus

def BAD_REQUEST : Nat := 400
def FORBIDDEN : Nat := 403
def NOT_FOUND : Nat := 404
def CONFLICT : Nat := 409

end HttpStatus

namespace CustomErrorCode

def COMMON__INVALID_DATA_FIELD : Nat := 40000
def COMMON__INVALID_SELF_INVOKE : Nat := 40001
def SEND_FRIEND_REQUEST__NO_TARGET : Nat := 40002
def LOGIN__ACCOUNT_NOT_VERIFIED : Nat := 40300
def SEND_DM__BLOCKED : Nat := 40301
def COMMON__ACCOUNT_NOT_FOUND : Nat := 40400
def COMMON__TARGET_NOT_FOUND : Nat := 40401
def REFRESH__SESSION_NOT_FOUND : Nat := 40402
def REGISTER__EMAIL_EXISTS : Nat := 40900
def REGISTER__USERNAME_EXISTS : Nat := 40901
def VERIFY__INVALID_STATUS : Nat := 40902
def SEND_FRIEND_REQUEST__ALREADY_FRIEND : Nat := 40903
def SEND_FRIEND_REQUEST__BLOCKED : Nat := 40904
def FRIEND_REQUEST_FEEDBACK__NO_REQUEST : Nat := 40905
def REMOVE_FRIEND__NOT_FRIEND : Nat := 40906
def UNBLOCK__NOT_BLOCKED : Nat := 40907
def PIN_DM__ALREADY_PINNED : Nat := 40908

end CustomErrorCode

namespace CustomErrorMessage

def COMMON__ACCOUNT_NOT_FOUND : String := "Account not found"
def COMMON__TARGET_NOT_FOUND : String := "Target not found"
def COMMON__INVALID_DATA : String := "Invalid data"
def COMMON__INVALID_SELF_INVOKE : String := "Invalid self invoke"
def LOGIN__ACCOUNT_NOT_VERIFIED : String := "Account not verified"
def REGISTER__EMAIL_EXISTS : String := "Email already exists"
def REGISTER__USERNAME_EXISTS : String := "Username already exists"
def VERIFY__INVALID_STATUS : String := "Invalid account status"
def REFRESH__SESSION_NOT_FOUND : String := "Session not found"
def SEND_FRIEND_REQUEST__ALREADY_FRIEND : String := "Already friend"
def SEND_FRIEND_REQUEST__BLOCKED : String := "Blocked"
def FRIEND_REQUEST_FEEDBACK__NO_REQUEST : String := "No request found"
def REMOVE_FRIEND__NOT_FRIEND : String := "Not friend with this user"
def UNBLOCK__NOT_BLOCKED : String := "This user is not blocked"
def PIN_DM__ALREADY_PINNED : String := "This user is already pinned"
def SEND_DM__BLOCKED : String := "This user blocked you"

end CustomErrorMessage

/-- `CustomException(message, status, customCode)`. -/
structure CustomException where
  message : String
  status : Nat
  customCode : Nat
  deriving DecidableEq, Repr

/-- What an operation throws: its own exception, one of the framework's, a `TypeError`, or one of the database client's;
`prismaUnknown` is an error of the database for which the client has no code. -/
inductive Exception where
  | custom (e : CustomException)
  | forbidden
  | notFound
  | typeError
  | prisma (v : Transaction.Violation)
  | prismaValidation
  | prismaUnknown
  deriving DecidableEq, Repr

/-- `throw new CustomException(message, status, customCode)`. -/
def Exception.mk (message : String) (status customCode : Nat) : Exception := .custom ⟨message, status, customCode⟩

def accountNotFound : Exception :=
  .mk CustomErrorMessage.COMMON__ACCOUNT_NOT_FOUND HttpStatus.NOT_FOUND CustomErrorCode.COMMON__ACCOUNT_NOT_FOUND

def targetNotFound : Exception :=
  .mk CustomErrorMessage.COMMON__TARGET_NOT_FOUND HttpStatus.NOT_FOUND CustomErrorCode.COMMON__TARGET_NOT_FOUND

def invalidSelfInvoke : Exception :=
  .mk CustomErrorMessage.COMMON__INVALID_SELF_INVOKE HttpStatus.BAD_REQUEST CustomErrorCode.COMMON__INVALID_SELF_INVOKE

/-- The error of a transaction that is rolled back. -/
def Exception.ofAbort : Transaction.Abort Exception → Exception
  | .thrown e => e
  | .violation v => .prisma v

/-- A computation that does not throw has passed through its first part. -/
theorem bind_eq_ok {ε α β : Type} {x : Except ε α} {f : α → Except ε β} {b : β} :
    (x >>= f) = .ok b ↔ ∃ a, x = .ok a ∧ f a = .ok b := by
  cases x <;> simp [bind, Except.bind]

end DiscordClone
