import DiscordClone.Auth.Strategies
import DiscordClone.Dm.Window
import DiscordClone.Lib.Outcome
import DiscordClone.Server
import DiscordClone.User.Profile

/-!
# The HTTP interface

The controllers with what stands before and after them: the guard of an endpoint, the validation pipe of `main.ts` on
its body, `authenticateAccount`, and the filters that make a response of an exception. A request that passes all of them
is a `Command` for a service.

`isEmail` of class-validator and the dates of dayjs are parameters. The texts of the framework's own errors are left
out.

`meets_command`: a request comes to a command for the account whose token the guard has accepted, or to a response of
400, 401 or 403.
-/

set_option linter.style.nameCheck false

namespace DiscordClone

/-! ## The checks of a body -/

def AGE_RESTRICTION : Int := 13

def CustomErrorMessage.REGISTER__AGE_RESTRICTION_VIOLATED : String := "Age restriction violated"

/-- What the checks ask of the libraries, at the time of a request. -/
structure Checks where
  isEmail : String → Bool
  /-- `dayjs(value, 'YYYY-MM-DD', true).isValid()`. -/
  isValid : String → Bool
  /-- `dayjs().diff(dayjs(value, 'YYYY-MM-DD'), 'year')`, or `NaN`. -/
  diff : String → Option Int

def AgeRestrictConstraint.validate (checks : Checks) (value : String) : Bool :=
  (checks.diff value).any (AGE_RESTRICTION ≤ ·)

def DateConstraint.validate (checks : Checks) (value : String) : Bool := checks.isValid value

/-- `@IsNotEmpty`. -/
def filled (field : String) : Option Json → Except Exception Json
  | none | some .null | some (.str "") => .error (invalidField (field ++ " should not be empty"))
  | some v => .ok v

/-- `@IsNotEmpty` and then `@IsEmail`. -/
def filledEmail (checks : Checks) (field : String) (v : Option Json) : Except Exception String := do
  match ← filled field v with
  | .str s => if checks.isEmail s then .ok s else .error (invalidField (field ++ " must be an email"))
  | _ => .error (invalidField (field ++ " must be an email"))

/-- `@IsNotEmpty` and then `@IsBoolean`. -/
def filledBoolean (field : String) (v : Option Json) : Except Exception Bool := do
  match ← filled field v with
  | .bool b => .ok b
  | _ => .error (invalidField (field ++ " must be a boolean value"))

/-- `@IsOptional` and `@IsString`. -/
def optionalString (field : String) : Option Json → Except Exception (Option String)
  | none | some .null => .ok none
  | some (.str s) => .ok (some s)
  | some _ => .error (invalidField (field ++ " must be a string"))

def RegisterDto.validate (checks : Checks) (body : Json) : Except Exception RegisterDto := do
  let email ← filledEmail checks "email" (body.field "email")
  let password ← filled "password" (body.field "password")
  let username ← filledString "username" (body.field "username")
  let displayName ← optionalString "displayName" (body.field "displayName")
  let dateOfBirth ← filledString "dateOfBirth" (body.field "dateOfBirth")
  if !DateConstraint.validate checks dateOfBirth then
    .error (invalidField "Invalid date")
  else if !AgeRestrictConstraint.validate checks dateOfBirth then
    .error (invalidField CustomErrorMessage.REGISTER__AGE_RESTRICTION_VIOLATED)
  else
    -- no service reads `emailSubscribe`
    let _ ← filledBoolean "emailSubscribe" (body.field "emailSubscribe")
    pure { email, password, username, displayName, dateOfBirth }

def LoginDto.validate (checks : Checks) (body : Json) : Except Exception LoginDto := do
  let email ← filledEmail checks "email" (body.field "email")
  let password ← filledString "password" (body.field "password")
  pure { email, password }

def RefreshDto.validate (body : Json) : Except Exception RefreshDto := do
  let refreshToken ← filledString "refreshToken" (body.field "refreshToken")
  pure { refreshToken }

/-- The `verifyToken` of `VerifyDto`. -/
def VerifyDto.validate (body : Json) : Except Exception String := filledString "verifyToken" (body.field "verifyToken")

def SendFriendRequestDto.validate (body : Json) : Except Exception SendFriendRequestDto := do
  let targetId ← optionalString "targetId" (body.field "targetId")
  let targetUsername ← optionalString "targetUsername" (body.field "targetUsername")
  pure { targetId, targetUsername }

/-- `AcceptFriendRequestDto`, `IgnoreFriendRequestDto` and `BlockDto`: their `targetId`. -/
def targetDto (body : Json) : Except Exception String := filledString "targetId" (body.field "targetId")

def AcceptFriendRequestDto.validate (body : Json) : Except Exception String := targetDto body

def IgnoreFriendRequestDto.validate (body : Json) : Except Exception String := targetDto body

def BlockDto.validate (body : Json) : Except Exception String := targetDto body

/-! ## Responses -/

/-- An error response; the errors of the framework have no `customCode`. -/
structure Failure where
  statusCode : Nat
  customCode : Option Nat := none
  message : Option String := none
  deriving DecidableEq, Repr

/-- `CustomExceptionFilter` for the exceptions of the repository, and the filter of the framework for the others. -/
def Exception.failure : Exception → Failure
  | .custom e => ⟨e.status, some e.customCode, some e.message⟩
  | .forbidden => { statusCode := HttpStatus.FORBIDDEN }
  | .notFound => { statusCode := HttpStatus.NOT_FOUND }
  | .typeError | .prisma _ | .prismaValidation | .prismaUnknown => { statusCode := 500 }

/-- The response of a guard that refuses. -/
def Refusal.failure : Refusal → Failure
  | .unauthorized => { statusCode := 401 }
  | .forbidden message => { statusCode := HttpStatus.FORBIDDEN, message := some message }

/-! ## Commands -/

/-- A call of a service by a controller; `sub` is `req.user.sub`. -/
inductive Command where
  | register (data : RegisterDto)
  | verify (sub : String)
  | login (data : LoginDto)
  | refresh (data : RefreshDto) (sub : String)
  | logout (sub : String)
  | getMe (sub : String)
  | getFriends (sub : String)
  | getPendingFriendRequest (sub : String)
  | getBlockedUsers (sub : String)
  | getUserProfile (sub profileId : String)
  | relationship (c : Call)
  | getDirectMessages (sub : String) (query : QueryFields)
  | unpinDirectMessage (sub targetId : String)

namespace Command

/-- The account for which the command is carried out, if it needs one. -/
def user : Command → Option String
  | .register _ | .login _ => none
  | .verify sub | .refresh _ sub | .logout sub | .getMe sub | .getFriends sub | .getPendingFriendRequest sub
  | .getBlockedUsers sub | .getUserProfile sub _ | .getDirectMessages sub _ | .unpinDirectMessage sub _ => some sub
  | .relationship c => some c.account

/-- The strategy of its guard. -/
def strategy : Command → JwtStrategy
  | .verify _ => JwtVtStrategy
  | .refresh .. => JwtRtStrategy
  | _ => JwtAtStrategy

end Command

namespace AuthController

def register (checks : Checks) (body : Json) : Except Exception Command := do
  let body ← RegisterDto.validate checks body
  pure (.register body)

def verify (sub : String) (body : Json) : Except Exception Command := do
  let _ ← VerifyDto.validate body
  pure (.verify sub)

def login (checks : Checks) (body : Json) : Except Exception Command := do
  let body ← LoginDto.validate checks body
  pure (.login body)

def refresh (sub : String) (body : Json) : Except Exception Command := do
  let body ← RefreshDto.validate body
  pure (.refresh body sub)

def logout (sub : String) : Except Exception Command := pure (.logout sub)

end AuthController

/-- `authenticateAccount` of the two controllers that have it. -/
def authenticateAccount (id accountId : String) : Except Exception Unit :=
  if id ≠ accountId then .error .forbidden else pure ()

namespace UserController

def getMe (sub : String) : Except Exception Command := pure (.getMe sub)

/-- An endpoint without a body that is for its own account only. -/
def own (command : String → Command) (sub accountId : String) : Except Exception Command := do
  authenticateAccount sub accountId
  pure (command accountId)

def getFriends : String → String → Except Exception Command := own .getFriends

def getPendingFriendRequest : String → String → Except Exception Command := own .getPendingFriendRequest

def getBlockedUsers : String → String → Except Exception Command := own .getBlockedUsers

def sendFriendRequest (sub accountId : String) (body : Json) : Except Exception Command := do
  let body ← SendFriendRequestDto.validate body
  authenticateAccount sub accountId
  pure (.relationship (.sendFriendRequest accountId body))

def acceptFriendRequest (sub accountId : String) (body : Json) : Except Exception Command := do
  let targetId ← AcceptFriendRequestDto.validate body
  authenticateAccount sub accountId
  pure (.relationship (.feedbackFriendRequest .accept accountId targetId))

def ignoreFriendRequest (sub accountId : String) (body : Json) : Except Exception Command := do
  let targetId ← IgnoreFriendRequestDto.validate body
  authenticateAccount sub accountId
  pure (.relationship (.feedbackFriendRequest .ignore accountId targetId))

def cancelFriendRequest (sub accountId targetId : String) : Except Exception Command := do
  authenticateAccount sub accountId
  pure (.relationship (.cancelFriendRequest accountId targetId))

def removeFriend (sub accountId targetId : String) : Except Exception Command := do
  authenticateAccount sub accountId
  pure (.relationship (.removeFriend accountId targetId))

/-- Anybody who is logged in may ask for a profile. -/
def getUserProfile (sub profileId : String) : Except Exception Command := pure (.getUserProfile sub profileId)

def blockUser (sub accountId : String) (body : Json) : Except Exception Command := do
  let targetId ← BlockDto.validate body
  authenticateAccount sub accountId
  pure (.relationship (.blockUser accountId targetId))

def unblockUser (sub accountId targetId : String) : Except Exception Command := do
  authenticateAccount sub accountId
  pure (.relationship (.unblockUser accountId targetId))

end UserController

def UserSettingsController.unpinDirectMessage (sub targetId accountId : String) : Except Exception Command := do
  authenticateAccount sub accountId
  pure (.unpinDirectMessage accountId targetId)

/-! ## Endpoints -/

/-- The endpoints, with the parameters of their paths and the query string. -/
inductive Endpoint where
  | register
  | verify
  | login
  | refresh
  | logout
  | getMe
  | getFriends (id : String)
  | sendFriendRequest (id : String)
  | getPendingFriendRequest (id : String)
  | acceptFriendRequest (id : String)
  | ignoreFriendRequest (id : String)
  | cancelFriendRequest (id target : String)
  | removeFriend (id target : String)
  | getUserProfile (id : String)
  | getBlockedUsers (id : String)
  | blockUser (id : String)
  | unblockUser (id target : String)
  | getDirectMessages (query : QueryFields)
  | unpinDirectMessage (id target : String)

/-- The tokens' library and the configuration. -/
structure TokenEnv where
  jwt : JwtLibrary
  config : Environment

/-- `@UseGuards`: the handler is given the account of the token. -/
def JwtStrategy.guard (strategy : JwtStrategy) (env : TokenEnv) (now : Nat) (request : Request)
    (handler : String → Except Exception Command) : Except Failure Command :=
  match strategy.authenticate env.jwt env.config.get now request with
  | .error refusal => .error refusal.failure
  | .ok user => (handler user.sub).mapError Exception.failure

/-- From a request to the call of a service, or to the response of the guard, the pipe or the controller. -/
def Endpoint.command (env : TokenEnv) (checks : Checks) (now : Nat) (request : Request) :
    Endpoint → Except Failure Command
  | .register => (AuthController.register checks request.body).mapError Exception.failure
  | .verify => JwtVtStrategy.guard env now request (AuthController.verify · request.body)
  | .login => (AuthController.login checks request.body).mapError Exception.failure
  | .refresh => JwtRtStrategy.guard env now request (AuthController.refresh · request.body)
  | .logout => JwtAtStrategy.guard env now request AuthController.logout
  | .getMe => JwtAtStrategy.guard env now request UserController.getMe
  | .getFriends id => JwtAtStrategy.guard env now request (UserController.getFriends · id)
  | .sendFriendRequest id => JwtAtStrategy.guard env now request (UserController.sendFriendRequest · id request.body)
  | .getPendingFriendRequest id => JwtAtStrategy.guard env now request (UserController.getPendingFriendRequest · id)
  | .acceptFriendRequest id =>
    JwtAtStrategy.guard env now request (UserController.acceptFriendRequest · id request.body)
  | .ignoreFriendRequest id =>
    JwtAtStrategy.guard env now request (UserController.ignoreFriendRequest · id request.body)
  | .cancelFriendRequest id target =>
    JwtAtStrategy.guard env now request (UserController.cancelFriendRequest · id target)
  | .removeFriend id target => JwtAtStrategy.guard env now request (UserController.removeFriend · id target)
  | .getUserProfile id => JwtAtStrategy.guard env now request (UserController.getUserProfile · id)
  | .getBlockedUsers id => JwtAtStrategy.guard env now request (UserController.getBlockedUsers · id)
  | .blockUser id => JwtAtStrategy.guard env now request (UserController.blockUser · id request.body)
  | .unblockUser id target => JwtAtStrategy.guard env now request (UserController.unblockUser · id target)
  | .getDirectMessages query => JwtAtStrategy.guard env now request fun sub => pure (.getDirectMessages sub query)
  | .unpinDirectMessage id target =>
    JwtAtStrategy.guard env now request (UserSettingsController.unpinDirectMessage · target id)

/-! ## For whom a command is carried out -/

section Commands

open Outcome

variable {checks : Checks} {body : Json} {sub id targetId field : String} {v : Option Json}

/-- What the pipe and `authenticateAccount` throw. -/
def Rejected (e : Exception) : Prop := (∃ text, e = invalidField text) ∨ e = .forbidden

/-- The response to a request that reaches no service. -/
def Turned (f : Failure) : Prop :=
  f.statusCode = HttpStatus.BAD_REQUEST ∧ f.customCode = some CustomErrorCode.COMMON__INVALID_DATA_FIELD ∨
    (f.statusCode = 401 ∨ f.statusCode = HttpStatus.FORBIDDEN) ∧ f.customCode = none

theorem rejected_invalidField (text : String) : Rejected (invalidField text) := Or.inl ⟨text, rfl⟩

theorem Rejected.turned {e : Exception} (h : Rejected e) : Turned e.failure := by
  rcases h with ⟨text, rfl⟩ | rfl
  · exact Or.inl ⟨rfl, rfl⟩
  · exact Or.inr ⟨Or.inr rfl, rfl⟩

theorem Refusal.turned (r : Refusal) : Turned r.failure := by
  cases r with
  | unauthorized => exact Or.inr ⟨Or.inl rfl, rfl⟩
  | forbidden message => exact Or.inr ⟨Or.inr rfl, rfl⟩

/-! ### The checks -/

theorem meets_filled : Meets (fun _ => True) Rejected (filled field v) := by
  unfold filled
  split
  · exact rejected_invalidField _
  · exact rejected_invalidField _
  · exact rejected_invalidField _
  · trivial

theorem meets_filledString : Meets (fun _ => True) Rejected (filledString field v) := by
  unfold filledString
  split
  · exact rejected_invalidField _
  · exact rejected_invalidField _
  · exact .ite (fun _ => rejected_invalidField _) fun _ => trivial
  · exact rejected_invalidField _

theorem meets_filledEmail : Meets (fun _ => True) Rejected (filledEmail checks field v) := by
  refine meets_filled.bind fun w _ => ?_
  split
  · exact .ite (fun _ => trivial) fun _ => rejected_invalidField _
  · exact rejected_invalidField _

theorem meets_filledBoolean : Meets (fun _ => True) Rejected (filledBoolean field v) := by
  refine meets_filled.bind fun w _ => ?_
  split
  · trivial
  · exact rejected_invalidField _

theorem meets_optionalString : Meets (fun _ => True) Rejected (optionalString field v) := by
  unfold optionalString
  split
  · trivial
  · trivial
  · trivial
  · exact rejected_invalidField _

theorem RegisterDto.meets_validate : Meets (fun _ => True) Rejected (RegisterDto.validate checks body) := by
  refine meets_filledEmail.bind fun email _ => meets_filled.bind fun password _ => ?_
  refine meets_filledString.bind fun username _ => meets_optionalString.bind fun displayName _ => ?_
  refine meets_filledString.bind fun dateOfBirth _ => .ite (fun _ => rejected_invalidField _) fun _ => ?_
  exact .ite (fun _ => rejected_invalidField _) fun _ => meets_filledBoolean.bind fun _ _ => trivial

theorem LoginDto.meets_validate : Meets (fun _ => True) Rejected (LoginDto.validate checks body) :=
  meets_filledEmail.bind fun _ _ => meets_filledString.bind fun _ _ => trivial

theorem RefreshDto.meets_validate : Meets (fun _ => True) Rejected (RefreshDto.validate body) :=
  meets_filledString.bind fun _ _ => trivial

theorem SendFriendRequestDto.meets_validate : Meets (fun _ => True) Rejected (SendFriendRequestDto.validate body) :=
  meets_optionalString.bind fun _ _ => meets_optionalString.bind fun _ _ => trivial

theorem meets_authenticateAccount : Meets (fun _ => sub = id) Rejected (authenticateAccount sub id) :=
  .ite (fun _ => Or.inr rfl) fun h => not_not.mp h

/-! ### The controllers -/

/-- The body of the request has passed the checks of the command, if it has a body. -/
def Command.Reads (checks : Checks) (body : Json) : Command → Prop
  | .register data => RegisterDto.validate checks body = .ok data
  | .login data => LoginDto.validate checks body = .ok data
  | .refresh data _ => RefreshDto.validate body = .ok data
  | _ => True

/-- The command is carried out for this account, behind this guard. -/
def Command.IsFor (checks : Checks) (body : Json) (strategy : JwtStrategy) (sub : String) (c : Command) : Prop :=
  c.Reads checks body ∧ c.user = some sub ∧ c.strategy = strategy

theorem AuthController.meets_verify :
    Meets (Command.IsFor checks body JwtVtStrategy sub) Rejected (AuthController.verify sub body) :=
  meets_filledString.bind fun _ _ => ⟨trivial, rfl, rfl⟩

theorem AuthController.meets_refresh :
    Meets (Command.IsFor checks body JwtRtStrategy sub) Rejected (AuthController.refresh sub body) :=
  RefreshDto.meets_validate.self.bind fun _ h => ⟨h, rfl, rfl⟩

/-- A handler that calls its service at once. -/
theorem meets_direct {c : Command} (h : c.IsFor checks body JwtAtStrategy sub) :
    Meets (Command.IsFor checks body JwtAtStrategy sub) Rejected (pure c) := h

/-- A handler that calls `authenticateAccount` and then its service. -/
theorem meets_own {c : Command} (h : c.IsFor checks body JwtAtStrategy id) :
    Meets (Command.IsFor checks body JwtAtStrategy sub) Rejected (do
      authenticateAccount sub id
      pure c) :=
  meets_authenticateAccount.bind fun _ hid => hid ▸ h

/-- A handler whose body is checked before. -/
theorem meets_checked {α : Type} {dto : Except Exception α} {c : α → Command}
    (hdto : Meets (fun _ => True) Rejected dto) (h : ∀ a, (c a).IsFor checks body JwtAtStrategy id) :
    Meets (Command.IsFor checks body JwtAtStrategy sub) Rejected (do
      let a ← dto
      authenticateAccount sub id
      pure (c a)) :=
  hdto.bind fun a _ => meets_own (h a)

/-! ### The endpoints -/

variable {env : TokenEnv} {now : Nat} {request : Request}

/-- The body of the request has passed the checks, and the guard of the command has accepted a token of its account. -/
def Command.Authorized (env : TokenEnv) (checks : Checks) (now : Nat) (request : Request) (c : Command) : Prop :=
  c.Reads checks request.body ∧
    ∀ sub, c.user = some sub →
      ∃ user, c.strategy.authenticate env.jwt env.config.get now request = .ok user ∧ user.sub = sub

theorem meets_guard {strategy : JwtStrategy} {handler : String → Except Exception Command}
    (h : ∀ sub, Meets (Command.IsFor checks request.body strategy sub) Rejected (handler sub)) :
    Meets (Command.Authorized env checks now request) Turned (strategy.guard env now request handler) := by
  unfold JwtStrategy.guard
  split
  · exact Refusal.turned _
  · rename_i user huser
    refine Meets.mapError ((h user.sub).mono (fun c hc => ?_) fun e he => he.turned)
    obtain ⟨hreads, hsub, rfl⟩ := hc
    refine ⟨hreads, fun sub h => ⟨user, huser, ?_⟩⟩
    exact Option.some.inj (hsub.symm.trans h)

/-- An endpoint without a guard. -/
theorem meets_open {α : Type} {dto : Except Exception α} {c : α → Command} (hdto : Meets (fun _ => True) Rejected dto)
    (h : ∀ a, dto = .ok a → (c a).Authorized env checks now request) :
    Meets (Command.Authorized env checks now request) Turned ((do
      let a ← dto
      pure (c a)).mapError Exception.failure) :=
  Meets.mapError ((hdto.self.mono (fun _ ha => ha) fun _ he => he.turned).bind h)

/-- **What a request comes to**: a command that it is authorized for, or a response of 400, 401 or 403. -/
theorem meets_command (ep : Endpoint) : Meets (Command.Authorized env checks now request) Turned
    (ep.command env checks now request) := by
  cases ep with
  | register => exact meets_open RegisterDto.meets_validate fun data h => ⟨h, fun sub hsub => by cases hsub⟩
  | login => exact meets_open LoginDto.meets_validate fun data h => ⟨h, fun sub hsub => by cases hsub⟩
  | verify => exact meets_guard fun _ => AuthController.meets_verify
  | refresh => exact meets_guard fun _ => AuthController.meets_refresh
  | logout => exact meets_guard fun sub => meets_direct (c := .logout sub) ⟨trivial, rfl, rfl⟩
  | getMe => exact meets_guard fun sub => meets_direct (c := .getMe sub) ⟨trivial, rfl, rfl⟩
  | getUserProfile id => exact meets_guard fun sub => meets_direct (c := .getUserProfile sub id) ⟨trivial, rfl, rfl⟩
  | getDirectMessages q => exact meets_guard fun sub => meets_direct (c := .getDirectMessages sub q) ⟨trivial, rfl, rfl⟩
  | getFriends id => exact meets_guard fun _ => meets_own (c := .getFriends id) ⟨trivial, rfl, rfl⟩
  | getPendingFriendRequest id =>
    exact meets_guard fun _ => meets_own (c := .getPendingFriendRequest id) ⟨trivial, rfl, rfl⟩
  | getBlockedUsers id => exact meets_guard fun _ => meets_own (c := .getBlockedUsers id) ⟨trivial, rfl, rfl⟩
  | sendFriendRequest id =>
    exact meets_guard fun _ => meets_checked (c := fun body => .relationship (.sendFriendRequest id body))
      SendFriendRequestDto.meets_validate fun _ => ⟨trivial, rfl, rfl⟩
  | acceptFriendRequest id =>
    exact meets_guard fun _ => meets_checked (c := fun t => .relationship (.feedbackFriendRequest .accept id t))
      meets_filledString fun _ => ⟨trivial, rfl, rfl⟩
  | ignoreFriendRequest id =>
    exact meets_guard fun _ => meets_checked (c := fun t => .relationship (.feedbackFriendRequest .ignore id t))
      meets_filledString fun _ => ⟨trivial, rfl, rfl⟩
  | blockUser id =>
    exact meets_guard fun _ => meets_checked (c := fun t => .relationship (.blockUser id t)) meets_filledString
      fun _ => ⟨trivial, rfl, rfl⟩
  | cancelFriendRequest id t =>
    exact meets_guard fun _ => meets_own (c := .relationship (.cancelFriendRequest id t)) ⟨trivial, rfl, rfl⟩
  | removeFriend id t =>
    exact meets_guard fun _ => meets_own (c := .relationship (.removeFriend id t)) ⟨trivial, rfl, rfl⟩
  | unblockUser id t =>
    exact meets_guard fun _ => meets_own (c := .relationship (.unblockUser id t)) ⟨trivial, rfl, rfl⟩
  | unpinDirectMessage id t => exact meets_guard fun _ => meets_own (c := .unpinDirectMessage id t) ⟨trivial, rfl, rfl⟩

end Commands

end DiscordClone
