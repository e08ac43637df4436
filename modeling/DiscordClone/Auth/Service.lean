import DiscordClone.Auth.Token
import DiscordClone.Exceptions
import DiscordClone.Schema

/-!
# Logging in and out

`login`, `refresh`, `logout` and `updateConnectionStatus` of `auth.service.ts`, cut where they wait for the database.
Each request of a call to the database is one step; what the call still has to do with the answer is an `AuthCall`. None
of them looks at a session and writes it in one statement.

- `findFirst` may answer with any row that meets its condition (`pick`).
- `uuid()` draws an id that no session has had before.
- `calls` lists the calls in the order in which they were made; the place of a call that has ended is `none`.
- `accepted` records every refresh token that `refresh` has found, and `results` what the calls have answered, newest
  first.
-/

namespace DiscordClone

structure LoginDto where
  email : String
  password : String
  deriving DecidableEq, Repr

structure RefreshDto where
  refreshToken : String
  deriving DecidableEq, Repr

/-- What the service works with: the accounts, the signer, the configuration and `bcrypt.compareSync`. -/
structure AuthEnv where
  accounts : Accounts
  jwt : JwtService
  config : ConfigService
  compareSync : String → String → Bool

/-- A call that waits for the database, by the request it makes next. -/
inductive AuthCall where
  | loginFind (accountId accessToken refreshToken : String)
  | loginUpdate (sessionId accountId accessToken refreshToken : String)
  | loginCreate (accountId accessToken refreshToken : String)
  | refreshUpdate (sessionId accountId presented accessToken refreshToken : String)
  | logoutDelete (sessionId accountId : String)
  | statusUpdate (sessionId accountId : String) (status : ConnectionStatus)
  deriving DecidableEq, Repr

/-- What a call has answered. -/
inductive AuthResult where
  | login (accountId accessToken refreshToken : String)
  | refresh (accountId accessToken refreshToken : String)
  | logout (accountId : String)
  | updateConnectionStatus (accountId : String)
  | failed (e : Exception)
  deriving DecidableEq, Repr

structure AuthState where
  now : Nat
  sessions : List Session
  ids : List String
  calls : List (Option AuthCall)
  accepted : List (String × String)
  results : List AuthResult

/-- No session and no call. -/
def AuthState.init (now : Nat) : AuthState := ⟨now, [], [], [], [], []⟩

/-- A call begins, a waiting call proceeds, or a second passes. -/
inductive AuthEvent where
  | tick
  | login (data : LoginDto)
  | refresh (data : RefreshDto) (accountId : String) (pick : Nat)
  | logout (accountId : String) (pick : Nat)
  | updateConnectionStatus (accountId : String) (status : ConnectionStatus) (pick : Nat)
  | resume (call : Nat) (pick : Nat) (uuid : String)
  deriving DecidableEq, Repr

namespace Session

/-- `sessions.findFirst({ where })`. -/
def findFirst (sessions : List Session) (p : Session → Bool) (pick : Nat) : Option Session :=
  (sessions.filter p)[pick % (sessions.filter p).length]?

/-- `sessions.update({ where: { id }, data })`. -/
def update (sessions : List Session) (id : String) (f : Session → Session) : Except Exception (List Session) :=
  if sessions.any fun x => x.id = id then .ok (sessions.map fun x => if x.id = id then f x else x)
  else .error (.prisma .recordNotFound)

/-- `sessions.delete({ where: { id } })`. -/
def delete (sessions : List Session) (id : String) : Except Exception (List Session) :=
  if sessions.any fun x => x.id = id then .ok (sessions.filter fun x => x.id ≠ id)
  else .error (.prisma .recordNotFound)

end Session

namespace AuthState

/-- A call that has been made waits for the database. -/
def wait (s : AuthState) (c : AuthCall) : AuthState := { s with calls := s.calls ++ [some c] }

/-- A call that has been made ends at once. -/
def answer (s : AuthState) (r : AuthResult) : AuthState :=
  { s with calls := s.calls ++ [none], results := r :: s.results }

/-- A waiting call goes on to its next request. -/
def goOn (s : AuthState) (i : Nat) (c : AuthCall) : AuthState := { s with calls := s.calls.set i (some c) }

/-- A waiting call ends. -/
def finish (s : AuthState) (i : Nat) (r : AuthResult) : AuthState :=
  { s with calls := s.calls.set i none, results := r :: s.results }

/-- A waiting call ends with a write to the sessions, or with the refusal of the write. -/
def finishWrite (s : AuthState) (i : Nat) (r : AuthResult) : Except Exception (List Session) → AuthState
  | .ok sessions => { s.finish i r with sessions := sessions }
  | .error e => s.finish i (.failed e)

end AuthState

namespace AuthService

variable (env : AuthEnv)

/-- `login` up to its look at the sessions. -/
def login (s : AuthState) (data : LoginDto) : AuthState :=
  match env.accounts.findFirst fun e => e.email = data.email with
  | none => s.answer (.failed accountNotFound)
  | some account =>
    if account.status ≠ .ACTIVE then
      s.answer (.failed (.mk CustomErrorMessage.LOGIN__ACCOUNT_NOT_VERIFIED HttpStatus.FORBIDDEN
        CustomErrorCode.LOGIN__ACCOUNT_NOT_VERIFIED))
    else if !env.compareSync data.password account.password then
      s.answer (.failed .forbidden)
    else
      s.wait (.loginFind account.id (signToken env.jwt env.config s.now .ACCESS account.id)
        (signToken env.jwt env.config s.now .REFRESH account.id))

/-- `refresh` up to its update of the session. -/
def refresh (s : AuthState) (data : RefreshDto) (accountId : String) (pick : Nat) : AuthState :=
  match Session.findFirst s.sessions (fun x => x.accountId = accountId && x.refreshToken = data.refreshToken) pick with
  | none =>
    s.answer (.failed (.mk CustomErrorMessage.REFRESH__SESSION_NOT_FOUND HttpStatus.NOT_FOUND
      CustomErrorCode.REFRESH__SESSION_NOT_FOUND))
  | some session =>
    { s with accepted := (session.accountId, data.refreshToken) :: s.accepted }.wait
      (.refreshUpdate session.id session.accountId data.refreshToken
        (signToken env.jwt env.config s.now .ACCESS session.accountId)
        (signToken env.jwt env.config s.now .REFRESH session.accountId))

/-- `logout` up to its delete of the session. -/
def logout (s : AuthState) (accountId : String) (pick : Nat) : AuthState :=
  match Session.findFirst s.sessions (fun x => x.accountId = accountId) pick with
  | none => s.answer (.logout accountId)
  | some session => s.wait (.logoutDelete session.id accountId)

/-- `updateConnectionStatus` up to its update of the session. -/
def updateConnectionStatus (s : AuthState) (accountId : String) (status : ConnectionStatus) (pick : Nat) : AuthState :=
  match Session.findFirst s.sessions (fun x => x.accountId = accountId) pick with
  | none => s.answer (.updateConnectionStatus accountId)
  | some session => s.wait (.statusUpdate session.id accountId status)

/-- The next request of a waiting call, and what the call does with the answer. -/
def resume (s : AuthState) (i pick : Nat) (uuid : String) : AuthCall → Option AuthState
  | .loginFind a accessToken refreshToken =>
    match Session.findFirst s.sessions (fun x => x.accountId = a) pick with
    | some session => some (s.goOn i (.loginUpdate session.id a accessToken refreshToken))
    | none => some (s.goOn i (.loginCreate a accessToken refreshToken))
  | .loginUpdate id a accessToken refreshToken =>
    some (s.finishWrite i (.login a accessToken refreshToken)
      (Session.update s.sessions id fun x => { x with refreshToken := refreshToken }))
  | .loginCreate a accessToken refreshToken =>
    if uuid ∈ s.ids then none
    else
      some
        { s.finish i (.login a accessToken refreshToken) with
          sessions := s.sessions ++ [{ id := uuid, accountId := a, refreshToken := refreshToken }]
          ids := uuid :: s.ids }
  | .refreshUpdate id a _ accessToken refreshToken =>
    some (s.finishWrite i (.refresh a accessToken refreshToken)
      (Session.update s.sessions id fun x => { x with refreshToken := refreshToken }))
  | .logoutDelete id a => some (s.finishWrite i (.logout a) (Session.delete s.sessions id))
  | .statusUpdate id a status =>
    some (s.finishWrite i (.updateConnectionStatus a)
      (Session.update s.sessions id fun x => { x with connectionStatus := status }))

end AuthService

/-- One step of the service. -/
def authStep (env : AuthEnv) (s : AuthState) : AuthEvent → Option AuthState
  | .tick => some { s with now := s.now + 1 }
  | .login data => some (AuthService.login env s data)
  | .refresh data accountId pick => some (AuthService.refresh env s data accountId pick)
  | .logout accountId pick => some (AuthService.logout s accountId pick)
  | .updateConnectionStatus accountId status pick => some (AuthService.updateConnectionStatus s accountId status pick)
  | .resume i pick uuid => (s.calls[i]?.join).bind (AuthService.resume s i pick uuid)

end DiscordClone
