import DiscordClone.Api.Controllers
import DiscordClone.Gateway.Chat

/-!
# The backend

The server with both of its interfaces: requests come to the controllers with their tokens, sockets come with the token
of their handshake, and the gateway answers what they send. Every request and every event of a socket is handled to its
end before the next one begins.

`minted` records the tokens that have left the server, in an answer or in a mail; `Backend.Unforged` says that nobody
has another one. It is the only assumption about the clients.
-/

namespace DiscordClone

open ChatGateway

/-- What the backend works with. -/
structure BackendEnv extends TokenEnv where
  compareSync : String → String → Bool
  platform : Platform

/-- The same without the verifier and the platform. -/
def BackendEnv.server (env : BackendEnv) : ServerEnv := ⟨env.jwt.toJwtService, env.config.get, env.compareSync⟩

/-- What the world contributes to the handling of one request; `hash`, the signer and the mailer may fail. -/
structure Moment where
  rt : Runtime
  /-- The time in whole seconds. -/
  seconds : Nat
  checks : Checks
  /-- The choice of `findFirst` among the sessions. -/
  pick : Nat
  hash : Json → Nat → Option String
  raced : Bool
  signs : Bool
  mails : Mail → Bool
  findMany : List Account → List Account
  order : List DirectMessage → List DirectMessage

/-- The collaborators of a registration; an error of a library is no HTTP exception, like a `TypeError`. -/
def Moment.registration (m : Moment) (env : BackendEnv) : RegisterEnv where
  rt := m.rt
  hash password rounds := (m.hash password rounds).elim (.error .typeError) .ok
  raced := m.raced
  jwt := if m.signs then .ok env.jwt.toJwtService else .error .typeError
  config := env.config.get
  seconds := m.seconds
  sendMail mail := if m.mails mail then .ok () else .error .typeError

/-- A token that the server has signed: when, and with which payload. -/
structure Minted where
  iat : Nat
  type : EJwtType
  account : String
  deriving DecidableEq, Repr

def Minted.token (env : TokenEnv) (k : Minted) : String :=
  signToken env.jwt.toJwtService env.config.get k.iat k.type k.account

/-- The server, its rooms, what it has emitted, and the tokens that have left it. -/
structure Backend where
  server : Server
  rooms : Rooms
  emitted : List Emission
  minted : List Minted

/-- What a response carries. -/
inductive Payload where
  | nothing
  | tokens (accessToken refreshToken : String)
  | me (me : MeDto)
  | friends (users : List ConnectedUserDto)
  | friendRequests (requests : FriendRequestsDto)
  | blocked (users : List RelatedUserDto)
  | profile (user : ConnectedUserDto)
  | messages (messages : List DirectMessage)
  deriving DecidableEq, Repr

/-- A response: an error, or a status with what the handler returns. -/
abbrev Response := Except Failure (Nat × Payload)

/-- `@HttpCode`, or else 201 for a `POST` and 200 for the others. -/
def Endpoint.statusCode : Endpoint → Nat
  | .register | .sendFriendRequest _ | .blockUser _ => 201
  | .login | .refresh | .getMe | .getFriends _ | .getPendingFriendRequest _ | .getUserProfile _ | .getBlockedUsers _
  | .getDirectMessages _ => 200
  | .verify | .logout | .acceptFriendRequest _ | .ignoreFriendRequest _ | .cancelFriendRequest .. | .removeFriend ..
  | .unblockUser .. | .unpinDirectMessage .. => 204

/-- What a controller returns of an answer of the auth service. -/
def AuthResult.payload : AuthResult → Except Exception Payload
  | .login _ accessToken refreshToken | .refresh _ accessToken refreshToken => .ok (.tokens accessToken refreshToken)
  | .logout _ | .updateConnectionStatus _ => .ok .nothing
  | .failed e => .error e

/-- The tokens that an answer takes out of the server. -/
def AuthResult.minted (now : Nat) : AuthResult → List Minted
  | .login a _ _ | .refresh a _ _ => [⟨now, .ACCESS, a⟩, ⟨now, .REFRESH, a⟩]
  | _ => []

namespace Backend

/-- Nothing has happened yet. -/
def start : Backend := ⟨.start .empty, [], [], []⟩

/-- The backend with another database. -/
def withDb (s : Backend) (db : Database) : Backend := { s with server := { s.server with db := db } }

/-- The gateway's part of the backend. -/
def chat (s : Backend) : Chat := ⟨s.server.db, s.rooms, s.emitted⟩

/-- The backend after a handler of the gateway. -/
def withChat (s : Backend) (c : Chat) : Backend := { s.withDb c.db with rooms := c.rooms, emitted := c.emitted }

/-- A call of the auth service, from its first request to its answer. -/
def call (env : BackendEnv) (s : Backend) (now : Nat) (e : AuthEvent) (pick : Nat) (uuid : String) :
    Option (Except Exception Payload × Backend) :=
  let t := (AuthState.idle now s.server.db.sessions s.server.ids).alone
    (env.server.auth s.server.db.accounts) e pick uuid
  t.bind fun t => t.results.head?.map fun r =>
    (r.payload, { s with server := s.server.answered t, minted := r.minted now ++ s.minted })

/-- A transaction that answers nothing: the database after it, or the same one. -/
def transact {α : Type} (s : Backend) (write : α → Database) :
    Except (Transaction.Abort Exception) α → Except Exception Payload × Backend
  | .ok a => (.ok .nothing, s.withDb (write a))
  | .error e => (.error (.ofAbort e), s)

/-- The mail of a registration that has committed, when the signer signs. -/
def mailed (env : BackendEnv) (m : Moment) (s : Backend) (data : RegisterDto) : List Minted :=
  match AuthService.registerTx (m.registration env) s.server.db data with
  | .ok (account, _) => if m.signs then [⟨m.seconds, .VERIFY, account.id⟩] else []
  | .error _ => []

/-- A command of a controller; a login draws an id that no session has had. -/
def execute (env : BackendEnv) (m : Moment) (s : Backend) : Command → Option (Except Exception Payload × Backend)
  | .register data =>
    let r := AuthService.register (m.registration env) s.server.db data
    some (r.1.map fun _ => .nothing, { s.withDb r.2 with minted := s.mailed env m data ++ s.minted })
  | .verify sub =>
    match AuthService.verify m.rt.now s.server.db sub with
    | .ok db => some (.ok .nothing, s.withDb db)
    | .error e => some (.error e, s)
  | .login data => s.call env m.seconds (.login data) m.pick m.rt.uuid
  | .refresh data sub => s.call env m.seconds (.refresh data sub m.pick) m.pick ""
  | .logout sub => s.call env 0 (.logout sub m.pick) m.pick ""
  | .getMe sub => some ((UserService.getMe m.findMany s.server.db sub).map .me, s)
  | .getFriends sub => some ((UserService.getFriends s.server.db sub).map .friends, s)
  | .getPendingFriendRequest sub => some ((UserService.getPendingFriendRequest s.server.db sub).map .friendRequests, s)
  | .getBlockedUsers sub => some ((UserService.getBlockedUsers s.server.db sub).map .blocked, s)
  | .getUserProfile sub profileId => some ((UserService.getUserProfile s.server.db sub profileId).map .profile, s)
  | .relationship c =>
    some (s.transact (fun rel => { s.server.db with relationships := rel })
      (c.exec s.server.db.accounts s.server.db.relationships))
  | .getDirectMessages sub query =>
    some ((DirectMessageController.getDirectMessages m.order s.server.db sub query).map .messages, s)
  | .unpinDirectMessage sub targetId =>
    some (s.transact (fun r => { s.server.db with settings := r.2 })
      ((UserSettingsService.unpinDirectMessage s.server.db sub targetId).run s.server.db.settings))

/-- The texts of a command that the service compares with a column; a registration and a query see to theirs. -/
def queried (s : Backend) : Command → List String
  | .login data => [data.email]
  | .getUserProfile _ profileId => [profileId]
  | .relationship c => c.queried s.server.db.accounts
  | _ => []

/-- A command is carried out unless the database refuses to compare one of its texts; the services write nothing before
these look-ups. -/
def attempt (env : BackendEnv) (m : Moment) (s : Backend) (c : Command) : Option (Except Exception Payload × Backend) :=
  if ∀ text ∈ s.queried c, Storable text then s.execute env m c else some (.error .prismaUnknown, s)

/-- A request, from its guard to its response. -/
def respond (env : BackendEnv) (m : Moment) (s : Backend) (ep : Endpoint) (request : Request) :
    Option (Response × Backend) :=
  match ep.command env.toTokenEnv m.checks m.seconds request with
  | .error failure => some (.error failure, s)
  | .ok c => (s.attempt env m c).map fun r =>
    ((r.1.map fun payload => (ep.statusCode, payload)).mapError Exception.failure, r.2)

/-- A socket that the handshake has let in. -/
def handleConnection (env : BackendEnv) (m : Moment) (s : Backend) (client : SocketWithAuth) : Option Backend :=
  (s.server.handleConnection env.server client m.pick).map fun server =>
    { s with server := server, rooms := s.rooms.insert (client.id, client) }

/-- A socket that goes leaves its rooms. -/
def handleDisconnect (env : BackendEnv) (m : Moment) (s : Backend) (client : SocketWithAuth) : Option Backend :=
  (s.server.handleDisconnect env.server client m.pick).map fun server =>
    { s with server := server, rooms := s.rooms.filter (·.2 ≠ client) }

end Backend

/-- What a connected socket sends. -/
inductive SocketRequest where
  | join (targetId : Option Json)
  | leave (targetId : Option Json)
  | send (data : List (String × Json))

/-- A request, a handshake with the id of its socket, or what a connected socket does. -/
inductive BackendEvent where
  | request (ep : Endpoint) (request : Request)
  | connects (id : String) (handshake : Handshake)
  | disconnects (client : SocketWithAuth)
  | socket (client : SocketWithAuth) (r : SocketRequest)

/-- The gateway's answer to a socket. -/
def Chat.serve (platform : Platform) (rt : Runtime) (s : Chat) (client : SocketWithAuth) : SocketRequest → Chat
  | .join targetId => handleJoinDirectMessageRoom platform s client targetId
  | .leave targetId => handleLeaveDirectMessageRoom platform s client targetId
  | .send data => handleSendDirectMessage platform rt s client data

namespace Backend

/-- One event at a moment. Connected sockets have different ids. -/
def step (env : BackendEnv) (s : Backend) : Moment × BackendEvent → Option Backend
  | (m, .request ep request) => (s.respond env m ep request).map Prod.snd
  | (m, .connects id handshake) =>
    if s.server.sockets.any fun c => c.id = id then none
    else
      match SocketIOAdapter.createAuthMiddleware env.jwt env.config.get m.seconds handshake with
      | .error _ => some s
      | .ok user => s.handleConnection env m ⟨id, user.sub⟩
  | (m, .disconnects client) => if client ∈ s.server.sockets then s.handleDisconnect env m client else none
  | (m, .socket client r) =>
    if client ∈ s.server.sockets then some (s.withChat (s.chat.serve env.platform m.rt client r)) else none

end Backend

/-- The tokens that an event presents. -/
def BackendEvent.presents : BackendEvent → List (Option Json)
  | .request _ r => [JwtAtStrategy, JwtRtStrategy, JwtVtStrategy].map (·.jwtFromRequest.extract r)
  | .connects _ handshake => [handshake.token]
  | .disconnects _ | .socket .. => []

/-- A presented token that a public key of the server verifies has left the server before. -/
def Backend.Unforged (env : BackendEnv) (s : Backend) (l : Moment × BackendEvent) : Prop :=
  ∀ token ∈ l.2.presents, ∀ name ∈ ["JWT_AT_PUBLIC", "JWT_RT_PUBLIC", "JWT_VT_PUBLIC"],
    env.jwt.check token (env.config.get name) l.1.seconds ≠ none →
    ∃ k ∈ s.minted, token = some (.str (k.token env.toTokenEnv))

/-- An event whose tokens have all left the server. -/
theorem Backend.unforged_of_minted {env : BackendEnv} {s : Backend} {l : Moment × BackendEvent}
    (h : ∀ token ∈ l.2.presents, token = none ∨ ∃ k ∈ s.minted, token = some (.str (k.token env.toTokenEnv))) :
    s.Unforged env l := by
  intro token htoken name hname hcheck
  rcases h token htoken with rfl | hk
  · exact absurd rfl hcheck
  · exact hk

/-- A request without tokens. -/
theorem BackendEvent.presents_nothing {l : Moment × BackendEvent} (h : l.2.presents = [none, none, none]) :
    ∀ token ∈ l.2.presents, token = none := by
  simp [h]

theorem Backend.unforged_of_nothing {env : BackendEnv} {s : Backend} {l : Moment × BackendEvent}
    (h : l.2.presents = [none, none, none]) : s.Unforged env l :=
  unforged_of_minted fun token htoken => Or.inl (BackendEvent.presents_nothing h token htoken)

/-- A verification with a token that has left the server. -/
theorem Backend.unforged_of_verify {env : BackendEnv} {s : Backend} {l : Moment × BackendEvent} {k : Minted}
    (h : l.2.presents = [none, none, some (.str (k.token env.toTokenEnv))]) (hk : k ∈ s.minted) : s.Unforged env l := by
  refine unforged_of_minted fun token htoken => ?_
  simp only [h, List.mem_cons, List.not_mem_nil, or_false] at htoken
  rcases htoken with rfl | rfl | rfl
  · exact Or.inl rfl
  · exact Or.inl rfl
  · exact Or.inr ⟨k, hk, rfl⟩

end DiscordClone
