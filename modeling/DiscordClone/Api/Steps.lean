import DiscordClone.Api.Backend
import DiscordClone.Auth.Answers
import DiscordClone.Auth.Atomicity

/-!
# What an event does to the backend

`Backend.Change` lists what can become of the backend in one step, with what had to be shown for it: a body that passes
the checks, a token that a guard accepts, or a connected socket. `step_change` says that there is nothing else, and
everything about the runs of the backend is read off it.

`commands_minted` and `handshake_minted` say what an accepted token shows when nobody forges one.
-/

namespace DiscordClone

open Outcome

/-- The guard accepts a token of this account. -/
def JwtStrategy.Admits (strategy : JwtStrategy) (env : BackendEnv) (m : Moment) (request : Request)
    (a : String) : Prop :=
  ∃ user, strategy.authenticate env.jwt env.config.get m.seconds request = .ok user ∧ user.sub = a

/-- The request passes the guard, the pipe and the controller, and comes to this command. -/
def Commands (env : BackendEnv) (m : Moment) (ep : Endpoint) (request : Request) (c : Command) : Prop :=
  ep.command env.toTokenEnv m.checks m.seconds request = .ok c

namespace Backend

/-- The backend after a call of the auth service with one answer. -/
def after (s : Backend) (t : AuthState) (minted : List Minted) : Backend :=
  { s with server := s.server.answered t, minted := minted ++ s.minted }

/-- The tokens of a login or a refresh. -/
def pair (now : Nat) (a : String) : List Minted := [⟨now, .ACCESS, a⟩, ⟨now, .REFRESH, a⟩]

/-- The token of a registration, when the signer signs. -/
def verifyToken (m : Moment) (id : String) : List Minted := if m.signs then [⟨m.seconds, .VERIFY, id⟩] else []

/-- A call of the auth service runs alone. -/
def Calls (env : BackendEnv) (s : Backend) (now : Nat) (e : AuthEvent) (pick : Nat) (uuid : String) (t : AuthState) :
    Prop :=
  (AuthState.idle now s.server.db.sessions s.server.ids).alone (env.server.auth s.server.db.accounts) e pick uuid =
    some t

/-- What can become of the backend in a step. -/
inductive Change (env : BackendEnv) (s : Backend) : Moment × BackendEvent → Backend → Prop
  | nothing (l : Moment × BackendEvent) : Change env s l s
  | registers {m : Moment} {ep : Endpoint} {request : Request} {data : RegisterDto} {e : Account} {db : Database}
    (hcommand : Commands env m ep request (.register data))
    (hcommits : ¬Refused (m.registration env) s.server.db data) (hid : e.id = m.rt.uuid)
    (hadded : Added s.server.db db data e) :
    Change env s (m, .request ep request) { s.withDb db with minted := verifyToken m e.id ++ s.minted }
  | verifies {m : Moment} {ep : Endpoint} {request : Request} {a : String} {accounts : Accounts}
    (hcommand : Commands env m ep request (.verify a))
    (hupdate : s.server.db.accounts.updateStatus a .ACTIVE m.rt.now = .ok accounts) :
    Change env s (m, .request ep request) (s.withDb { s.server.db with accounts := accounts })
  | logsIn {m : Moment} {ep : Endpoint} {request : Request} {data : LoginDto} {e : Account} {t : AuthState}
    (hcommand : Commands env m ep request (.login data))
    (haccepts : (env.server.auth s.server.db.accounts).Accepts data e)
    (hcall : s.Calls env m.seconds (.login data) m.pick m.rt.uuid t)
    (hresults : t.results = [.login e.id (Minted.token env.toTokenEnv ⟨m.seconds, .ACCESS, e.id⟩)
      (Minted.token env.toTokenEnv ⟨m.seconds, .REFRESH, e.id⟩)]) :
    Change env s (m, .request ep request) (s.after t (pair m.seconds e.id))
  | refreshes {m : Moment} {ep : Endpoint} {request : Request} {data : RefreshDto} {a : String} {t : AuthState}
    (hcommand : Commands env m ep request (.refresh data a))
    (hsession : ∃ x ∈ s.server.db.sessions, x.accountId = a ∧ x.refreshToken = data.refreshToken)
    (hcall : s.Calls env m.seconds (.refresh data a m.pick) m.pick "" t)
    (hresults : t.results = [.refresh a (Minted.token env.toTokenEnv ⟨m.seconds, .ACCESS, a⟩)
      (Minted.token env.toTokenEnv ⟨m.seconds, .REFRESH, a⟩)]) :
    Change env s (m, .request ep request) (s.after t (pair m.seconds a))
  | logsOut {m : Moment} {ep : Endpoint} {request : Request} {a : String} {t : AuthState}
    (hcommand : Commands env m ep request (.logout a)) (hcall : s.Calls env 0 (.logout a m.pick) m.pick "" t) :
    Change env s (m, .request ep request) (s.after t [])
  | relates {m : Moment} {ep : Endpoint} {request : Request} {c : Call} {rel : Relationships}
    (hcommand : Commands env m ep request (.relationship c))
    (hexec : c.exec s.server.db.accounts s.server.db.relationships = .ok rel) :
    Change env s (m, .request ep request) (s.withDb { s.server.db with relationships := rel })
  | unpins {m : Moment} {ep : Endpoint} {request : Request} {a targetId : String} {settings : Settings}
    (hcommand : Commands env m ep request (.unpinDirectMessage a targetId))
    (hrun : (UserSettingsService.unpinDirectMessage s.server.db a targetId).run s.server.db.settings =
      .ok ((), settings)) :
    Change env s (m, .request ep request) (s.withDb { s.server.db with settings := settings })
  | connects {m : Moment} {id : String} {handshake : Handshake} {user : IJwtPayload} {server : Server}
    (hid : ∀ c ∈ s.server.sockets, c.id ≠ id)
    (htoken : SocketIOAdapter.createAuthMiddleware env.jwt env.config.get m.seconds handshake = .ok user)
    (hserver : s.server.handleConnection env.server ⟨id, user.sub⟩ m.pick = some server) :
    Change env s (m, .connects id handshake)
      { s with server := server, rooms := s.rooms.insert (id, ⟨id, user.sub⟩) }
  | disconnects {m : Moment} {client : SocketWithAuth} {server : Server} (hclient : client ∈ s.server.sockets)
    (hserver : s.server.handleDisconnect env.server client m.pick = some server) :
    Change env s (m, .disconnects client)
      { s with server := server, rooms := s.rooms.filter (·.2 ≠ client) }
  | serves {m : Moment} {client : SocketWithAuth} {r : SocketRequest} (hclient : client ∈ s.server.sockets) :
    Change env s (m, .socket client r) (s.withChat (s.chat.serve env.platform m.rt client r))

variable {env : BackendEnv} {m : Moment} {s s' : Backend} {ep : Endpoint} {request : Request}

/-- A call of the auth service, taken apart. -/
theorem call_cases {now pick : Nat} {e : AuthEvent} {uuid : String} {r : Except Exception Payload × Backend}
    (h : s.call env now e pick uuid = some r) : ∃ t x, s.Calls env now e pick uuid t ∧ t.results.head? = some x ∧
      r = (x.payload, s.after t (x.minted now)) := by
  obtain ⟨t, ht, h⟩ := Option.bind_eq_some_iff.mp h
  obtain ⟨x, hx, rfl⟩ := Option.map_eq_some_iff.mp h
  exact ⟨t, x, ht, hx, rfl⟩

/-- A call that leaves the sessions and answers no token leaves the backend. -/
theorem after_same {t : AuthState} (hsessions : t.sessions = s.server.db.sessions) (hids : t.ids = s.server.ids)
    {x : Exception} (hresults : t.results = [.failed x]) : s.after t [] = s := by
  have hissued : t.issued = [] := by simp [AuthState.issued, hresults]
  simp only [after, Server.answered, hsessions, hids, hissued]
  rfl

/-- A registration that is refused leaves the backend. -/
theorem mailed_refused {data : RegisterDto} (h : Refused (m.registration env) s.server.db data) :
    ∃ x, AuthService.register (m.registration env) s.server.db data = (.error x, s.server.db) ∧
      s.mailed env m data = [] := by
  rcases registerTx_cases (m.registration env) s.server.db data with ⟨-, x, hx⟩ | ⟨hno, -⟩
  · exact ⟨x, by rw [AuthService.register, hx], by rw [mailed, hx]⟩
  · exact absurd h hno

/-- A registration that commits. -/
theorem mailed_committed {data : RegisterDto} (h : ¬Refused (m.registration env) s.server.db data) :
    ∃ e db, (AuthService.register (m.registration env) s.server.db data).2 = db ∧ e.id = m.rt.uuid ∧
      Added s.server.db db data e ∧ s.mailed env m data = verifyToken m e.id := by
  rcases registerTx_cases (m.registration env) s.server.db data with ⟨hr, -⟩ | ⟨-, e, db, htx, hid, -, hadded⟩
  · exact absurd hr h
  · exact ⟨e, db, by rw [AuthService.register, htx], hid, hadded, by rw [mailed, htx, verifyToken]⟩

/-- **What a command does**, when a request comes to it. -/
theorem execute_change {c : Command} {r : Except Exception Payload × Backend} (hc : Commands env m ep request c)
    (h : s.execute env m c = some r) : s.Change env (m, .request ep request) r.2 := by
  cases c with
  | register data =>
    cases h
    by_cases hr : Refused (m.registration env) s.server.db data
    · obtain ⟨x, hreg, hmailed⟩ := mailed_refused hr
      simp only [hreg, hmailed]
      exact .nothing _
    · obtain ⟨e, db, hreg, hid, hadded, hmailed⟩ := mailed_committed hr
      simp only [hreg, hmailed]
      exact .registers hc hr hid hadded
  | login data =>
    obtain ⟨t, x, hcall, hx, rfl⟩ := call_cases h
    rcases login_answer hcall with ⟨-, hsessions, hids, y, -, hresults⟩ | ⟨e, hacc, hresults⟩
    · rw [hresults] at hx
      cases hx
      simp only [AuthResult.minted, after_same hsessions hids hresults]
      exact .nothing _
    · rw [hresults] at hx
      cases hx
      exact .logsIn hc hacc hcall hresults
  | verify a =>
    simp only [execute] at h
    split at h
    · rename_i db hv
      cases h
      obtain ⟨accounts, hu, rfl⟩ := verify_ok hv
      exact .verifies hc hu
    · cases h
      exact .nothing _
  | refresh data a =>
    obtain ⟨t, x, hcall, hx, rfl⟩ := call_cases h
    rcases refresh_answer hcall with ⟨hsessions, hids, y, -, hresults⟩ | ⟨hsession, hresults⟩
    · rw [hresults] at hx
      cases hx
      simp only [AuthResult.minted, after_same hsessions hids hresults]
      exact .nothing _
    · rw [hresults] at hx
      cases hx
      exact .refreshes hc hsession hcall hresults
  | logout a =>
    obtain ⟨t, x, hcall, hx, rfl⟩ := call_cases h
    rw [logout_answer hcall] at hx
    cases hx
    exact .logsOut hc hcall
  | relationship c =>
    cases h
    cases hexec : c.exec s.server.db.accounts s.server.db.relationships with
    | error e => exact .nothing _
    | ok rel => exact .relates hc hexec
  | unpinDirectMessage a targetId =>
    cases h
    cases hrun : (UserSettingsService.unpinDirectMessage s.server.db a targetId).run s.server.db.settings with
    | error e => exact .nothing _
    | ok p => exact .unpins hc hrun
  | _ =>
    cases h
    exact .nothing _

/-- A command is carried out, or it changes nothing. -/
theorem attempt_cases {c : Command} {r : Except Exception Payload × Backend} (h : s.attempt env m c = some r) :
    (∀ text ∈ s.queried c, Storable text) ∧ s.execute env m c = some r ∨
      (∃ text ∈ s.queried c, ¬Storable text) ∧ r = (.error .prismaUnknown, s) := by
  unfold attempt at h
  split at h
  · rename_i hall
    exact Or.inl ⟨hall, h⟩
  · rename_i hno
    simp only [not_forall] at hno
    obtain ⟨text, htext, hs⟩ := hno
    cases h
    exact Or.inr ⟨⟨text, htext, hs⟩, rfl⟩

/-- A command that compares no text is carried out. -/
theorem attempt_of_nil {c : Command} (h : s.queried c = []) : s.attempt env m c = s.execute env m c :=
  if_pos fun text htext => by rw [h] at htext; cases htext

/-- **Everything that a step can do.** -/
theorem step_change {l : Moment × BackendEvent} (h : s.step env l = some s') : s.Change env l s' := by
  obtain ⟨m, event⟩ := l
  cases event with
  | request ep request =>
    obtain ⟨r, hr, rfl⟩ := Option.map_eq_some_iff.mp h
    unfold respond at hr
    split at hr
    · cases hr
      exact .nothing _
    · rename_i c hc
      obtain ⟨r', hr', rfl⟩ := Option.map_eq_some_iff.mp hr
      rcases attempt_cases hr' with ⟨-, hexec⟩ | ⟨-, rfl⟩
      · exact execute_change hc hexec
      · exact .nothing _
  | connects id handshake =>
    simp only [step] at h
    split at h
    · cases h
    · rename_i hid
      split at h
      · cases h
        exact .nothing _
      · rename_i user huser
        obtain ⟨server, hserver, rfl⟩ := Option.map_eq_some_iff.mp h
        exact .connects (by simpa using hid) huser hserver
  | disconnects client =>
    simp only [step] at h
    split at h
    · rename_i hclient
      obtain ⟨server, hserver, rfl⟩ := Option.map_eq_some_iff.mp h
      exact .disconnects hclient hserver
    · cases h
  | socket client r =>
    simp only [step] at h
    split at h
    · rename_i hclient
      cases h
      exact .serves hclient
    · cases h

/-! ## What a token shows -/

/-- A command is for the account whose token the guard has accepted. -/
theorem admits_of_commands {c : Command} {a : String} (h : Commands env m ep request c) (ha : c.user = some a) :
    c.strategy.Admits env m request a :=
  ((meets_command ep).of_ok h).2 a ha

/-- The token that is refreshed is the one that the guard has looked at. -/
theorem refreshToken_of_commands {data : RefreshDto} {a : String} (h : Commands env m ep request (.refresh data a)) :
    JwtRtStrategy.jwtFromRequest.extract request = some (.str data.refreshToken) := by
  have hreads : RefreshDto.validate request.body = .ok data := ((meets_command ep).of_ok h).1
  obtain ⟨token, htoken, hdata⟩ := bind_eq_ok.mp hreads
  cases hdata
  exact (filledString_ok.mp htoken).1

/-- A strategy of the server. -/
def Guards (strategy : JwtStrategy) : Prop := strategy ∈ [JwtAtStrategy, JwtRtStrategy, JwtVtStrategy]

/-- What the verifier says of a token that has left the server. -/
theorem check_minted {name : String} {now : Nat} {user : IJwtPayload} {k : Minted}
    (h : env.jwt.check (some (.str (k.token env.toTokenEnv))) (env.config.get name) now = some user) :
    user = ⟨k.account, k.type⟩ ∧ Verifies env.jwt env.config name k.type k.iat now := by
  rw [Minted.token, check_signToken] at h
  split at h
  · cases h
    exact ⟨rfl, ‹_›⟩
  · cases h

/-- The strategies look at tokens that the request presents. -/
theorem presents_extract {strategy : JwtStrategy} (h : Guards strategy) :
    strategy.jwtFromRequest.extract request ∈ (BackendEvent.request ep request).presents := List.mem_map_of_mem h

/-- **A token that a guard accepts has left the server**, with the type of the guard, and has not expired. -/
theorem admits_minted {strategy : JwtStrategy} {a : String} (hguards : Guards strategy)
    (hunforged : s.Unforged env (m, .request ep request)) (h : strategy.Admits env m request a) :
    ∃ iat, ⟨iat, strategy.type, a⟩ ∈ s.minted ∧
      Verifies env.jwt env.config strategy.secretOrKey strategy.type iat m.seconds ∧
      strategy.jwtFromRequest.extract request = some (.str (Minted.token env.toTokenEnv ⟨iat, strategy.type, a⟩)) := by
  obtain ⟨user, hauth, rfl⟩ := h
  have hname : strategy.secretOrKey ∈ ["JWT_AT_PUBLIC", "JWT_RT_PUBLIC", "JWT_VT_PUBLIC"] := by
    simp only [Guards, List.mem_cons, List.not_mem_nil, or_false] at hguards
    rcases hguards with rfl | rfl | rfl <;> decide
  unfold JwtStrategy.authenticate at hauth
  split at hauth
  · cases hauth
  · rename_i payload hcheck
    obtain ⟨k, hk, htoken⟩ := hunforged _ (presents_extract hguards) _ hname
      (by rw [hcheck]; exact Option.some_ne_none _)
    rw [htoken] at hcheck
    obtain ⟨rfl, hverifies⟩ := check_minted hcheck
    unfold JwtStrategy.validate at hauth
    split at hauth
    · cases hauth
    · rename_i htype
      cases hauth
      rw [← not_not.mp htype]
      exact ⟨k.iat, hk, hverifies, htoken⟩

theorem command_guards (c : Command) : Guards c.strategy := by
  cases c <;> simp [Guards, Command.strategy]

/-- **A command shows a token that has left the server**, with the type of its guard, and that has not expired. -/
theorem commands_minted {c : Command} {a : String} (hunforged : s.Unforged env (m, .request ep request))
    (h : Commands env m ep request c) (ha : c.user = some a) :
    ∃ iat, ⟨iat, c.strategy.type, a⟩ ∈ s.minted ∧
      Verifies env.jwt env.config c.strategy.secretOrKey c.strategy.type iat m.seconds ∧
      c.strategy.jwtFromRequest.extract request = some (.str (Minted.token env.toTokenEnv ⟨iat, c.strategy.type, a⟩)) :=
  admits_minted (command_guards c) hunforged (admits_of_commands h ha)

/-- A token that lets a socket in has left the server and has not expired, and its type is one that the key of the
access tokens verifies. -/
theorem handshake_minted {id : String} {handshake : Handshake} {user : IJwtPayload}
    (hunforged : s.Unforged env (m, .connects id handshake))
    (h : SocketIOAdapter.createAuthMiddleware env.jwt env.config.get m.seconds handshake = .ok user) :
    ∃ iat, ⟨iat, user.type, user.sub⟩ ∈ s.minted ∧
      Verifies env.jwt env.config "JWT_AT_PUBLIC" user.type iat m.seconds ∧
      handshake.token = some (.str (Minted.token env.toTokenEnv ⟨iat, user.type, user.sub⟩)) := by
  unfold SocketIOAdapter.createAuthMiddleware at h
  split at h
  · rename_i payload hcheck
    cases h
    obtain ⟨k, hk, htoken⟩ := hunforged handshake.token List.mem_cons_self "JWT_AT_PUBLIC" (by decide)
      (by rw [← AuthService.verifyAccessToken, hcheck]; exact Option.some_ne_none _)
    rw [AuthService.verifyAccessToken, htoken] at hcheck
    obtain ⟨rfl, hverifies⟩ := check_minted hcheck
    exact ⟨k.iat, hk, hverifies, htoken⟩
  · cases h

end Backend

end DiscordClone
