import DiscordClone.Api.Steps
import DiscordClone.Lib.Past

/-!
# Where authority comes from

Whoever acts for an account has, earlier in the run, logged in with its password; the account had presented its token of
verification before that, and the token had been handed to the mailer, for the address of the account, when it was
registered; whether the mail has gone out nobody can tell. The token of an event says nothing of this by itself: it is
what `History` carries along every run in which no token is forged. For sockets, the key of the access tokens must not
be the one of the tokens of verification, which the handshake would take.

- `step_history`: one step keeps the history.
- `acts_logged_in`: the theorem.
-/

namespace DiscordClone

open Machine

namespace Backend

/-! ## What happens -/

/-- A registration of the account `a` commits, and the mail with its token is handed to the mailer for `email`. -/
inductive MailsTo (env : BackendEnv) (a email : String) (s : Backend) : Moment × BackendEvent → Prop
  | register {m : Moment} {ep : Endpoint} {request : Request} {data : RegisterDto}
    (hcommand : Commands env m ep request (.register data))
    (hcommits : ¬Refused (m.registration env) s.server.db data) (hid : m.rt.uuid = a) (hsigns : m.signs = true)
    (hmail : (verificationMail (m.registration env) env.jwt.toJwtService data a).recipient = email) :
    MailsTo env a email s (m, .request ep request)

/-- The account `a` presents a token of verification. -/
inductive PresentsToken (env : BackendEnv) (a : String) : Moment × BackendEvent → Prop
  | verify {m : Moment} {ep : Endpoint} {request : Request} (hcommand : Commands env m ep request (.verify a)) :
    PresentsToken env a (m, .request ep request)

/-- A login with `email` and the password of the account `a`. -/
inductive GivesPassword (env : BackendEnv) (a email : String) (s : Backend) : Moment × BackendEvent → Prop
  | login {m : Moment} {ep : Endpoint} {request : Request} {data : LoginDto} {e : Account}
    (hcommand : Commands env m ep request (.login data))
    (haccepts : (env.server.auth s.server.db.accounts).Accepts data e) (hid : e.id = a) (hemail : data.email = email) :
    GivesPassword env a email s (m, .request ep request)

/-- The mail with the token of the account has been handed to the mailer. -/
def Mailed (env : BackendEnv) (a email : String) : List (Moment × BackendEvent) → Prop :=
  Once (step env) start fun _ s l => MailsTo env a email s l

/-- The token has been presented, after its mail had been handed to the mailer. -/
def Verified (env : BackendEnv) (a email : String) : List (Moment × BackendEvent) → Prop :=
  Once (step env) start fun before _ l => PresentsToken env a l ∧ Mailed env a email before

/-- The password has been given, after the token had been presented. -/
def LoggedIn (env : BackendEnv) (a : String) : List (Moment × BackendEvent) → Prop :=
  Once (step env) start fun before s l => ∃ email, GivesPassword env a email s l ∧ Verified env a email before

/-- The event is carried out for the account `a`: by a request behind the guard of the access tokens or of the refresh
tokens, by a handshake, or by a connected socket. -/
inductive ActsFor (env : BackendEnv) (s : Backend) (a : String) : Moment × BackendEvent → Prop
  | request {m : Moment} {ep : Endpoint} {request : Request} {c : Command} (hcommand : Commands env m ep request c)
    (huser : c.user = some a) (htype : c.strategy.type ≠ .VERIFY) : ActsFor env s a (m, .request ep request)
  | connects {m : Moment} {id : String} {handshake : Handshake} {user : IJwtPayload}
    (htoken : SocketIOAdapter.createAuthMiddleware env.jwt env.config.get m.seconds handshake = .ok user)
    (huser : user.sub = a) : ActsFor env s a (m, .connects id handshake)
  | disconnects {m : Moment} {client : SocketWithAuth} (hclient : client ∈ s.server.sockets) (hsub : client.sub = a) :
    ActsFor env s a (m, .disconnects client)
  | socket {m : Moment} {client : SocketWithAuth} {r : SocketRequest} (hclient : client ∈ s.server.sockets)
    (hsub : client.sub = a) : ActsFor env s a (m, .socket client r)

/-- The key of the access tokens is not the one of the tokens of verification. -/
def KeysApart (env : BackendEnv) : Prop :=
  env.jwt.belongs (env.config.secret .VERIFY) (env.config.get "JWT_AT_PUBLIC") = false

/-- What the state shows of the past. -/
structure History (env : BackendEnv) (events : List (Moment × BackendEvent)) (s : Backend) : Prop where
  mailed : ∀ k ∈ s.minted, k.type = .VERIFY → ∃ e ∈ s.server.db.accounts.rows, e.id = k.account ∧
    Mailed env e.id e.email events
  verified : ∀ e ∈ s.server.db.accounts.rows, e.status = .ACTIVE → Verified env e.id e.email events
  loggedIn : ∀ k ∈ s.minted, k.type ≠ .VERIFY → LoggedIn env k.account events
  sessions : ∀ x ∈ s.server.db.sessions, LoggedIn env x.accountId events
  sockets : KeysApart env → ∀ c ∈ s.server.sockets, LoggedIn env c.sub events

/-! ## One step -/

section Step

variable {env : BackendEnv} {events : List (Moment × BackendEvent)} {s s' : Backend} {l : Moment × BackendEvent}
  {a email : String}

theorem Mailed.snoc (h : Mailed env a email events) : Mailed env a email (events ++ [l]) := h.append [l]

theorem Verified.snoc (h : Verified env a email events) : Verified env a email (events ++ [l]) := h.append [l]

theorem LoggedIn.snoc (h : LoggedIn env a events) : LoggedIn env a (events ++ [l]) := h.append [l]

/-- A login accepts one account. -/
theorem accepts_unique {env : AuthEnv} {data : LoginDto} {e e' : Account} (h : env.Accepts data e)
    (h' : env.Accepts data e') : e' = e := Option.some.inj (h'.1.symm.trans h.1)

/-- A session belongs to an account that has had one, or that logs in. -/
theorem calls_owner {now pick : Nat} {event : AuthEvent} {uuid : String} {t : AuthState}
    (h : s.Calls env now event pick uuid t) {x : Session} (hx : x ∈ t.sessions) :
    (∃ y ∈ s.server.db.sessions, y.accountId = x.accountId) ∨
      ∃ data e, event = .login data ∧ (env.server.auth s.server.db.accounts).Accepts data e ∧ x.accountId = e.id := by
  have hold : ∀ {f : Session → Session}, (∀ y, (f y).key = y.key) → x ∈ s.server.db.sessions.map f →
      ∃ y ∈ s.server.db.sessions, y.accountId = x.accountId := by
    intro f hf hx
    obtain ⟨y, hy, rfl⟩ := List.mem_map.mp hx
    exact ⟨y, hy, (Prod.mk.inj (hf y)).2.symm⟩
  cases event with
  | tick =>
    cases h
    exact Or.inl ⟨x, hx, rfl⟩
  | resume i pick' uuid' => cases h
  | login data =>
    obtain ⟨-, ⟨-, -, -, hsessions⟩ | ⟨e, hacc, -, ⟨y, -, -, -, hsessions⟩ | ⟨-, -, -, hsessions⟩⟩⟩ := login_alone h
    · rw [hsessions] at hx
      exact Or.inl ⟨x, hx, rfl⟩
    · rw [hsessions] at hx
      exact Or.inl (hold (Session.key_store _ _) hx)
    · rw [hsessions] at hx
      rcases List.mem_append.mp hx with hx | hx
      · exact Or.inl ⟨x, hx, rfl⟩
      · rw [List.mem_singleton.mp hx]
        exact Or.inr ⟨data, e, rfl, hacc, rfl⟩
  | refresh data a pick' =>
    obtain ⟨-, -, ⟨-, hsessions⟩ | ⟨y, -, -, -, hsessions, -⟩⟩ := refresh_alone h
    · rw [hsessions] at hx
      exact Or.inl ⟨x, hx, rfl⟩
    · rw [hsessions] at hx
      exact Or.inl (hold (Session.key_store _ _) hx)
  | logout a pick' =>
    obtain ⟨-, -, -, ⟨-, hsessions⟩ | ⟨y, -, -, hsessions⟩⟩ := logout_alone h
    · rw [hsessions] at hx
      exact Or.inl ⟨x, hx, rfl⟩
    · rw [hsessions] at hx
      exact Or.inl ⟨x, (List.mem_filter.mp hx).1, rfl⟩
  | updateConnectionStatus a status pick' =>
    obtain ⟨-, -, -, ⟨-, hsessions⟩ | ⟨y, -, -, hsessions⟩⟩ := status_alone h
    · rw [hsessions] at hx
      exact Or.inl ⟨x, hx, rfl⟩
    · rw [hsessions] at hx
      exact Or.inl (hold (Session.key_mark _ _) hx)

/-- A key apart verifies no token of verification. -/
theorem KeysApart.not_verify (h : KeysApart env) {type : EJwtType}
    (hkey : env.jwt.belongs (env.config.secret type) (env.config.get "JWT_AT_PUBLIC") = true) : type ≠ .VERIFY := by
  rintro rfl
  rw [KeysApart, hkey] at h
  cases h

/-- The history of a state is the history of a later one that shows nothing more. -/
theorem History.keep (h : History env events s) (hminted : s'.minted = s.minted)
    (haccounts : s'.server.db.accounts = s.server.db.accounts)
    (hsessions : s'.server.db.sessions = s.server.db.sessions)
    (hsockets : s'.server.sockets = s.server.sockets) : History env (events ++ [l]) s' where
  mailed k hk ht := by
    rw [hminted] at hk
    obtain ⟨e, he, hid, hmailed⟩ := h.mailed k hk ht
    exact ⟨e, haccounts ▸ he, hid, hmailed.snoc⟩
  verified e he hs := (h.verified e (haccounts ▸ he) hs).snoc
  loggedIn k hk ht := (h.loggedIn k (hminted ▸ hk) ht).snoc
  sessions x hx := (h.sessions x (hsessions ▸ hx)).snoc
  sockets hkeys c hc := (h.sockets hkeys c (hsockets ▸ hc)).snoc

/-- The history after a call of the auth service. -/
theorem History.after {t : AuthState} {new : List Minted} (h : History env events s)
    (hsessions : ∀ x ∈ t.sessions, LoggedIn env x.accountId (events ++ [l]))
    (hnew : ∀ k ∈ new, k.type ≠ .VERIFY ∧ LoggedIn env k.account (events ++ [l])) :
    History env (events ++ [l]) (s.after t new) where
  mailed k hk ht := by
    rcases List.mem_append.mp hk with hk | hk
    · exact absurd ht (hnew k hk).1
    · obtain ⟨e, he, hid, hmailed⟩ := h.mailed k hk ht
      exact ⟨e, he, hid, hmailed.snoc⟩
  verified e he hs := (h.verified e he hs).snoc
  loggedIn k hk ht := by
    rcases List.mem_append.mp hk with hk | hk
    · exact (hnew k hk).2
    · exact (h.loggedIn k hk ht).snoc
  sessions := hsessions
  sockets hkeys c hc := (h.sockets hkeys c hc).snoc

/-- A call that is no login leaves the sessions to those who have logged in. -/
theorem History.owners (h : History env events s) {now pick : Nat} {event : AuthEvent} {uuid : String} {t : AuthState}
    (hcall : s.Calls env now event pick uuid t) (hevent : ∀ data, event ≠ .login data) (x : Session)
    (hx : x ∈ t.sessions) : LoggedIn env x.accountId (events ++ [l]) := by
  rcases calls_owner hcall hx with ⟨y, hy, haccount⟩ | ⟨data, e, hlogin, -⟩
  · exact haccount ▸ (h.sessions y hy).snoc
  · exact absurd hlogin (hevent data)

/-- The pair of tokens of an account that has logged in. -/
theorem loggedIn_pair {now : Nat} (h : LoggedIn env a events) : ∀ k ∈ pair now a, k.type ≠ .VERIFY ∧
    LoggedIn env k.account events := by
  intro k hk
  simp only [pair, List.mem_cons, List.not_mem_nil, or_false] at hk
  rcases hk with rfl | rfl
  · exact ⟨by simp, h⟩
  · exact ⟨by simp, h⟩

/-- A registration adds an account that is not ACTIVE, and mails its token. -/
theorem History.registers {m : Moment} {ep : Endpoint} {request : Request} {data : RegisterDto} {e : Account}
    {db : Database} (h : History env events s) (hrun : run (step env) start events = some s)
    (hcommand : Commands env m ep request (.register data))
    (hcommits : ¬Refused (m.registration env) s.server.db data) (hid : e.id = m.rt.uuid)
    (hadded : Added s.server.db db data e) : History env (events ++ [(m, .request ep request)])
      { s.withDb db with minted := verifyToken m e.id ++ s.minted } where
  mailed k hk ht := by
    have hrows : (s.withDb db).server.db.accounts.rows = s.server.db.accounts.rows ++ [e] := hadded.rows
    rcases List.mem_append.mp hk with hk | hk
    · unfold verifyToken at hk
      split at hk
      · rename_i hsigns
        rw [List.mem_singleton.mp hk]
        refine ⟨e, ?_, rfl, once_now hrun (.register hcommand hcommits hid.symm hsigns ?_)⟩
        · rw [hrows]
          exact List.mem_append_right _ List.mem_cons_self
        · exact hadded.email.symm
      · cases hk
    · obtain ⟨e', he', hid', hmailed⟩ := h.mailed k hk ht
      refine ⟨e', ?_, hid', hmailed.snoc⟩
      rw [hrows]
      exact List.mem_append_left _ he'
  verified e' he' hs := by
    have hrows : (s.withDb db).server.db.accounts.rows = s.server.db.accounts.rows ++ [e] := hadded.rows
    rw [hrows] at he'
    rcases List.mem_append.mp he' with he' | he'
    · exact (h.verified e' he' hs).snoc
    · rw [List.mem_singleton.mp he', hadded.status] at hs
      cases hs
  loggedIn k hk ht := by
    rcases List.mem_append.mp hk with hk | hk
    · unfold verifyToken at hk
      split at hk
      · rw [List.mem_singleton.mp hk] at ht
        exact absurd rfl ht
      · cases hk
    · exact (h.loggedIn k hk ht).snoc
  sessions x hx := by
    have hsessions : (s.withDb db).server.db.sessions = s.server.db.sessions := by
      rw [withDb, hadded.rest]
    exact (h.sessions x (hsessions ▸ hx)).snoc
  sockets hkeys c hc := (h.sockets hkeys c hc).snoc

/-- A verification makes an account ACTIVE whose mail has been handed to the mailer. -/
theorem History.verifies {m : Moment} {ep : Endpoint} {request : Request} {accounts : Accounts}
    (h : History env events s) (hrun : run (step env) start events = some s)
    (hunforged : s.Unforged env (m, .request ep request)) (hcommand : Commands env m ep request (.verify a))
    (hupdate : s.server.db.accounts.updateStatus a .ACTIVE m.rt.now = .ok accounts) :
    History env (events ++ [(m, .request ep request)]) (s.withDb { s.server.db with accounts := accounts }) where
  mailed k hk ht := by
    obtain ⟨e, he, hid, hmailed⟩ := h.mailed k hk ht
    obtain ⟨e', he', hid', hemail, -⟩ := Accounts.keeps_updateStatus hupdate e he
    refine ⟨e', he', hid'.trans hid, ?_⟩
    rw [hid', hemail]
    exact hmailed.snoc
  verified e he hs := by
    have hrows : e ∈ s.server.db.accounts.rows.map (Accounts.withStatus a .ACTIVE m.rt.now) :=
      Accounts.updateStatus_rows hupdate ▸ he
    obtain ⟨y, hy, rfl⟩ := List.mem_map.mp hrows
    by_cases hya : y.id = a
    · -- the account that presents its token
      obtain ⟨iat, hk, -⟩ := commands_minted hunforged hcommand rfl
      obtain ⟨e, he, hid, hmailed⟩ := h.mailed _ hk rfl
      have hsame : e = y := List.inj_on_of_nodup_map s.server.db.accounts.id_nodup he hy (hid.trans hya.symm)
      subst hsame
      rw [Accounts.withStatus, if_pos hya]
      exact once_now hrun ⟨hya ▸ .verify hcommand, hmailed⟩
    · rw [Accounts.withStatus, if_neg hya] at hs ⊢
      exact (h.verified y hy hs).snoc
  loggedIn k hk ht := (h.loggedIn k hk ht).snoc
  sessions x hx := (h.sessions x hx).snoc
  sockets hkeys c hc := (h.sockets hkeys c hc).snoc

/-- A login gives the password of an account that has been verified. -/
theorem History.password {m : Moment} {ep : Endpoint} {request : Request} {data : LoginDto} {e : Account}
    (h : History env events s) (hcommand : Commands env m ep request (.login data))
    (haccepts : (env.server.auth s.server.db.accounts).Accepts data e) :
    GivesPassword env e.id e.email s (m, .request ep request) ∧ Verified env e.id e.email events := by
  have hmem : e ∈ s.server.db.accounts.rows := List.mem_of_find?_eq_some haccepts.1
  have hemail : e.email = data.email := by simpa using List.find?_some haccepts.1
  exact ⟨.login hcommand haccepts rfl hemail.symm, h.verified e hmem haccepts.2.1⟩

/-- The gateway touches neither the accounts nor the sessions. -/
theorem serve_frame (platform : Platform) (rt : Runtime) (c : Chat) (client : SocketWithAuth) (r : SocketRequest) :
    (c.serve platform rt client r).db.accounts = c.db.accounts ∧
      (c.serve platform rt client r).db.sessions = c.db.sessions ∧
      (c.serve platform rt client r).db.relationships = c.db.relationships := by
  cases r with
  | join targetId =>
    simp only [Chat.serve, ChatGateway.handleJoinDirectMessageRoom]
    split <;> exact ⟨rfl, rfl, rfl⟩
  | leave targetId => exact ⟨rfl, rfl, rfl⟩
  | send data =>
    simp only [Chat.serve, ChatGateway.handleSendDirectMessage]
    split
    · rename_i m db hm
      obtain ⟨-, -, -, -, rfl⟩ := createDirectMessage_ok.mp hm
      exact ⟨rfl, rfl, rfl⟩
    · exact ⟨rfl, rfl, rfl⟩

/-- The connection of a socket, taken apart. -/
theorem handleConnection_some {server : Server} {client : SocketWithAuth} {pick : Nat}
    (h : s.server.handleConnection env.server client pick = some server) : ∃ t,
      s.Calls env 0 (.updateConnectionStatus client.sub .ONLINE pick) pick "" t ∧ server = { s.server.answered t with
        sockets := s.server.sockets ++ [client], clients := ChatGateway.addClient s.server.clients client.entry } := by
  obtain ⟨s₁, hs₁, rfl⟩ := Option.map_eq_some_iff.mp h
  obtain ⟨t, ht, rfl⟩ := call_some.mp hs₁
  exact ⟨t, ht, rfl⟩

theorem handleDisconnect_some {server : Server} {client : SocketWithAuth} {pick : Nat}
    (h : s.server.handleDisconnect env.server client pick = some server) : ∃ t,
      s.Calls env 0 (.updateConnectionStatus client.sub .OFFLINE pick) pick "" t ∧ server = { s.server.answered t with
        sockets := s.server.sockets.filter (· ≠ client)
        clients := ChatGateway.removeClient s.server.clients client.entry } := by
  obtain ⟨s₁, hs₁, rfl⟩ := Option.map_eq_some_iff.mp h
  obtain ⟨t, ht, rfl⟩ := call_some.mp hs₁
  exact ⟨t, ht, rfl⟩

/-- **One step keeps the history.** -/
theorem step_history (hrun : run (step env) start events = some s) (h : History env events s)
    (hunforged : s.Unforged env l) (hstep : s.step env l = some s') : History env (events ++ [l]) s' := by
  cases step_change hstep with
  | nothing => exact h.keep rfl rfl rfl rfl
  | registers hcommand hcommits hid hadded => exact h.registers hrun hcommand hcommits hid hadded
  | verifies hcommand hupdate => exact h.verifies hrun hunforged hcommand hupdate
  | logsIn hcommand haccepts hcall hresults =>
    have hlogin : LoggedIn env _ (events ++ _) := once_now hrun ⟨_, h.password hcommand haccepts⟩
    refine h.after (fun x hx => ?_) (loggedIn_pair hlogin)
    rcases calls_owner hcall hx with ⟨y, hy, haccount⟩ | ⟨data', e', hdata, haccepts', haccount⟩
    · exact haccount ▸ (h.sessions y hy).snoc
    · cases hdata
      rw [haccount, accepts_unique haccepts haccepts']
      exact hlogin
  | refreshes hcommand hsession hcall hresults =>
    obtain ⟨x, hx, haccount, -⟩ := hsession
    exact h.after (h.owners hcall (by simp)) (loggedIn_pair (haccount ▸ (h.sessions x hx).snoc))
  | logsOut hcommand hcall => exact h.after (h.owners hcall (by simp)) (by simp)
  | relates hcommand hexec => exact h.keep rfl rfl rfl rfl
  | unpins hcommand hunpin => exact h.keep rfl rfl rfl rfl
  | @connects m id handshake user server hid htoken hserver =>
    obtain ⟨t, hcall, rfl⟩ := handleConnection_some hserver
    obtain ⟨iat, hk, ⟨hkey, -⟩, -⟩ := handshake_minted hunforged htoken
    have hafter : History env (events ++ [(m, .connects id handshake)]) (s.after t []) :=
      h.after (h.owners hcall (by simp)) (by simp)
    refine { hafter with sockets := fun hkeys c hc => ?_ }
    rcases List.mem_append.mp hc with hc | hc
    · exact (h.sockets hkeys c hc).snoc
    · rw [List.mem_singleton.mp hc]
      refine (h.loggedIn _ hk ?_).snoc
      exact hkeys.not_verify hkey
  | @disconnects m client server hclient hserver =>
    obtain ⟨t, hcall, rfl⟩ := handleDisconnect_some hserver
    have hafter : History env (events ++ [(m, .disconnects client)]) (s.after t []) :=
      h.after (h.owners hcall (by simp)) (by simp)
    exact { hafter with sockets := fun hkeys c hc => (h.sockets hkeys c (List.mem_filter.mp hc).1).snoc }
  | serves hclient =>
    obtain ⟨haccounts, hsessions, -⟩ := serve_frame env.platform _ s.chat _ _
    exact h.keep rfl haccounts hsessions rfl

/-! ## Runs -/

theorem history_start (env : BackendEnv) : History env [] start where
  mailed _ hk := absurd hk List.not_mem_nil
  verified _ he := absurd he List.not_mem_nil
  loggedIn _ hk := absurd hk List.not_mem_nil
  sessions _ hx := absurd hx List.not_mem_nil
  sockets _ _ hc := absurd hc List.not_mem_nil

theorem history_run (hunforged : Along (step env) (Unforged env) start events)
    (hrun : run (step env) start events = some s) :
    History env events s :=
  past_inv (history_start env) (fun _ _ _ _ ht _ h hc hs => step_history ht h hc hs) hunforged hrun

end Step

/-! ## The theorem

In the run of its instance alice registers, presents the token of her mail and logs in. -/

/-- A library with many pairs of keys. -/
def pairedLibrary : JwtLibrary where
  toJwtService := exampleLibrary.toJwtService
  belongs key publicKey := publicKey = "public " ++ key
  expired expiresIn iat now := iat + lifetime expiresIn ≤ now
  verify token publicKey now :=
    (Signed.read token.toList).bind fun t =>
      if decide (publicKey = "public " ++ t.key) && !decide (t.iat + lifetime t.expiresIn ≤ now) then some t.payload
      else none
  verify_sign key p expiresIn iat publicKey now := by
    show (Signed.read (String.ofList (Signed.write ⟨key, expiresIn, p, iat⟩)).toList).bind _ = _
    rw [String.toList_ofList, Signed.read_write, Option.bind_some]

/-- A pair of keys for each purpose. -/
def separateKeys : Environment := fun name =>
  if name = "JWT_AT_SECRET" then some "AT"
  else if name = "JWT_RT_SECRET" then some "RT"
  else if name = "JWT_VT_SECRET" then some "VT"
  else if name = "JWT_AT_PUBLIC" then some "public AT"
  else if name = "JWT_RT_PUBLIC" then some "public RT"
  else if name = "JWT_VT_PUBLIC" then some "public VT"
  else exampleEnvironment name

def sampleEnv : BackendEnv where
  jwt := pairedLibrary
  config := separateKeys
  compareSync := sampleAuthEnv.compareSync
  platform := stringPlatform

/-- A moment at which everything works. -/
def sampleMoment (uuid : String) : Moment where
  rt := { uuid := uuid, now := 0, parseDateTime := fun _ => some 0 }
  seconds := 0
  checks := ⟨fun _ => true, fun _ => true, fun _ => some 20⟩
  pick := 0
  hash password rounds := (sampleHash password rounds).toOption
  raced := false
  signs := true
  mails _ := true
  findMany := id
  order := id

/-- The id of alice, as `uuid()` makes them. -/
def aliceId : String := "00000000-0000-4000-8000-00000000000a"

/-- The id of her session. -/
def sessionId : String := "00000000-0000-4000-8000-0000000005e5"

/-- The token of this type for alice. -/
def aliceToken (type : EJwtType) : String := Minted.token sampleEnv.toTokenEnv ⟨0, type, aliceId⟩

/-- A request of alice with her access token. -/
def byAlice (ep : Endpoint) (body : Json) : Moment × BackendEvent :=
  (sampleMoment "", .request ep { bearer := some (aliceToken .ACCESS), body := body })

def aliceRegisters : Moment × BackendEvent :=
  (sampleMoment aliceId, .request .register
    { body := .obj [("email", .str "alice@mail.test"), ("password", .str "alice"), ("username", .str "alice"),
        ("dateOfBirth", .str "2000-01-01"), ("emailSubscribe", .bool true)] })

/-- The registration of alice, while the mailer throws. -/
def aliceUnsent : Moment × BackendEvent :=
  ({ sampleMoment aliceId with mails := fun _ => false }, aliceRegisters.2)

def aliceVerifies : Moment × BackendEvent :=
  (sampleMoment "00000000-0000-4000-8000-000000000000",
    .request .verify { body := .obj [("verifyToken", .str (aliceToken .VERIFY))] })

def aliceLogsIn : Moment × BackendEvent :=
  (sampleMoment sessionId, .request .login
    { body := .obj [("email", .str "alice@mail.test"), ("password", .str "alice")] })

/-- The id of bob. -/
def bobId : String := "00000000-0000-4000-8000-00000000000b"

def bobRegisters : Moment × BackendEvent :=
  (sampleMoment bobId, .request .register
    { body := .obj [("email", .str "bob@mail.test"), ("password", .str "bob"), ("username", .str "bob"),
        ("dateOfBirth", .str "2000-01-01"), ("emailSubscribe", .bool true)] })

/-- alice is logged in at the end. -/
def aliceComes : List (Moment × BackendEvent) := [aliceRegisters, aliceVerifies, aliceLogsIn]

/-- The account of alice. -/
def aliceAccount : Account where
  id := aliceId
  email := "alice@mail.test"
  password := "hash of alice"
  username := "alice"
  dateOfBirth := 0
  status := .ACTIVE
  displayName := "alice"
  bannerColor := DefaultProfileValue.BannerColor
  createdAt := 0
  updatedAt := 0

/-- The ACTIVE account of alice with her session and her tokens. -/
def withAlice : Backend where
  server :=
    { db :=
        { Database.empty with
          accounts := ⟨[aliceAccount], List.nodup_singleton _, List.nodup_singleton _, List.nodup_singleton _⟩
          settings := Function.update Database.empty.settings aliceId (some (.obj [("pinnedDms", .arr [])]))
          sessions := [{ id := sessionId, accountId := aliceId, refreshToken := aliceToken .REFRESH }] }
      ids := [sessionId]
      issued := [(aliceId, aliceToken .ACCESS)]
      sockets := []
      clients := [] }
  rooms := []
  emitted := []
  minted := [⟨0, .ACCESS, aliceId⟩, ⟨0, .REFRESH, aliceId⟩, ⟨0, .VERIFY, aliceId⟩]

theorem aliceComes_run : Machine.run (step sampleEnv) start aliceComes = some withAlice := rfl

theorem aliceComes_unforged : Machine.Along (step sampleEnv) (Unforged sampleEnv) start aliceComes := by
  refine along_cons rfl (unforged_of_nothing rfl) (along_cons rfl ?_ (along_cons rfl (unforged_of_nothing rfl) trivial))
  exact unforged_of_verify (k := ⟨0, .VERIFY, aliceId⟩) rfl List.mem_cons_self

/-- A request of alice presents the token that she has been given. -/
theorem byAlice_unforged (ep : Endpoint) {body : Json} (hrefresh : body.field "refreshToken" = none)
    (hverify : body.field "verifyToken" = none) : withAlice.Unforged sampleEnv (byAlice ep body) := by
  refine unforged_of_minted fun token htoken => ?_
  simp only [byAlice, BackendEvent.presents, JwtAtStrategy, JwtRtStrategy, JwtVtStrategy, ExtractJwt.extract,
    List.map_cons, List.map_nil, List.mem_cons, List.not_mem_nil, or_false, hrefresh, hverify] at htoken
  rcases htoken with rfl | rfl | rfl
  · refine Or.inr ⟨⟨0, .ACCESS, aliceId⟩, ?_, rfl⟩
    exact List.mem_cons_self
  · exact Or.inl rfl
  · exact Or.inl rfl

/-- **Whoever acts for an account has logged in with its password, after the account had presented the token that was
handed to the mailer for its address.** In every run in which no token is forged: for a request under any keys, and for
a socket under keys that keep the tokens of verification apart from those of access. -/
theorem acts_logged_in (env : BackendEnv) (events : List (Moment × BackendEvent)) (s : Backend)
    (hunforged : Along (step env) (Unforged env) start events) (hrun : run (step env) start events = some s)
    (l : Moment × BackendEvent) (hl : s.Unforged env l) (a : String) (hacts : s.ActsFor env a l)
    (hkeys : KeysApart env ∨ ∃ ep request, l.2 = .request ep request) : LoggedIn env a events := by
  have h := history_run hunforged hrun
  have hkeys' : (∀ ep request, l.2 ≠ .request ep request) → KeysApart env := by
    intro hno
    rcases hkeys with hkeys | ⟨ep, request, hl⟩
    · exact hkeys
    · exact absurd hl (hno ep request)
  cases hacts with
  | request hcommand huser htype =>
    obtain ⟨iat, hk, -⟩ := commands_minted hl hcommand huser
    exact h.loggedIn _ hk htype
  | connects htoken huser =>
    obtain ⟨iat, hk, ⟨hkey, -⟩, -⟩ := handshake_minted hl htoken
    rw [← huser]
    exact h.loggedIn _ hk ((hkeys' (by simp)).not_verify hkey)
  | disconnects hclient hsub => exact hsub ▸ h.sockets (hkeys' (by simp)) _ hclient
  | socket hclient hsub => exact hsub ▸ h.sockets (hkeys' (by simp)) _ hclient

/-- alice asks for her account: she has logged in, after she had presented her token. -/
theorem acts_logged_in_sample : LoggedIn sampleEnv aliceId aliceComes :=
  acts_logged_in sampleEnv aliceComes withAlice aliceComes_unforged aliceComes_run (byAlice .getMe .null)
    (byAlice_unforged .getMe rfl rfl) aliceId (.request (c := .getMe aliceId) rfl rfl (by decide)) (Or.inl rfl)

end Backend

end DiscordClone
