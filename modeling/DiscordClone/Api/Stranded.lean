import DiscordClone.Api.Integrity

/-!
# An account that nobody can have

A registration commits before its token is signed and mailed. When the signer throws, or the mail does not arrive, the
account is there without a token, and it stays so: in every run in which nobody presents that token its status is
NOT_VERIFIED, it has no other tokens, no sessions and no sockets, nobody can log in to it or act for it, and its email
and its username cannot be registered again (`lost_stranded`). No operation takes it away, and none sends another token.
-/

namespace DiscordClone

open Machine

namespace Backend

/-- Nobody presents a token that is lost. -/
def Missing (env : BackendEnv) (lost : List Minted) (l : Moment × BackendEvent) : Prop :=
  ∀ k ∈ lost, some (.str (k.token env.toTokenEnv)) ∉ l.2.presents

/-- The account is not verified, and but for what is lost nothing is there that could make it so. -/
structure Stranded (lost : List Minted) (s : Backend) (e : Account) : Prop where
  row : e ∈ s.server.db.accounts.rows
  status : e.status = .NOT_VERIFIED
  tokens : ∀ k ∈ s.minted, k.account = e.id → k ∈ lost
  sessions : ∀ x ∈ s.server.db.sessions, x.accountId ≠ e.id
  sockets : ∀ c ∈ s.server.sockets, c.sub ≠ e.id

section Step

variable {env : BackendEnv} {s s' : Backend} {l : Moment × BackendEvent} {e : Account} {lost : List Minted} {m : Moment}
  {ep : Endpoint}
  {request : Request}

namespace Stranded

/-- A login accepts an account that is ACTIVE. -/
theorem not_accepted (h : Stranded lost s e) {data : LoginDto} {e' : Account}
    (haccepts : (env.server.auth s.server.db.accounts).Accepts data e') : e'.id ≠ e.id := by
  intro hid
  have hmem : e' ∈ s.server.db.accounts.rows := List.mem_of_find?_eq_some haccepts.1
  have hsame : e' = e := List.inj_on_of_nodup_map s.server.db.accounts.id_nodup hmem h.row hid
  have hactive : e'.status = .ACTIVE := haccepts.2.1
  rw [hsame, h.status] at hactive
  cases hactive

/-- A command is for another account. -/
theorem not_commanded (h : Stranded lost s e) (hunforged : s.Unforged env (m, .request ep request))
    (hmissing : Missing env lost (m, .request ep request)) {c : Command} {a : String}
    (hcommand : Commands env m ep request c) (ha : c.user = some a) : a ≠ e.id := by
  rintro rfl
  obtain ⟨iat, hk, -, htoken⟩ := commands_minted hunforged hcommand ha
  exact hmissing _ (h.tokens _ hk rfl) (htoken ▸ presents_extract (command_guards c))

/-- A handshake is for another account. -/
theorem not_connected (h : Stranded lost s e) {id : String} {handshake : Handshake} {user : IJwtPayload}
    (hunforged : s.Unforged env (m, .connects id handshake)) (hmissing : Missing env lost (m, .connects id handshake))
    (htoken : SocketIOAdapter.createAuthMiddleware env.jwt env.config.get m.seconds handshake = .ok user) :
    user.sub ≠ e.id := by
  intro ha
  obtain ⟨iat, hk, -, htoken⟩ := handshake_minted hunforged htoken
  exact hmissing _ (h.tokens _ hk ha) (htoken ▸ List.mem_cons_self)

/-- A registration draws another id. -/
theorem not_drawn (h : Stranded lost s e) {data : RegisterDto}
    (hcommits : ¬Refused (m.registration env) s.server.db data) :
    m.rt.uuid ≠ e.id := fun hid => hcommits (.id (hid ▸ List.mem_map_of_mem h.row))

/-- The sessions after a call are those of other accounts. -/
theorem calls (h : Stranded lost s e) {now pick : Nat} {event : AuthEvent} {uuid : String} {t : AuthState}
    (hcall : s.Calls env now event pick uuid t) : ∀ x ∈ t.sessions, x.accountId ≠ e.id := by
  intro x hx
  rcases calls_owner hcall hx with ⟨y, hy, haccount⟩ | ⟨data, e', -, haccepts, haccount⟩
  · rw [← haccount]
    exact h.sessions y hy
  · rw [haccount]
    exact h.not_accepted haccepts

/-- A pair of tokens of another account. -/
theorem pair (h : Stranded lost s e) {now : Nat} {a : String} (ha : a ≠ e.id) :
    ∀ k ∈ Backend.pair now a ++ s.minted, k.account = e.id → k ∈ lost := by
  refine List.forall_mem_append.mpr ⟨fun k hk hka => ?_, h.tokens⟩
  simp only [Backend.pair, List.mem_cons, List.not_mem_nil, or_false] at hk
  rcases hk with rfl | rfl
  · exact absurd hka ha
  · exact absurd hka ha

end Stranded

/-- **Every step leaves the account as it is.** -/
theorem step_stranded (h : Stranded lost s e) (hunforged : s.Unforged env l) (hmissing : Missing env lost l)
    (hstep : s.step env l = some s') : Stranded lost s' e := by
  cases step_change hstep with
  | nothing => exact h
  | @registers m ep request data e' db hcommand hcommits hid hadded =>
    constructor
    case row =>
      show e ∈ db.accounts.rows
      rw [hadded.rows]
      exact List.mem_append_left _ h.row
    case status => exact h.status
    case tokens =>
      refine List.forall_mem_append.mpr ⟨fun k hk hka => ?_, h.tokens⟩
      unfold verifyToken at hk
      split at hk
      · rw [List.mem_singleton.mp hk, hid] at hka
        exact absurd hka (h.not_drawn hcommits)
      · cases hk
    case sessions =>
      show ∀ x ∈ db.sessions, _
      rw [hadded.rest]
      exact h.sessions
    case sockets => exact h.sockets
  | @verifies m ep request a accounts hcommand hupdate =>
    refine ⟨?_, h.status, h.tokens, h.sessions, h.sockets⟩
    have ha : e.id ≠ a := (h.not_commanded hunforged hmissing hcommand rfl).symm
    have hrow : Accounts.withStatus a .ACTIVE m.rt.now e = e := if_neg ha
    show e ∈ accounts.rows
    rw [Accounts.updateStatus_rows hupdate]
    exact List.mem_map.mpr ⟨e, h.row, hrow⟩
  | logsIn hcommand haccepts hcall hresults =>
    exact ⟨h.row, h.status, h.pair (h.not_accepted haccepts), h.calls hcall, h.sockets⟩
  | refreshes hcommand hsession hcall hresults =>
    exact ⟨h.row, h.status, h.pair (h.not_commanded hunforged hmissing hcommand rfl), h.calls hcall, h.sockets⟩
  | logsOut hcommand hcall => exact ⟨h.row, h.status, h.tokens, h.calls hcall, h.sockets⟩
  | relates hcommand hexec => exact ⟨h.row, h.status, h.tokens, h.sessions, h.sockets⟩
  | unpins hcommand hrun => exact ⟨h.row, h.status, h.tokens, h.sessions, h.sockets⟩
  | @connects m id handshake user server hid htoken hserver =>
    obtain ⟨t, hcall, rfl⟩ := handleConnection_some hserver
    refine ⟨h.row, h.status, h.tokens, h.calls hcall, List.forall_mem_append.mpr ⟨h.sockets, fun c hc => ?_⟩⟩
    rw [List.mem_singleton.mp hc]
    exact h.not_connected hunforged hmissing htoken
  | disconnects hclient hserver =>
    obtain ⟨t, hcall, rfl⟩ := handleDisconnect_some hserver
    exact ⟨h.row, h.status, h.tokens, h.calls hcall, fun c hc => h.sockets c (List.mem_of_mem_filter hc)⟩
  | @serves m client r hclient =>
    obtain ⟨haccounts, hsessions, -⟩ := serve_frame env.platform m.rt s.chat client r
    refine ⟨?_, h.status, h.tokens, ?_, h.sockets⟩
    · show e ∈ (s.chat.serve env.platform m.rt client r).db.accounts.rows
      rw [haccounts]
      exact h.row
    · show ∀ x ∈ (s.chat.serve env.platform m.rt client r).db.sessions, _
      rw [hsessions]
      exact h.sessions

/-- **A registration**: its account is new, so that nothing is there for it but the token of this registration. -/
theorem registers_stranded {data : RegisterDto} (hintact : Intact env s)
    (hcommand : Commands env m ep request (.register data)) (hcommits : ¬Refused (m.registration env) s.server.db data)
    (hstep : s.step env (m, .request ep request) = some s') : ∃ e, e.id = m.rt.uuid ∧ e.email = data.email ∧
      e.username = data.username ∧ Stranded (verifyToken m m.rt.uuid) s' e := by
  obtain ⟨e, db, hreg, hid, hadded, hmailed⟩ := mailed_committed hcommits
  have hnew : ¬s.server.db.accounts.Registered e.id := by
    rintro ⟨y, hy, hya⟩
    exact hcommits (.id (hid ▸ hya ▸ List.mem_map_of_mem hy))
  have hs : s' = { s.withDb db with minted := verifyToken m e.id ++ s.minted } := by
    have hcommand : ep.command env.toTokenEnv m.checks m.seconds request = .ok (.register data) := hcommand
    have hattempt : s.attempt env m (.register data) = s.execute env m (.register data) := attempt_of_nil rfl
    simp only [step, respond, hcommand, hattempt, execute, hreg, hmailed, Option.map_some] at hstep
    exact (Option.some.inj hstep).symm
  refine ⟨e, hid, hadded.email, hadded.username, ?_⟩
  rw [hs, ← hid]
  constructor
  case row =>
    show e ∈ db.accounts.rows
    rw [hadded.rows]
    exact List.mem_append_right _ List.mem_cons_self
  case status => exact hadded.status
  case tokens =>
    intro k hk hka
    rcases List.mem_append.mp hk with hk | hk
    · exact hk
    · exact absurd (hka ▸ hintact.tokens.registered k hk) hnew
  case sessions =>
    intro x hx hxa
    have hx : x ∈ db.sessions := hx
    rw [hadded.rest] at hx
    exact hnew (hxa ▸ (hintact.parties.sound.active _ (Or.inl ⟨x, hx, rfl⟩)).registered)
  case sockets => exact fun c hc hca => hnew (hca ▸ hintact.owners c hc)

/-- What nobody can do. -/
theorem Stranded.alone (h : Stranded lost s e) (hunforged : s.Unforged env l) (hmissing : Missing env lost l) :
    ¬PresentsToken env e.id l ∧ ¬s.ActsFor env e.id l ∧ ∀ email, ¬GivesPassword env e.id email s l := by
  refine ⟨fun hp => ?_, fun ha => ?_, fun email hg => ?_⟩
  · cases hp with
    | verify hcommand => exact h.not_commanded hunforged hmissing hcommand rfl rfl
  · cases ha with
    | request hcommand huser htype => exact h.not_commanded hunforged hmissing hcommand huser rfl
    | connects htoken huser => exact h.not_connected hunforged hmissing htoken huser
    | disconnects hclient hsub => exact h.sockets _ hclient hsub
    | socket hclient hsub => exact h.sockets _ hclient hsub
  · cases hg with
    | login hcommand haccepts hid hemail => exact h.not_accepted haccepts hid

end Step

/-- **An account whose token is lost is lost, and its email and username with it.** In every run in which no token is
forged: after a registration that has committed, whether the signer and the mailer have thrown or not, and after any
events that follow without its token, the account is as it was. Nobody can act for it or give its password, and every
registration with its email or its username is refused. -/
theorem lost_stranded (env : BackendEnv) (before after : List (Moment × BackendEvent)) (m : Moment) (ep : Endpoint)
    (request : Request) (data : RegisterDto) (s s' : Backend)
    (hunforged : Along (step env) (Unforged env) start (before ++ (m, .request ep request) :: after))
    (hbefore : run (step env) start before = some s) (hcommand : Commands env m ep request (.register data))
    (hcommits : ¬Refused (m.registration env) s.server.db data)
    (hmissing : ∀ l ∈ after, Missing env (verifyToken m m.rt.uuid) l)
    (hafter : run (step env) s ((m, .request ep request) :: after) = some s') :
    ∃ e, e.id = m.rt.uuid ∧ e.email = data.email ∧ e.username = data.username ∧
      Stranded (verifyToken m m.rt.uuid) s' e ∧
      (∀ l, s'.Unforged env l → Missing env (verifyToken m m.rt.uuid) l →
        ¬PresentsToken env e.id l ∧ ¬s'.ActsFor env e.id l ∧ ∀ email, ¬GivesPassword env e.id email s' l) ∧
      ∀ (env' : RegisterEnv) (data' : RegisterDto), data'.email = e.email ∨ data'.username = e.username →
        ∃ x, AuthService.register env' s'.server.db data' = (.error x, s'.server.db) := by
  obtain ⟨hbefore', hrest⟩ := along_append.mp hunforged
  obtain ⟨-, hunforged'⟩ := hrest s hbefore
  obtain ⟨t, hstep, hrun⟩ := run_cons.mp hafter
  obtain ⟨e, hid, hemail, husername, ht⟩ := registers_stranded (intact_run hbefore' hbefore) hcommand hcommits hstep
  have hs : Stranded (verifyToken m m.rt.uuid) s' e :=
    run_inv (fun _ _ _ h hc hs => step_stranded h hc.1 hc.2 hs) ht
      ((hunforged' t hstep).and (along_of_mem t hmissing)) hrun
  refine ⟨e, hid, hemail, husername, hs, fun l hl hmissing => hs.alone hl hmissing, fun env' data' hkey => ?_⟩
  exact register_refused (.taken hs.row (hkey.imp Eq.symm Eq.symm))

/-- alice has no account while she has no mail, though bob has one and she tries to log in. -/
theorem lost_stranded_sample : ∃ s' e,
    run (step sampleEnv) start [bobRegisters, aliceUnsent, aliceLogsIn] = some s' ∧ e.email = "alice@mail.test" ∧
      Stranded (verifyToken aliceUnsent.1 aliceId) s' e := by
  have hunforged : Along (step sampleEnv) (Unforged sampleEnv) start
      ([bobRegisters] ++ aliceUnsent :: [aliceLogsIn]) :=
    along_cons rfl (unforged_of_nothing rfl)
      (along_cons rfl (unforged_of_nothing rfl) (along_cons rfl (unforged_of_nothing rfl) trivial))
  have hmissing : ∀ l ∈ [aliceLogsIn], Missing sampleEnv (verifyToken aliceUnsent.1 aliceId) l := by
    intro l hl k _ hk
    rw [List.mem_singleton.mp hl] at hk
    cases BackendEvent.presents_nothing rfl _ hk
  have hcommits : ∀ s, run (step sampleEnv) start [bobRegisters] = some s →
      ¬Refused (aliceUnsent.1.registration sampleEnv) s.server.db
        { email := "alice@mail.test", password := .str "alice", username := "alice", dateOfBirth := "2000-01-01" } := by
    rintro s ⟨⟩ (h | ⟨he, hkey⟩ | h | h | h | h | h)
    · exact h (by decide)
    · rw [List.mem_singleton.mp he] at hkey
      exact absurd hkey (by decide)
    · cases h
    · cases h
    · exact h (by decide)
    · cases h
    · exact absurd h (by decide)
  obtain ⟨e, -, hemail, -, hs, -⟩ := lost_stranded sampleEnv [bobRegisters] [aliceLogsIn] aliceUnsent.1
    .register _ _ _ _
    hunforged rfl rfl (hcommits _ rfl) hmissing rfl
  exact ⟨_, e, rfl, hemail, hs⟩

end Backend

end DiscordClone
