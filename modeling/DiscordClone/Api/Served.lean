import DiscordClone.Api.Errors

/-!
# What a token is good for

A login and a refresh answer with two tokens. Until the access token expires it opens, in every state that follows and
whatever else happens, all that its account can ask for itself, and every such request succeeds (`token_serves`): the
account is ACTIVE and stays so, its settings can be read, and a missing session is no error.
-/

namespace DiscordClone

open Machine AuthState

/-- The requests of an account about itself, which need nothing but the account. -/
inductive Endpoint.Own (a : String) : Endpoint → Prop
  | logout : Own a .logout
  | getMe : Own a .getMe
  | getFriends : Own a (.getFriends a)
  | getPendingFriendRequest : Own a (.getPendingFriendRequest a)
  | getBlockedUsers : Own a (.getBlockedUsers a)
  | unpinDirectMessage (target : String) : Own a (.unpinDirectMessage a target)

/-- The commands that come of them. -/
inductive Command.Own (a : String) : Command → Prop
  | logout : Own a (.logout a)
  | getMe : Own a (.getMe a)
  | getFriends : Own a (.getFriends a)
  | getPendingFriendRequest : Own a (.getPendingFriendRequest a)
  | getBlockedUsers : Own a (.getBlockedUsers a)
  | unpinDirectMessage (target : String) : Own a (.unpinDirectMessage a target)

/-- A logout runs to its end. -/
theorem logout_total (env : AuthEnv) (now pick pick' : Nat) (sessions : List Session) (ids : List String)
    (uuid a : String) : ∃ t, alone env (idle now sessions ids) (.logout a pick) pick' uuid = some t := by
  simp only [alone, authStep, AuthService.logout, Option.bind_some]
  split
  · exact ⟨_, toEnd_answered (answered_answer rfl _) _⟩
  · rename_i x hf
    exact ⟨_, toEnd_write rfl (delete_of_mem (findFirst_account hf).1) rfl _⟩

namespace Backend

variable {env : BackendEnv} {s s' : Backend} {l : Moment × BackendEvent} {m : Moment} {ep : Endpoint}
  {request : Request}
  {a : String}

/-- A token that has left the server has left it. -/
theorem step_minted {k : Minted} (hk : k ∈ s.minted) (hstep : s.step env l = some s') : k ∈ s'.minted := by
  cases step_change hstep with
  | registers hcommand hcommits hid hadded => exact List.mem_append_right _ hk
  | logsIn hcommand haccepts hcall hresults => exact List.mem_append_right _ hk
  | refreshes hcommand hsession hcall hresults => exact List.mem_append_right _ hk
  | logsOut hcommand hcall => exact hk
  | _ => exact hk

/-- A request whose command succeeds. -/
theorem respond_ok {c : Command} {payload : Payload} (hcommand : Commands env m ep request c)
    (hqueried : s.queried c = []) (hexec : s.execute env m c = some (.ok payload, s')) :
    s.respond env m ep request = some (.ok (ep.statusCode, payload), s') := by
  have hcommand : ep.command env.toTokenEnv m.checks m.seconds request = .ok c := hcommand
  simp only [respond, hcommand, attempt_of_nil hqueried, hexec, Option.map_some]
  rfl

/-- What the guard and the controller make of an own request. -/
theorem own_command (hown : ep.Own a)
    (hauth : JwtAtStrategy.authenticate env.jwt env.config.get m.seconds request = .ok ⟨a, .ACCESS⟩) :
    ∃ c : Command, Commands env m ep request c ∧ c.Own a := by
  have hguard : ∀ (handler : String → Except Exception Command) (c : Command), handler a = .ok c →
      JwtAtStrategy.guard env.toTokenEnv m.seconds request handler = .ok c := by
    intro handler c hc
    simp only [JwtStrategy.guard, hauth, hc]
    rfl
  have hself : ∀ {c : Command}, (do
      authenticateAccount a a
      pure c) = (.ok c : Except Exception Command) := by
    intro c
    rw [authenticateAccount, if_neg (not_not.mpr rfl)]
    rfl
  cases hown with
  | logout => exact ⟨_, hguard AuthController.logout _ rfl, .logout⟩
  | getMe => exact ⟨_, hguard UserController.getMe _ rfl, .getMe⟩
  | getFriends => exact ⟨_, hguard (UserController.getFriends · a) _ hself, .getFriends⟩
  | getPendingFriendRequest =>
    exact ⟨_, hguard (UserController.getPendingFriendRequest · a) _ hself, .getPendingFriendRequest⟩
  | getBlockedUsers => exact ⟨_, hguard (UserController.getBlockedUsers · a) _ hself, .getBlockedUsers⟩
  | unpinDirectMessage target =>
    exact ⟨_, hguard (UserSettingsController.unpinDirectMessage · target a) _ hself, .unpinDirectMessage target⟩

/-- What the services make of it. -/
theorem own_executes (h : Intact env s) (hactive : s.server.db.accounts.Active a) {c : Command} (hown : c.Own a) :
    ∃ payload s', s.execute env m c = some (.ok payload, s') := by
  cases hown with
  | logout =>
    obtain ⟨t, ht⟩ := logout_total (env.server.auth s.server.db.accounts) 0 m.pick m.pick s.server.db.sessions
      s.server.ids
      "" a
    refine ⟨.nothing, s.after t [], ?_⟩
    simp only [execute, call, ht, Option.bind_some, logout_answer ht]
    rfl
  | getMe =>
    obtain ⟨me, hme⟩ := getMe_ok h.settings hactive.registered m.findMany
    exact ⟨.me me, s, by simp only [execute, hme]; rfl⟩
  | getFriends =>
    obtain ⟨users, husers⟩ := getFriends_ok hactive.registered
    exact ⟨.friends users, s, by simp only [execute, husers]; rfl⟩
  | getPendingFriendRequest =>
    obtain ⟨requests, hrequests⟩ := getPendingFriendRequest_ok hactive.registered
    exact ⟨.friendRequests requests, s, by simp only [execute, hrequests]; rfl⟩
  | getBlockedUsers =>
    obtain ⟨users, husers⟩ := getBlockedUsers_ok hactive.registered
    exact ⟨.blocked users, s, by simp only [execute, husers]; rfl⟩
  | unpinDirectMessage target =>
    obtain ⟨r, hr⟩ := unpin_total h.settings hactive target
    exact ⟨.nothing, _, by simp only [execute, hr]; rfl⟩

/-- It compares no text of the client. -/
theorem own_queried {c : Command} (hown : c.Own a) : s.queried c = [] := by
  cases hown <;> rfl

/-- Only a login and a refresh give out tokens, and they are new. -/
theorem execute_tokens {c : Command} {accessToken refreshToken : String}
    (h : s.execute env m c = some (.ok (.tokens accessToken refreshToken), s')) :
    ∃ a, accessToken = Minted.token env.toTokenEnv ⟨m.seconds, .ACCESS, a⟩ ∧ ⟨m.seconds, .ACCESS, a⟩ ∈ s'.minted := by
  have hother : ∀ {α : Type} {x : Except Exception α} {f : α → Payload} {t : Backend},
      (∀ v, f v ≠ .tokens accessToken refreshToken) →
      some (x.map f, t) ≠ some (.ok (.tokens accessToken refreshToken), s') := by
    intro α x f t hf heq
    cases x with
    | error e => cases heq
    | ok v => exact hf v (Except.ok.inj (Prod.mk.inj (Option.some.inj heq)).1)
  cases c with
  | login data =>
    obtain ⟨t, x, hcall, hx, hr⟩ := call_cases h
    rcases login_answer hcall with ⟨-, -, -, y, -, hresults⟩ | ⟨e, -, hresults⟩
    · rw [hresults] at hx
      cases hx
      cases hr
    · rw [hresults] at hx
      cases hx
      cases hr
      exact ⟨e.id, rfl, List.mem_cons_self⟩
  | refresh data a =>
    obtain ⟨t, x, hcall, hx, hr⟩ := call_cases h
    rcases refresh_answer hcall with ⟨-, -, y, -, hresults⟩ | ⟨-, hresults⟩
    · rw [hresults] at hx
      cases hx
      cases hr
    · rw [hresults] at hx
      cases hx
      cases hr
      exact ⟨a, rfl, List.mem_cons_self⟩
  | logout a =>
    obtain ⟨t, x, hcall, hx, hr⟩ := call_cases h
    rw [logout_answer hcall] at hx
    cases hx
    cases hr
  | verify a =>
    simp only [execute] at h
    split at h <;> cases h
  | relationship c =>
    simp only [execute] at h
    cases hx : c.exec s.server.db.accounts s.server.db.relationships <;> rw [hx] at h <;> cases h
  | unpinDirectMessage a target =>
    simp only [execute] at h
    cases hx : (UserSettingsService.unpinDirectMessage s.server.db a target).run s.server.db.settings <;>
      rw [hx] at h <;> cases h
  | _ => exact absurd h (hother (by simp))

/-- The tokens of a response. -/
theorem respond_tokens {status : Nat} {accessToken refreshToken : String}
    (h : s.respond env m ep request = some (.ok (status, .tokens accessToken refreshToken), s')) :
    ∃ a, accessToken = Minted.token env.toTokenEnv ⟨m.seconds, .ACCESS, a⟩ ∧ ⟨m.seconds, .ACCESS, a⟩ ∈ s'.minted := by
  unfold respond at h
  split at h
  · cases h
  · obtain ⟨⟨result, t⟩, hattempt, hr⟩ := Option.map_eq_some_iff.mp h
    cases result with
    | error e => cases hr
    | ok payload =>
      cases hr
      rcases attempt_cases hattempt with ⟨-, hexec⟩ | ⟨-, herr⟩
      · exact execute_tokens hexec
      · cases herr

/-- **A token opens all that its account can ask for itself, until it expires.** In every run in which no token is
forged: take the access token of any response, any events that follow, and any moment at which it has not expired. Every
own request of its account that shows it succeeds. The keys of the configuration have to be a pair. -/
theorem token_serves (env : BackendEnv) (before after : List (Moment × BackendEvent)) (m : Moment) (ep : Endpoint)
    (request : Request) (s s₁ s' : Backend) (status : Nat) (accessToken refreshToken : String)
    (hunforged : Along (step env) (Unforged env) start (before ++ (m, .request ep request) :: after))
    (hbefore : run (step env) start before = some s)
    (hrespond : s.respond env m ep request = some (.ok (status, .tokens accessToken refreshToken), s₁))
    (hafter : run (step env) s₁ after = some s')
    (hkeys : env.jwt.belongs (env.config.secret .ACCESS) (env.config.get "JWT_AT_PUBLIC") = true) :
    ∃ a, accessToken = Minted.token env.toTokenEnv ⟨m.seconds, .ACCESS, a⟩ ∧
      ∀ (m' : Moment) (ep' : Endpoint) (request' : Request), ep'.Own a → request'.bearer = some accessToken →
        env.jwt.expired (env.config.expires .ACCESS) m.seconds m'.seconds = false →
        ∃ payload s'', s'.respond env m' ep' request' = some (.ok (ep'.statusCode, payload), s'') := by
  obtain ⟨a, htoken, hminted⟩ := respond_tokens hrespond
  refine ⟨a, htoken, fun m' ep' request' hown hbearer halive => ?_⟩
  have hstep : s.step env (m, .request ep request) = some s₁ := by rw [step, hrespond, Option.map_some]
  have hrun : run (step env) start (before ++ (m, .request ep request) :: after) = some s' :=
    run_append.mpr ⟨s, hbefore, run_cons.mpr ⟨s₁, hstep, hafter⟩⟩
  have hintact := intact_run hunforged hrun
  have hheld : ⟨m.seconds, .ACCESS, a⟩ ∈ s'.minted := run_inv' (fun _ _ _ hk hs => step_minted hk hs) hminted hafter
  have hactive : s'.server.db.accounts.Active a := hintact.tokens.active _ hheld (by simp)
  have hauth : JwtAtStrategy.authenticate env.jwt env.config.get m'.seconds request' = .ok ⟨a, .ACCESS⟩ := by
    have hextract : JwtAtStrategy.jwtFromRequest.extract request' = some (.str accessToken) := by
      rw [JwtAtStrategy, ExtractJwt.extract, hbearer, Option.map_some]
    have hverifies : Verifies env.jwt env.config JwtAtStrategy.secretOrKey .ACCESS m.seconds m'.seconds :=
      ⟨hkeys, halive⟩
    rw [JwtStrategy.authenticate, hextract, htoken, Minted.token, check_signToken, if_pos hverifies]
    rfl
  obtain ⟨c, hcommand, hc⟩ := own_command hown hauth
  obtain ⟨payload, s'', hexec⟩ := own_executes hintact hactive hc
  exact ⟨payload, s'', respond_ok hcommand (own_queried hc) hexec⟩

/-- alice logs in, and asks for her account nine minutes later. -/
theorem token_serves_sample : ∃ payload s'', withAlice.respond sampleEnv { sampleMoment "" with seconds := 540 } .getMe
    { bearer := some (aliceToken .ACCESS) } = some (.ok (200, payload), s'') := by
  obtain ⟨a, -, h⟩ := token_serves sampleEnv [aliceRegisters, aliceVerifies] [] aliceLogsIn.1
    .login _ _ withAlice withAlice
    200 (aliceToken .ACCESS) (aliceToken .REFRESH) aliceComes_unforged rfl rfl rfl rfl
  exact h { sampleMoment "" with seconds := 540 } .getMe _ .getMe rfl rfl

end Backend

end DiscordClone
