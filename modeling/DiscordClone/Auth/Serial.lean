import DiscordClone.Auth.Steps

/-!
# Calls that run alone

A call of the service that is made while no other waits, and goes on until it has answered (`alone`). Each of the calls
has one lemma that says what it does to the sessions and which access token it issues: `login_alone`, `refresh_alone`,
`logout_alone` and `status_alone`. In every case the call has ended (`Answered`).

Calls that run alone leave an account one session at most (`OnePerAccount`).
-/

namespace DiscordClone

namespace AuthState

/-- The service while no call waits. -/
def idle (now : Nat) (sessions : List Session) (ids : List String) : AuthState :=
  { init now with sessions := sessions, ids := ids }

/-- The first call goes on until it has answered, with at most this many requests. -/
def toEnd (pick : Nat) (uuid : String) : Nat → AuthState → Option AuthState
  | 0, s => some s
  | n + 1, s =>
    match s.calls[0]?.join with
    | none => some s
    | some c => (AuthService.resume s 0 pick uuid c).bind (toEnd pick uuid n)

/-- A call that runs alone; a login makes two requests after its first one, and no call makes more. -/
def alone (env : AuthEnv) (s : AuthState) (e : AuthEvent) (pick : Nat) (uuid : String) : Option AuthState :=
  (authStep env s e).bind (toEnd pick uuid 2)

/-- The first call has answered. -/
def Answered (s : AuthState) : Prop := s.calls = [none]

/-- The access tokens that the calls have answered with, with their accounts. -/
def issued (s : AuthState) : List (String × String) :=
  s.results.filterMap fun
    | .login a accessToken _ | .refresh a accessToken _ => some (a, accessToken)
    | _ => none

end AuthState

/-- A login passes its checks with this account. -/
def AuthEnv.Accepts (env : AuthEnv) (data : LoginDto) (e : Account) : Prop :=
  (env.accounts.findFirst fun e => e.email = data.email) = some e ∧ e.status = .ACTIVE ∧
    env.compareSync data.password e.password = true

/-- An id and an account have one session at most, and the ids in use have been drawn. -/
structure OnePerAccount (sessions : List Session) (ids : List String) : Prop where
  drawn : ∀ x ∈ sessions, x.id ∈ ids
  ids_nodup : (sessions.map Session.id).Nodup
  accounts_nodup : (sessions.map Session.accountId).Nodup

/-! ## What the calls do -/

section Alone

open AuthState

variable {env : AuthEnv} {now pick pick' : Nat} {sessions : List Session} {ids : List String} {uuid : String}
  {t : AuthState}

/-- An update of a session that has just been read finds it. -/
theorem update_of_mem {x : Session} (hx : x ∈ sessions) (f : Session → Session) :
    Session.update sessions x.id f = .ok (sessions.map fun y => if y.id = x.id then f y else y) := by
  rcases update_cases sessions x.id f with ⟨-, hu⟩ | ⟨hn, -⟩
  · exact hu
  · exact absurd rfl (hn x hx)

/-- A delete of a session that has just been read finds it. -/
theorem delete_of_mem {x : Session} (hx : x ∈ sessions) :
    Session.delete sessions x.id = .ok (sessions.filter fun y => y.id ≠ x.id) := by
  rcases delete_cases sessions x.id with hd | ⟨hn, -⟩
  · exact hd
  · exact absurd rfl (hn x hx)

theorem answered_answer {s : AuthState} (hs : s.calls = []) (r : AuthResult) : (s.answer r).Answered := by
  rw [Answered, answer, hs]
  rfl

theorem answered_finishWrite {s : AuthState} (hs : s.calls = []) (c : AuthCall) (r : AuthResult)
    (w : Except Exception (List Session)) : ((s.wait c).finishWrite 0 r w).Answered := by
  cases w <;> simp [Answered, finishWrite, finish, wait, hs]

/-- A call that has answered is at its end. -/
theorem toEnd_answered (h : t.Answered) (n : Nat) : toEnd pick uuid n t = some t := by
  cases n with
  | zero => rfl
  | succ n => simp [toEnd, show t.calls = [none] from h]

/-- A call that waits makes its next request. -/
theorem toEnd_wait {s : AuthState} (hs : s.calls = []) (c : AuthCall) (n : Nat) :
    toEnd pick uuid (n + 1) (s.wait c) =
      (AuthService.resume (s.wait c) 0 pick uuid c).bind (toEnd pick uuid n) := by
  simp [toEnd, wait, hs]

/-- A call that goes on waits for its next request. -/
theorem goOn_wait {s : AuthState} (hs : s.calls = []) (c c' : AuthCall) : (s.wait c).goOn 0 c' = s.wait c' := by
  simp [goOn, wait, hs]

/-- A call whose last request is a write that finds its session. -/
theorem toEnd_write {s : AuthState} (hs : s.calls = []) {c : AuthCall} {r : AuthResult}
    {w : Except Exception (List Session)} (hw : w = .ok sessions)
    (h : AuthService.resume (s.wait c) 0 pick uuid c = some ((s.wait c).finishWrite 0 r w)) (n : Nat) :
    toEnd pick uuid (n + 1) (s.wait c) = some { (s.wait c).finish 0 r with sessions := sessions } := by
  rw [toEnd_wait hs, h, Option.bind_some, toEnd_answered (answered_finishWrite hs c r w), hw]
  rfl

/-- A change of the connection writes the session of the account, if there is one. -/
theorem status_alone {a : String} {status : ConnectionStatus}
    (h : alone env (idle now sessions ids) (.updateConnectionStatus a status pick) pick' uuid = some t) :
    t.Answered ∧ t.ids = ids ∧ t.issued = [] ∧
      ((∀ x ∈ sessions, x.accountId ≠ a) ∧ t.sessions = sessions ∨
        ∃ x ∈ sessions, x.accountId = a ∧ t.sessions = sessions.map (Session.mark x.id status)) := by
  simp only [alone, authStep, AuthService.updateConnectionStatus, Option.bind_some] at h
  split at h
  · rename_i hf
    rw [toEnd_answered (answered_answer rfl _)] at h
    cases h
    exact ⟨rfl, rfl, rfl, Or.inl ⟨fun x hx => by simpa using findFirst_none hf x hx, rfl⟩⟩
  · rename_i x hf
    obtain ⟨hx, ha⟩ := findFirst_account hf
    rw [toEnd_write rfl (update_of_mem hx fun y => { y with connectionStatus := status }) rfl] at h
    cases h
    exact ⟨rfl, rfl, rfl, Or.inr ⟨x, hx, ha, rfl⟩⟩

/-- A logout deletes the session of the account, if there is one. -/
theorem logout_alone {a : String} (h : alone env (idle now sessions ids) (.logout a pick) pick' uuid = some t) :
    t.Answered ∧ t.ids = ids ∧ t.issued = [] ∧
      ((∀ x ∈ sessions, x.accountId ≠ a) ∧ t.sessions = sessions ∨
        ∃ x ∈ sessions, x.accountId = a ∧ t.sessions = sessions.filter fun y => y.id ≠ x.id) := by
  simp only [alone, authStep, AuthService.logout, Option.bind_some] at h
  split at h
  · rename_i hf
    rw [toEnd_answered (answered_answer rfl _)] at h
    cases h
    exact ⟨rfl, rfl, rfl, Or.inl ⟨fun x hx => by simpa using findFirst_none hf x hx, rfl⟩⟩
  · rename_i x hf
    obtain ⟨hx, ha⟩ := findFirst_account hf
    rw [toEnd_write rfl (delete_of_mem hx) rfl] at h
    cases h
    exact ⟨rfl, rfl, rfl, Or.inr ⟨x, hx, ha, rfl⟩⟩

/-- A refresh stores a new token in a session that has the presented one, if there is one. -/
theorem refresh_alone {data : RefreshDto} {a : String}
    (h : alone env (idle now sessions ids) (.refresh data a pick) pick' uuid = some t) :
    t.Answered ∧ t.ids = ids ∧
      (t.issued = [] ∧ t.sessions = sessions ∨
        ∃ x ∈ sessions, x.accountId = a ∧ x.refreshToken = data.refreshToken ∧
          t.sessions = sessions.map (Session.store x.id (refreshTokenAt env now a)) ∧
          t.issued = [(a, signToken env.jwt env.config now .ACCESS a)]) := by
  simp only [alone, authStep, AuthService.refresh, Option.bind_some] at h
  split at h
  · rw [toEnd_answered (answered_answer rfl _)] at h
    cases h
    exact ⟨rfl, rfl, Or.inl ⟨rfl, rfl⟩⟩
  · rename_i x hf
    obtain ⟨hx, rfl, ht⟩ := findFirst_token hf
    rw [toEnd_write rfl (update_of_mem hx fun y =>
      { y with refreshToken := signToken env.jwt env.config now .REFRESH x.accountId }) rfl] at h
    cases h
    exact ⟨rfl, rfl, Or.inr ⟨x, hx, rfl, ht, rfl, rfl⟩⟩

/-- **What a login does first**: it fails, or it waits for the session of an account that passes the checks. -/
theorem login_cases (env : AuthEnv) (s : AuthState) (data : LoginDto) :
    (∀ e, ¬env.Accepts data e) ∧ (∃ m, AuthService.login env s data = s.answer (.failed m)) ∨
      ∃ e, env.Accepts data e ∧ AuthService.login env s data =
        s.wait (.loginFind e.id (signToken env.jwt env.config s.now .ACCESS e.id)
          (signToken env.jwt env.config s.now .REFRESH e.id)) := by
  unfold AuthService.login
  split
  · rename_i hf
    refine Or.inl ⟨fun e he => ?_, _, rfl⟩
    cases hf.symm.trans he.1
  · rename_i e hf
    have hunique : ∀ e', env.Accepts data e' → e' = e := fun e' he' => Option.some.inj (he'.1.symm.trans hf)
    split_ifs with hs hp
    · exact Or.inl ⟨fun e' he' => hs (hunique e' he' ▸ he'.2.1), _, rfl⟩
    · refine Or.inl ⟨fun e' he' => ?_, _, rfl⟩
      have hpass := he'.2.2
      rw [hunique e' he'] at hpass
      simp [hpass] at hp
    · exact Or.inr ⟨e, ⟨hf, not_not.mp hs, by simpa using hp⟩, rfl⟩

/-- The two requests of a login that has passed the checks: it looks for a session, and stores its token in it or in a
new one. -/
theorem loginFind_alone {a accessToken refreshToken : String}
    (h : toEnd pick uuid 2 ((idle now sessions ids).wait (.loginFind a accessToken refreshToken)) = some t) :
    t.Answered ∧ t.issued = [(a, accessToken)] ∧
      ((∃ x ∈ sessions, x.accountId = a ∧ t.ids = ids ∧ t.sessions = sessions.map (Session.store x.id refreshToken)) ∨
        (∀ x ∈ sessions, x.accountId ≠ a) ∧ uuid ∉ ids ∧ t.ids = uuid :: ids ∧
          t.sessions = sessions ++ [{ id := uuid, accountId := a, refreshToken := refreshToken }]) := by
  rw [toEnd_wait rfl] at h
  simp only [AuthService.resume] at h
  split at h
  · rename_i x hf
    obtain ⟨hx, ha⟩ := findFirst_account hf
    rw [Option.bind_some, goOn_wait rfl,
      toEnd_write rfl (update_of_mem hx fun y => { y with refreshToken := refreshToken }) rfl] at h
    cases h
    exact ⟨rfl, rfl, Or.inl ⟨x, hx, ha, rfl, rfl⟩⟩
  · rename_i hf
    rw [Option.bind_some, goOn_wait rfl, toEnd_wait rfl] at h
    simp only [AuthService.resume] at h
    split at h
    · cases h
    · rename_i hu
      cases h
      have hnone : ∀ x ∈ sessions, x.accountId ≠ a := fun x hx => by simpa using findFirst_none hf x hx
      exact ⟨rfl, rfl, Or.inr ⟨hnone, hu, rfl, rfl⟩⟩

/-- A login stores its token in a session of the account, or creates one when there is none. -/
theorem login_alone {data : LoginDto} (h : alone env (idle now sessions ids) (.login data) pick uuid = some t) :
    t.Answered ∧
      ((∀ e, ¬env.Accepts data e) ∧ t.ids = ids ∧ t.issued = [] ∧ t.sessions = sessions ∨
        ∃ e, env.Accepts data e ∧ t.issued = [(e.id, signToken env.jwt env.config now .ACCESS e.id)] ∧
          ((∃ x ∈ sessions, x.accountId = e.id ∧ t.ids = ids ∧
              t.sessions = sessions.map (Session.store x.id (refreshTokenAt env now e.id))) ∨
            (∀ x ∈ sessions, x.accountId ≠ e.id) ∧ uuid ∉ ids ∧ t.ids = uuid :: ids ∧
              t.sessions =
                sessions ++ [{ id := uuid, accountId := e.id, refreshToken := refreshTokenAt env now e.id }])) := by
  simp only [alone, authStep, Option.bind_some] at h
  rcases login_cases env (idle now sessions ids) data with ⟨hno, m, hlogin⟩ | ⟨e, hacc, hlogin⟩
  · rw [hlogin, toEnd_answered (answered_answer rfl _)] at h
    cases h
    exact ⟨rfl, Or.inl ⟨hno, rfl, rfl, rfl⟩⟩
  · rw [hlogin] at h
    obtain ⟨hans, hissued, hcases⟩ := loginFind_alone h
    exact ⟨hans, Or.inr ⟨e, hacc, hissued, hcases⟩⟩

end Alone

/-! ## One session for an account -/

namespace OnePerAccount

variable {sessions : List Session} {ids : List String}

theorem nil : OnePerAccount [] [] := ⟨nofun, List.nodup_nil, List.nodup_nil⟩

/-- A write of another column keeps the sessions apart. -/
theorem map (h : OnePerAccount sessions ids) {f : Session → Session} (hf : ∀ x, (f x).key = x.key) :
    OnePerAccount (sessions.map f) ids := by
  have hid : Session.id ∘ f = Session.id := funext fun x => (Prod.mk.inj (hf x)).1
  have haccount : Session.accountId ∘ f = Session.accountId := funext fun x => (Prod.mk.inj (hf x)).2
  refine ⟨fun x hx => ?_, ?_, ?_⟩
  · obtain ⟨y, hy, rfl⟩ := List.mem_map.mp hx
    rw [show (f y).id = y.id from congrFun hid y]
    exact h.drawn y hy
  · rw [List.map_map, hid]
    exact h.ids_nodup
  · rw [List.map_map, haccount]
    exact h.accounts_nodup

theorem filter (h : OnePerAccount sessions ids) (p : Session → Bool) : OnePerAccount (sessions.filter p) ids where
  drawn x hx := h.drawn x (List.mem_filter.mp hx).1
  ids_nodup := h.ids_nodup.sublist (List.filter_sublist.map _)
  accounts_nodup := h.accounts_nodup.sublist (List.filter_sublist.map _)

/-- A new session of an account without one. -/
theorem create (h : OnePerAccount sessions ids) {x : Session} (hid : x.id ∉ ids)
    (hx : ∀ y ∈ sessions, y.accountId ≠ x.accountId) : OnePerAccount (sessions ++ [x]) (x.id :: ids) := by
  refine ⟨fun y hy => ?_, ?_, ?_⟩
  · rcases List.mem_append.mp hy with hy | hy
    · exact List.mem_cons_of_mem _ (h.drawn y hy)
    · rw [List.mem_singleton.mp hy]
      exact List.mem_cons_self
  · rw [List.map_append, List.map_singleton, ← List.concat_eq_append]
    refine h.ids_nodup.concat fun hmem => ?_
    obtain ⟨y, hy, he⟩ := List.mem_map.mp hmem
    exact hid (he ▸ h.drawn y hy)
  · rw [List.map_append, List.map_singleton, ← List.concat_eq_append]
    refine h.accounts_nodup.concat fun hmem => ?_
    obtain ⟨y, hy, he⟩ := List.mem_map.mp hmem
    exact hx y hy he

/-- The session of an account is the one with its id. -/
theorem account_inj (h : OnePerAccount sessions ids) {x y : Session} (hx : x ∈ sessions) (hy : y ∈ sessions) :
    x.id = y.id ↔ x.accountId = y.accountId := by
  constructor
  · intro he
    rw [List.inj_on_of_nodup_map h.ids_nodup hx hy he]
  · intro he
    rw [List.inj_on_of_nodup_map h.accounts_nodup hx hy he]

end OnePerAccount

/-- What a call that runs alone does to the sessions and their ids: it writes them, deletes some, or creates one for an
ACTIVE account that has none. -/
inductive SessionsStep (accounts : Accounts) (sessions : List Session) (ids : List String) :
    List Session → List String → Prop
  | wrote {f : Session → Session} (hf : ∀ x, (f x).key = x.key) :
    SessionsStep accounts sessions ids (sessions.map f) ids
  | deleted (p : Session → Bool) : SessionsStep accounts sessions ids (sessions.filter p) ids
  | created {x : Session} (hid : x.id ∉ ids) (hx : ∀ y ∈ sessions, y.accountId ≠ x.accountId)
      (ha : accounts.Active x.accountId) : SessionsStep accounts sessions ids (sessions ++ [x]) (x.id :: ids)

namespace SessionsStep

variable {accounts : Accounts} {sessions sessions' : List Session} {ids ids' : List String}

theorem same (accounts : Accounts) (sessions : List Session) (ids : List String) :
    SessionsStep accounts sessions ids sessions ids := by
  have h : SessionsStep accounts sessions ids (sessions.map id) ids := .wrote fun _ => rfl
  rwa [List.map_id] at h

theorem onePerAccount (h : SessionsStep accounts sessions ids sessions' ids') (ho : OnePerAccount sessions ids) :
    OnePerAccount sessions' ids' := by
  cases h with
  | wrote hf => exact ho.map hf
  | deleted p => exact ho.filter p
  | created hid hx => exact ho.create hid hx

/-- A session belongs to an account that has had one, or to an ACTIVE one. -/
theorem owner (h : SessionsStep accounts sessions ids sessions' ids') {x : Session} (hx : x ∈ sessions') :
    (∃ y ∈ sessions, y.accountId = x.accountId) ∨ accounts.Active x.accountId := by
  cases h with
  | wrote hf =>
    obtain ⟨y, hy, rfl⟩ := List.mem_map.mp hx
    exact Or.inl ⟨y, hy, (Prod.mk.inj (hf y)).2.symm⟩
  | deleted p => exact Or.inl ⟨x, (List.mem_filter.mp hx).1, rfl⟩
  | created hid hn ha =>
    rcases List.mem_append.mp hx with hx | hx
    · exact Or.inl ⟨x, hx, rfl⟩
    · rw [List.mem_singleton.mp hx]
      exact Or.inr ha

end SessionsStep

/-- An account that a login accepts is ACTIVE. -/
theorem AuthEnv.Accepts.active {env : AuthEnv} {data : LoginDto} {e : Account} (h : env.Accepts data e) :
    env.accounts.Active e.id := ⟨e, List.mem_of_find?_eq_some h.1, rfl, h.2.1⟩

/-- **What a call that runs alone does**: a step of the sessions, and it issues an access token to an account that has a
session or is ACTIVE. -/
theorem alone_cases {env : AuthEnv} {now pick : Nat} {sessions : List Session} {ids : List String} {uuid : String}
    {t : AuthState} {e : AuthEvent} (h : AuthState.alone env (.idle now sessions ids) e pick uuid = some t) :
    SessionsStep env.accounts sessions ids t.sessions t.ids ∧
      ∀ p ∈ t.issued, (∃ x ∈ sessions, x.accountId = p.1) ∨ env.accounts.Active p.1 := by
  cases e with
  | tick =>
    cases h
    exact ⟨.same _ _ _, nofun⟩
  | resume i pick' uuid' => cases h
  | login data =>
    obtain ⟨-, ⟨-, hids, hissued, hsessions⟩ | ⟨e, hacc, hissued, hcases⟩⟩ := login_alone h
    · rw [hids, hissued, hsessions]
      exact ⟨.same _ _ _, nofun⟩
    · refine ⟨?_, fun p hp => ?_⟩
      · rcases hcases with ⟨x, hx, ha, hids, hsessions⟩ | ⟨hnone, hu, hids, hsessions⟩
        · rw [hids, hsessions]
          exact .wrote (Session.key_store _ _)
        · rw [hids, hsessions]
          exact .created hu hnone hacc.active
      · rw [hissued, List.mem_singleton] at hp
        rw [hp]
        exact Or.inr hacc.active
  | refresh data a pick' =>
    obtain ⟨-, hids, ⟨hissued, hsessions⟩ | ⟨x, hx, ha, -, hsessions, hissued⟩⟩ := refresh_alone h
    · rw [hids, hissued, hsessions]
      exact ⟨.same _ _ _, nofun⟩
    · rw [hids, hissued, hsessions]
      refine ⟨.wrote (Session.key_store _ _), fun p hp => Or.inl ⟨x, hx, ?_⟩⟩
      rw [List.mem_singleton.mp hp, ha]
  | logout a pick' =>
    obtain ⟨-, hids, hissued, ⟨-, hsessions⟩ | ⟨x, -, -, hsessions⟩⟩ := logout_alone h
    · rw [hids, hissued, hsessions]
      exact ⟨.same _ _ _, nofun⟩
    · rw [hids, hissued, hsessions]
      exact ⟨.deleted _, nofun⟩
  | updateConnectionStatus a status pick' =>
    obtain ⟨-, hids, hissued, ⟨-, hsessions⟩ | ⟨x, -, -, hsessions⟩⟩ := status_alone h
    · rw [hids, hissued, hsessions]
      exact ⟨.same _ _ _, nofun⟩
    · rw [hids, hissued, hsessions]
      exact ⟨.wrote (Session.key_mark _ _), nofun⟩

end DiscordClone
