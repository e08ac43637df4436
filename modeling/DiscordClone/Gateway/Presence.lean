import DiscordClone.Server
import DiscordClone.UserSettings.Pins

/-!
# Who is shown as online

A session has one field for the connection of its account: the handlers of every socket of the account overwrite it, and
a login creates it as OFFLINE. So it says whether the account has a socket only as long as no handler contradicts the
other sockets (`Uncontested`).

- `shows_iff`: whatever view shows an account, it shows it as ONLINE exactly when a session of the account is.
- `inStep_step`: a step leaves every session in step with the sockets of its account exactly when it is uncontested.
- `presence_iff`: presence is exact throughout a run exactly when all its steps are uncontested.
-/

namespace DiscordClone

/-- A view of somebody shows `u` with this connection. -/
inductive Shows (platform : Platform) (db : Database) (u : String) : ConnectionStatus → Prop
  | getFriends {a users user} (h : UserService.getFriends db a = .ok users) (hu : user ∈ users) (hid : user.id = u) :
      Shows platform db u user.connectionStatus
  | getUserProfile {a user} (h : UserService.getUserProfile db a u = .ok user) :
      Shows platform db u user.connectionStatus
  | getMe {findMany a me user} (h : UserService.getMe findMany db a = .ok me) (hu : user ∈ me.pinnedDms)
      (hid : user.id = u) : Shows platform db u user.connectionStatus
  | pinDirectMessage {a targetId user settings}
      (h : (UserSettingsService.pinDirectMessage platform db a targetId).run db.settings = .ok (user, settings))
      (hid : user.id = u) : Shows platform db u user.connectionStatus

namespace Server

/-- The account has a socket. -/
def Connected (s : Server) (u : String) : Prop := ∃ c ∈ s.sockets, c.sub = u

/-- Every view shows an account that has a session as ONLINE exactly when it has a socket. -/
def Presence (platform : Platform) (s : Server) : Prop :=
  ∀ u, s.HasSession u → ∀ status, Shows platform s.db u status → (status = .ONLINE ↔ s.Connected u)

/-- Every session is in step with the sockets of its account. -/
def InStep (s : Server) : Prop := ∀ x ∈ s.db.sessions, x.connectionStatus = .ONLINE ↔ s.Connected x.accountId

/-- A socket of an account with a session goes only as its last one, and a login creates a session only for an account
without a socket. -/
def Uncontested (env : ServerEnv) (s : Server) : ServerEvent → Prop
  | .login _ data _ _ =>
    ∀ e, (env.auth s.db.accounts).Accepts data e → ¬s.HasSession e.id → ¬s.Connected e.id
  | .disconnects c _ => s.HasSession c.sub → ∀ d ∈ s.sockets, d.sub = c.sub → d = c
  | _ => True

end Server

/-! ## The views -/

section Views

variable {platform : Platform} {db : Database} {sessions : List Session} {e : Account} {u : String}
  {status : ConnectionStatus}

theorem not_offline : status ≠ .OFFLINE ↔ status = .ONLINE := by cases status <;> decide

/-- Shown by a list: the first session that is not OFFLINE. -/
theorem connectionStatus_online : connectionStatus sessions e = .ONLINE ↔
    ∃ x ∈ sessions, x.accountId = e.id ∧ x.connectionStatus = .ONLINE := by
  unfold connectionStatus
  split
  · rename_i x rest h
    have hx : x ∈ sessions.filter fun s => s.accountId = e.id && s.connectionStatus ≠ .OFFLINE := by
      rw [h]
      exact List.mem_cons_self
    obtain ⟨hmem, hp⟩ := List.mem_filter.mp hx
    simp only [Bool.and_eq_true, decide_eq_true_eq, not_offline] at hp
    exact iff_of_true hp.2 ⟨x, hmem, hp.1, hp.2⟩
  · rename_i h
    refine iff_of_false (by decide) ?_
    rintro ⟨x, hx, ha, hs⟩
    have hmem : x ∈ sessions.filter fun s => s.accountId = e.id && s.connectionStatus ≠ .OFFLINE :=
      List.mem_filter.mpr ⟨hx, by simp [ha, hs]⟩
    rw [h] at hmem
    cases hmem

/-- Shown by a new pin: the first session that is ONLINE. -/
theorem onlineStatus_eq (sessions : List Session) (e : Account) :
    onlineStatus sessions e = connectionStatus sessions e := by
  have hfilter : (sessions.filter fun x => x.accountId = e.id && x.connectionStatus = .ONLINE) =
      sessions.filter fun x => x.accountId = e.id && x.connectionStatus ≠ .OFFLINE := by
    refine List.filter_congr fun x _ => ?_
    rw [decide_eq_decide.mpr not_offline]
  cases h : sessions.filter fun x => x.accountId = e.id && x.connectionStatus ≠ .OFFLINE with
  | nil => simp only [onlineStatus, connectionStatus, hfilter, h]
  | cons x rest => simp only [onlineStatus, connectionStatus, hfilter, h]

/-- **Whatever view shows an account, it shows what its sessions say.** -/
theorem shows_iff (h : Shows platform db u status) :
    status = .ONLINE ↔ ∃ x ∈ db.sessions, x.accountId = u ∧ x.connectionStatus = .ONLINE := by
  cases h with
  | @getFriends a users user h hu hid =>
    unfold UserService.getFriends at h
    split at h
    · cases h
    · cases h
      obtain ⟨e, -, rfl⟩ := List.mem_map.mp hu
      rw [← hid]
      exact connectionStatus_online
  | @getUserProfile a user h =>
    unfold UserService.getUserProfile at h
    split at h
    · cases h
    · rename_i profile hprofile
      cases h
      have hid : profile.id = u := by simpa using List.find?_some hprofile
      rw [← hid]
      exact connectionStatus_online
  | @getMe findMany a me user h hu hid =>
    unfold UserService.getMe at h
    split at h
    · cases h
    · simp only at h
      split at h
      · cases h
        obtain ⟨e, -, rfl⟩ := List.mem_map.mp hu
        rw [← hid]
        exact connectionStatus_online
      · cases h
  | @pinDirectMessage a targetId user settings h hid =>
    obtain ⟨target, -, -, -, rfl⟩ := pin_ok.mp h
    rw [← hid]
    exact onlineStatus_eq db.sessions target ▸ connectionStatus_online

/-- Every registered account is shown by its profile. -/
theorem exists_shows (platform : Platform) (h : db.accounts.Registered u) : ∃ status, Shows platform db u status := by
  obtain ⟨e, he, rfl⟩ := findFirst_self h
  have hok : UserService.getUserProfile db e.id e.id = .ok (toConnectedUser db.relationships db.sessions e.id e) := by
    simp only [UserService.getUserProfile, he]
  exact ⟨_, .getUserProfile hok⟩

end Views

/-! ## Steps -/

namespace Server

variable {env : ServerEnv} {platform : Platform} {s s' : Server} {e : ServerEvent}

/-- Presence is exact when every session is in step. -/
theorem presence_iff_inStep (hs : s.Sound) : s.Presence platform ↔ s.InStep := by
  constructor
  · intro h x hx
    have hsession : s.HasSession x.accountId := ⟨x, hx, rfl⟩
    obtain ⟨status, hshows⟩ := exists_shows platform (hs.active _ (Or.inl hsession)).registered
    rw [← h _ hsession status hshows, shows_iff hshows]
    constructor
    · intro hon
      exact ⟨x, hx, rfl, hon⟩
    · rintro ⟨y, hy, ha, hon⟩
      rwa [List.inj_on_of_nodup_map hs.onePerAccount.accounts_nodup hx hy ha.symm]
  · rintro h u ⟨x, hx, rfl⟩ status hshows
    rw [shows_iff hshows, ← h x hx]
    constructor
    · rintro ⟨y, hy, ha, hon⟩
      rwa [List.inj_on_of_nodup_map hs.onePerAccount.accounts_nodup hx hy ha.symm]
    · intro hon
      exact ⟨x, hx, rfl, hon⟩

/-- A write of another column. -/
theorem inStep_write (h : s.InStep) {f : Session → Session}
    (hf : ∀ x, (f x).accountId = x.accountId ∧ (f x).connectionStatus = x.connectionStatus)
    (hsessions : s'.db.sessions = s.db.sessions.map f) (hsockets : s'.sockets = s.sockets) : s'.InStep := by
  intro x hx
  rw [hsessions] at hx
  obtain ⟨y, hy, rfl⟩ := List.mem_map.mp hx
  rw [(hf y).1, (hf y).2, Connected, hsockets]
  exact h y hy

theorem inStep_same (h : s.InStep) (hsessions : s'.db.sessions = s.db.sessions) (hsockets : s'.sockets = s.sockets) :
    s'.InStep := by
  unfold InStep Connected
  rw [hsessions, hsockets]
  exact h

/-- The sessions that are left. -/
theorem inStep_delete (h : s.InStep) {p : Session → Bool} (hsessions : s'.db.sessions = s.db.sessions.filter p)
    (hsockets : s'.sockets = s.sockets) : s'.InStep := by
  intro x hx
  rw [hsessions] at hx
  rw [Connected, hsockets]
  exact h x (List.mem_filter.mp hx).1

/-- A new session is OFFLINE. -/
theorem inStep_create (h : s.InStep) (x : Session) (hx : x.connectionStatus = .OFFLINE)
    (hsessions : s'.db.sessions = s.db.sessions ++ [x]) (hsockets : s'.sockets = s.sockets) :
    s'.InStep ↔ ¬s.Connected x.accountId := by
  unfold InStep
  have hconnected : ∀ u, s'.Connected u ↔ s.Connected u := fun u => by rw [Connected, Connected, hsockets]
  simp only [hsessions, hconnected, List.mem_append, List.mem_singleton, or_imp, forall_and, forall_eq, hx]
  refine (and_iff_right h).trans ?_
  simp

/-- **A change of the connection** of `u`: its session, if there is one, says what was written, and the others are in
step as before. -/
theorem inStep_mark (hs : s.Sound) (h : s.InStep) {u : String} {status : ConnectionStatus}
    (hother : ∀ u', u' ≠ u → (s'.Connected u' ↔ s.Connected u'))
    (hcases : (∀ x ∈ s.db.sessions, x.accountId ≠ u) ∧ s'.db.sessions = s.db.sessions ∨
      ∃ x ∈ s.db.sessions, x.accountId = u ∧ s'.db.sessions = s.db.sessions.map (Session.mark x.id status)) :
    s'.InStep ↔ (s.HasSession u → (status = .ONLINE ↔ s'.Connected u)) := by
  rcases hcases with ⟨hnone, hsessions⟩ | ⟨x, hx, rfl, hsessions⟩
  · refine iff_of_true (fun x hx => ?_) ?_
    · rw [hsessions] at hx
      rw [hother _ (hnone x hx)]
      exact h x hx
    · rintro ⟨x, hx, ha⟩
      exact absurd ha (hnone x hx)
  · constructor
    · intro h' _
      have hmarked : x.mark x.id status ∈ s'.db.sessions := by
        rw [hsessions]
        exact List.mem_map_of_mem hx
      have hself := h' _ hmarked
      rw [Session.accountId_mark] at hself
      rwa [Session.mark, if_pos rfl] at hself
    · intro hu y hy
      rw [hsessions] at hy
      obtain ⟨z, hz, rfl⟩ := List.mem_map.mp hy
      rw [Session.accountId_mark]
      by_cases hid : z.id = x.id
      · rw [Session.mark, if_pos hid, (hs.onePerAccount.account_inj hz hx).mp hid]
        exact hu ⟨x, hx, rfl⟩
      · have ha : z.accountId ≠ x.accountId := fun ha => hid ((hs.onePerAccount.account_inj hz hx).mpr ha)
        rw [Session.mark, if_neg hid, hother _ ha]
        exact h z hz

/-- **A login** contradicts a socket exactly when it creates the session of its account. -/
theorem inStep_login (h : s.InStep) {now : Nat} {data : LoginDto} {pick : Nat} {uuid : String}
    (hstep : s.call env now (.login data) pick uuid = some s') :
    s'.InStep ↔
      ∀ e, (env.auth s.db.accounts).Accepts data e → ¬s.HasSession e.id → ¬s.Connected e.id := by
  obtain ⟨t, ht, rfl⟩ := call_some.mp hstep
  obtain ⟨-, ⟨hno, -, -, hsessions⟩ | ⟨e, hacc, -, hcases⟩⟩ := login_alone ht
  · exact iff_of_true (inStep_same h hsessions rfl) fun e he => absurd he (hno e)
  · have hunique : ∀ e', (env.auth s.db.accounts).Accepts data e' → e' = e :=
      fun e' he' => Option.some.inj (he'.1.symm.trans hacc.1)
    rcases hcases with ⟨x, hx, ha, -, hsessions⟩ | ⟨hnone, -, -, hsessions⟩
    · refine iff_of_true (inStep_write h (Session.store_others _ _) hsessions rfl) fun e' he' hsession => ?_
      rw [hunique e' he'] at hsession
      exact absurd ⟨x, hx, ha⟩ hsession
    · let x : Session :=
        { id := uuid, accountId := e.id, refreshToken := refreshTokenAt (env.auth s.db.accounts) now e.id }
      have hcreate : (s.answered t).InStep ↔ ¬s.Connected x.accountId := inStep_create h x rfl hsessions rfl
      rw [hcreate]
      constructor
      · intro hsocket e' he' _
        rw [hunique e' he']
        exact hsocket
      · intro hun
        refine hun e hacc ?_
        rintro ⟨x, hx, ha⟩
        exact hnone x hx ha

/-- **The handler of a new socket** never contradicts another one. -/
theorem inStep_connects (hs : s.Sound) (h : s.InStep) {c : SocketWithAuth} {pick : Nat}
    (hstep : s.handleConnection env c pick = some s') : s'.InStep := by
  obtain ⟨called, hcalled, rfl⟩ := Option.map_eq_some_iff.mp hstep
  obtain ⟨t, ht, rfl⟩ := call_some.mp hcalled
  obtain ⟨-, -, -, hcases⟩ := status_alone ht
  refine (inStep_mark hs h (fun u hu => ?_) hcases).mpr fun _ => ?_
  · have hne : c.sub ≠ u := hu.symm
    simp [Connected, answered, or_and_right, exists_or, hne]
  · exact iff_of_true rfl ⟨c, by simp, rfl⟩

/-- **The handler of a socket that goes** contradicts the other sockets of its account. -/
theorem inStep_disconnects (hs : s.Sound) (h : s.InStep) {c : SocketWithAuth} {pick : Nat}
    (hstep : s.handleDisconnect env c pick = some s') :
    s'.InStep ↔ (s.HasSession c.sub → ∀ d ∈ s.sockets, d.sub = c.sub → d = c) := by
  obtain ⟨called, hcalled, rfl⟩ := Option.map_eq_some_iff.mp hstep
  obtain ⟨t, ht, rfl⟩ := call_some.mp hcalled
  obtain ⟨-, -, -, hcases⟩ := status_alone ht
  refine (inStep_mark hs h (fun u hu => ?_) hcases).trans (imp_congr_right fun _ => ?_)
  · constructor
    · rintro ⟨d, hd, hsub⟩
      exact ⟨d, (List.mem_filter.mp hd).1, hsub⟩
    · rintro ⟨d, hd, hsub⟩
      have hne : d ≠ c := fun hdc => hu (hdc ▸ hsub.symm)
      exact ⟨d, List.mem_filter.mpr ⟨hd, decide_eq_true hne⟩, hsub⟩
  · -- OFFLINE, so there must be no other socket
    constructor
    · intro hoff d hd hsub
      by_contra hne
      have hcontra := hoff.mpr ⟨d, List.mem_filter.mpr ⟨hd, decide_eq_true hne⟩, hsub⟩
      cases hcontra
    · intro hlast
      refine iff_of_false (by decide) ?_
      rintro ⟨d, hd, hsub⟩
      obtain ⟨hmem, hne⟩ := List.mem_filter.mp hd
      exact of_decide_eq_true hne (hlast d hmem hsub)

/-- **A step leaves every session in step exactly when it is uncontested.** -/
theorem inStep_step (hs : s.Sound) (h : s.InStep) (hstep : s.step env e = some s') :
    s'.InStep ↔ s.Uncontested env e := by
  cases e with
  | register renv data =>
    cases hstep
    exact iff_of_true (inStep_same h (perform_sessions _ _) rfl) trivial
  | verify now a =>
    cases hstep
    exact iff_of_true (inStep_same h (perform_sessions _ _) rfl) trivial
  | relationship accessToken c =>
    simp only [step] at hstep
    split at hstep
    · cases hstep
      exact iff_of_true (inStep_same h (perform_sessions _ _) rfl) trivial
    · cases hstep
  | login now data pick uuid =>
    exact inStep_login h hstep
  | refresh now data a pick =>
    obtain ⟨t, ht, rfl⟩ := call_some.mp hstep
    obtain ⟨-, -, ⟨-, hsessions⟩ | ⟨x, -, -, -, hsessions, -⟩⟩ := refresh_alone ht
    · exact iff_of_true (inStep_same h hsessions rfl) trivial
    · exact iff_of_true (inStep_write h (Session.store_others _ _) hsessions rfl) trivial
  | logout a pick =>
    obtain ⟨t, ht, rfl⟩ := call_some.mp hstep
    obtain ⟨-, -, -, ⟨-, hsessions⟩ | ⟨x, -, -, hsessions⟩⟩ := logout_alone ht
    · exact iff_of_true (inStep_same h hsessions rfl) trivial
    · exact iff_of_true (inStep_delete h hsessions rfl) trivial
  | connects c pick =>
    simp only [step] at hstep
    split at hstep
    · cases hstep
    · exact iff_of_true (inStep_connects hs h hstep) trivial
  | disconnects c pick =>
    simp only [step] at hstep
    split at hstep
    · exact inStep_disconnects hs h hstep
    · cases hstep

end Server

open Server

/-- **Presence is exact as long as no handler contradicts another socket.** For every run of the server that begins
without sessions and sockets: every view shows every account that has a session as ONLINE exactly when it has a socket,
in every state of the run, if and only if in every step a socket of an account with a session goes only as its last one,
and a session is created only for an account without a socket. -/
theorem presence_iff (env : ServerEnv) (platform : Platform) (db : Database) (events : List ServerEvent) (s : Server)
    (hrun : Machine.run (Server.step env) (.start db) events = some s) :
    Machine.Always (Server.step env) (Presence platform) (.start db) events ↔
      Machine.Along (Server.step env) (Uncontested env) (.start db) events := by
  have hsound : (Server.start db).Sound := sound_start db
  have hstep : ∀ (s : Server) (e : ServerEvent) (s' : Server), s.Sound → s.step env e = some s' → s'.Sound :=
    fun s e s' hs h => sound_step hs (step_effects h)
  have hinit : (Server.start db).InStep := fun x hx => by cases hx
  rw [← Machine.always_and hstep hsound]
  refine Machine.always_iff_along (fun s e s' h hs => ?_) ⟨(presence_iff_inStep hsound).mpr hinit, hsound⟩ hrun
  have hs' := hstep s e s' h.2 hs
  rw [and_iff_left hs', presence_iff_inStep hs']
  exact inStep_step h.2 ((presence_iff_inStep h.2).mp h.1) hs

def loginOfAlice : ServerEvent := .login 0 ⟨"alice@mail.test", "alice"⟩ 0 "session 1"

/-- alice logs in, opens a socket, and closes it again. -/
theorem presence_sample :
    let events : List ServerEvent :=
      [loginOfAlice, .connects ⟨"s1", "alice"⟩ 0, .disconnects ⟨"s1", "alice"⟩ 0]
    Machine.Always (Server.step sampleServerEnv) (Presence stringPlatform) (.start pinnable) events := by
  intro events
  refine (presence_iff sampleServerEnv stringPlatform pinnable events _ rfl).mpr ?_
  refine ⟨fun e _ _ => ?_, fun s hs => ⟨trivial, fun t ht => ⟨fun _ d hd _ => ?_, fun _ _ => trivial⟩⟩⟩
  · rintro ⟨c, hc, -⟩
    cases hc
  · cases hs
    cases ht
    exact List.mem_singleton.mp hd

/-- alice logs in, opens two sockets, and closes one of them: she is shown as OFFLINE. -/
theorem presence_two_sockets :
    let events : List ServerEvent :=
      [loginOfAlice, .connects ⟨"s1", "alice"⟩ 0, .connects ⟨"s2", "alice"⟩ 0, .disconnects ⟨"s1", "alice"⟩ 0]
    ∃ s, Machine.run (Server.step sampleServerEnv) (.start pinnable) events = some s ∧ s.HasSession "alice" ∧
      s.Connected "alice" ∧ Shows stringPlatform s.db "alice" .OFFLINE ∧
      ¬Machine.Always (Server.step sampleServerEnv) (Presence stringPlatform) (.start pinnable) events := by
  intro events
  obtain ⟨s, x, hrun, hsessions, ha, hoff, hsockets, haccounts⟩ :
      ∃ s x, Machine.run (Server.step sampleServerEnv) (.start pinnable) events = some s ∧ s.db.sessions = [x] ∧
        x.accountId = "alice" ∧ x.connectionStatus = .OFFLINE ∧ s.sockets = [⟨"s2", "alice"⟩] ∧
        s.db.accounts = activeAccounts := ⟨_, _, rfl, rfl, rfl, rfl, rfl, rfl⟩
  have hsession : s.HasSession "alice" := ⟨x, by rw [hsessions]; exact List.mem_cons_self, ha⟩
  have hsocket : s.Connected "alice" := ⟨⟨"s2", "alice"⟩, by rw [hsockets]; exact List.mem_cons_self, rfl⟩
  have hshows : Shows stringPlatform s.db "alice" .OFFLINE := by
    have hreg : s.db.accounts.Registered "alice" := by
      rw [haccounts]
      decide
    obtain ⟨status, hshows⟩ := exists_shows stringPlatform hreg
    cases status with
    | OFFLINE => exact hshows
    | ONLINE =>
      obtain ⟨y, hy, -, hon⟩ := (shows_iff hshows).mp rfl
      rw [hsessions, List.mem_singleton] at hy
      rw [hy, hoff] at hon
      cases hon
  refine ⟨s, hrun, hsession, hsocket, hshows, fun h => ?_⟩
  have honline := (h.last hrun "alice" hsession .OFFLINE hshows).mpr hsocket
  cases honline

end DiscordClone
