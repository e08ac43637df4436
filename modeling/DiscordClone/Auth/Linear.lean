import DiscordClone.Auth.Serial
import DiscordClone.Sample

/-!
# Calls of different accounts side by side

The calls of the service wait for the database between their requests, and other calls go on meanwhile. A call looks at
the sessions of one account and writes one of them (`AuthCall.account`). So calls of different accounts do not meet.

- `OneAtATime`: no call begins while another one for its account waits.
- `Pending`: what a call that waits has found is still so, and leads it to the same place when it runs alone.
- `sessions_linearizable`: then the service does what its calls do alone, one after another in the order in which they
  end.
-/

namespace DiscordClone

open AuthState

namespace AuthEvent

/-- The event is the beginning of a call. -/
def begins : AuthEvent → Bool
  | .tick | .resume .. => false
  | _ => true

/-- The account whose sessions a call works on; a login works on those of the account with its email. -/
def account (env : AuthEnv) : AuthEvent → Option String
  | .login data => (env.accounts.findFirst fun e => e.email = data.email).map Account.id
  | .refresh _ a _ | .logout a _ | .updateConnectionStatus a _ _ => some a
  | .tick | .resume .. => none

end AuthEvent

/-- The account whose sessions a waiting call works on. -/
def AuthCall.account : AuthCall → String
  | .loginFind a _ _ | .loginUpdate _ a _ _ | .loginCreate a _ _ | .refreshUpdate _ a _ _ _ | .logoutDelete _ a
  | .statusUpdate _ a _ => a

/-- No call begins while another one for its account waits. -/
def OneAtATime (env : AuthEnv) (s : AuthState) (e : AuthEvent) : Prop :=
  ∀ a ∈ e.account env, ∀ c, s.Waits c → c.account ≠ a

instance (env : AuthEnv) (s : AuthState) (e : AuthEvent) : Decidable (OneAtATime env s e) :=
  inferInstanceAs (Decidable (∀ a ∈ e.account env, ∀ c, s.Waits c → c.account ≠ a))

/-! ## One call after another -/

/-- A call with the time at which it began and the id that it draws. -/
structure TimedCall where
  began : Nat
  event : AuthEvent
  uuid : String := ""
  deriving DecidableEq, Repr

/-- The sessions, the ids that have been drawn, and what the calls have answered. -/
structure Ledger where
  sessions : List Session
  ids : List String
  results : List AuthResult
  deriving DecidableEq, Repr

def AuthState.ledger (s : AuthState) : Ledger := ⟨s.sessions, s.ids, s.results⟩

/-- A call that runs alone, as if at the time at which it began. -/
def Ledger.call (env : AuthEnv) (l : Ledger) (c : TimedCall) : Option Ledger :=
  (alone env (idle c.began l.sessions l.ids) c.event 0 c.uuid).map fun t => ⟨t.sessions, t.ids, t.results ++ l.results⟩

/-- The calls that have begun, in the order of `AuthState.calls`. -/
def AuthState.beginning (s : AuthState) (begun : List TimedCall) (e : AuthEvent) : List TimedCall :=
  if e.begins then begun ++ [⟨s.now, e, ""⟩] else begun

/-- The call that ends in a step, when one does. -/
def AuthState.ending (s s' : AuthState) (begun : List TimedCall) (e : AuthEvent) : List TimedCall :=
  if s'.results.length = s.results.length then []
  else
    match e with
    | .resume i _ uuid => begun[i]?.toList.map fun c => { c with uuid := uuid }
    | e => [⟨s.now, e, ""⟩]

/-- The calls of a run, in the order in which they end. -/
def linearized (env : AuthEnv) : List TimedCall → AuthState → List AuthEvent → List TimedCall
  | _, _, [] => []
  | begun, s, e :: es =>
    match authStep env s e with
    | none => []
    | some s' => s.ending s' begun e ++ linearized env (s.beginning begun e) s' es

/-! ## What a waiting call has found -/

/-- The call that began with `e` at the time `now` waits in `c`, and what it has found is so in these sessions. -/
inductive Pending (env : AuthEnv) (sessions : List Session) (now : Nat) : AuthEvent → AuthCall → Prop
  | loginFind {data e} (h : env.Accepts data e) :
      Pending env sessions now (.login data)
        (.loginFind e.id (signToken env.jwt env.config now .ACCESS e.id) (refreshTokenAt env now e.id))
  | loginUpdate {data e x} (h : env.Accepts data e) (hx : x ∈ sessions) (ha : x.accountId = e.id) :
      Pending env sessions now (.login data)
        (.loginUpdate x.id e.id (signToken env.jwt env.config now .ACCESS e.id) (refreshTokenAt env now e.id))
  | loginCreate {data e} (h : env.Accepts data e) (hn : ∀ x ∈ sessions, x.accountId ≠ e.id) :
      Pending env sessions now (.login data)
        (.loginCreate e.id (signToken env.jwt env.config now .ACCESS e.id) (refreshTokenAt env now e.id))
  | refresh {data pick x} (hx : x ∈ sessions) (ht : x.refreshToken = data.refreshToken) :
      Pending env sessions now (.refresh data x.accountId pick)
        (.refreshUpdate x.id x.accountId data.refreshToken (signToken env.jwt env.config now .ACCESS x.accountId)
          (refreshTokenAt env now x.accountId))
  | logout {pick x} (hx : x ∈ sessions) :
      Pending env sessions now (.logout x.accountId pick) (.logoutDelete x.id x.accountId)
  | status {status pick x} (hx : x ∈ sessions) :
      Pending env sessions now (.updateConnectionStatus x.accountId status pick)
        (.statusUpdate x.id x.accountId status)

section Calls

variable {env : AuthEnv} {sessions sessions' : List Session} {ids : List String} {now pick i : Nat} {e : AuthEvent}
  {c : AuthCall} {uuid : String} {s s' : AuthState} {x y : Session}

/-- A call waits for its own account. -/
theorem Pending.account (h : Pending env sessions now e c) : e.account env = some c.account := by
  cases h with
  | loginFind h | loginUpdate h | loginCreate h =>
    rw [AuthEvent.account, h.1]
    rfl
  | _ => rfl

/-- The sessions of its account are the same. -/
theorem Pending.same (h : Pending env sessions now e c)
    (hs : ∀ x : Session, x.accountId = c.account → (x ∈ sessions ↔ x ∈ sessions')) : Pending env sessions' now e c := by
  cases h with
  | loginFind h => exact .loginFind h
  | loginUpdate h hx ha => exact .loginUpdate h ((hs _ ha).mp hx) ha
  | loginCreate h hn => exact .loginCreate h fun x hx ha => hn x ((hs x ha).mpr hx) ha
  | refresh hx ht => exact .refresh ((hs _ rfl).mp hx) ht
  | logout hx => exact .logout ((hs _ rfl).mp hx)
  | status hx => exact .status ((hs _ rfl).mp hx)

/-- An account has one session, which `findFirst` finds. -/
theorem OnePerAccount.findFirst (h : OnePerAccount sessions ids) (hx : x ∈ sessions) {p : Session → Bool}
    (hp : p x = true) (hown : ∀ y, p y = true → y.accountId = x.accountId) (pick : Nat) :
    Session.findFirst sessions p pick = some x := by
  cases hf : Session.findFirst sessions p pick with
  | none =>
    have hno := findFirst_none hf x hx
    rw [hp] at hno
    cases hno
  | some y =>
    obtain ⟨hy, hpy⟩ := findFirst_some hf
    rw [List.inj_on_of_nodup_map h.accounts_nodup hy hx (hown y hpy)]

/-- The session of an account, looked up by the account. -/
theorem OnePerAccount.findFirst_account (h : OnePerAccount sessions ids) (hx : x ∈ sessions) (pick : Nat) :
    Session.findFirst sessions (fun y => y.accountId = x.accountId) pick = some x :=
  h.findFirst hx (decide_eq_true rfl) (fun _ hy => of_decide_eq_true hy) pick

/-- A write of one session leaves those of other accounts. -/
theorem OnePerAccount.mem_map (h : OnePerAccount sessions ids) (hx : x ∈ sessions) {f : Session → Session}
    (hkey : ∀ y, (f y).key = y.key) (hf : ∀ y, y.id ≠ x.id → f y = y) (hy : y.accountId ≠ x.accountId) :
    y ∈ sessions.map f ↔ y ∈ sessions := by
  constructor
  · intro hmem
    obtain ⟨z, hz, rfl⟩ := List.mem_map.mp hmem
    have haccount : (f z).accountId = z.accountId := (Prod.mk.inj (hkey z)).2
    have hid : z.id ≠ x.id := fun hid => hy (haccount.trans ((h.account_inj hz hx).mp hid))
    rwa [hf z hid]
  · intro hmem
    have hid : y.id ≠ x.id := fun hid => hy ((h.account_inj hmem hx).mp hid)
    exact List.mem_map.mpr ⟨y, hmem, hf y hid⟩

/-! ## The beginning of a call -/

/-- **What a call does first depends on the time and on the sessions**: it answers, or it waits with what it has
found. -/
theorem begins_cases (env : AuthEnv) (sessions : List Session) (now : Nat) (he : e.begins = true) :
    (∃ r, ∀ s : AuthState, s.now = now → s.sessions = sessions → authStep env s e = some (s.answer r)) ∨
      ∃ c accepted, Pending env sessions now e c ∧ ∀ s : AuthState, s.now = now → s.sessions = sessions →
        authStep env s e = some ({ s with accepted := accepted ++ s.accepted }.wait c) := by
  cases e with
  | tick => cases he
  | resume i pick uuid => cases he
  | login data =>
    cases hf : env.accounts.findFirst fun e => e.email = data.email with
    | none =>
      refine Or.inl ⟨.failed accountNotFound, fun s _ _ => ?_⟩
      simp only [authStep, AuthService.login, hf]
    | some account =>
      by_cases hs : account.status = .ACTIVE
      · cases hp : env.compareSync data.password account.password with
        | true =>
          refine Or.inr ⟨_, [], .loginFind ⟨hf, hs, hp⟩, fun s hnow _ => ?_⟩
          subst hnow
          simp only [authStep, AuthService.login, hf, hs, hp]
          rfl
        | false =>
          refine Or.inl ⟨.failed .forbidden, fun s _ _ => ?_⟩
          simp only [authStep, AuthService.login, hf, hs, hp]
          rfl
      · refine Or.inl ⟨.failed (.mk CustomErrorMessage.LOGIN__ACCOUNT_NOT_VERIFIED HttpStatus.FORBIDDEN
          CustomErrorCode.LOGIN__ACCOUNT_NOT_VERIFIED), fun s _ _ => ?_⟩
        simp only [authStep, AuthService.login, hf]
        rw [if_pos hs]
  | refresh data a pick =>
    cases hf : Session.findFirst sessions (fun x => x.accountId = a && x.refreshToken = data.refreshToken) pick with
    | none =>
      refine Or.inl ⟨.failed (.mk CustomErrorMessage.REFRESH__SESSION_NOT_FOUND HttpStatus.NOT_FOUND
        CustomErrorCode.REFRESH__SESSION_NOT_FOUND), fun s _ hsessions => ?_⟩
      subst hsessions
      simp only [authStep, AuthService.refresh, hf]
    | some x =>
      obtain ⟨hx, rfl, ht⟩ := findFirst_token hf
      refine Or.inr ⟨_, [(x.accountId, data.refreshToken)], .refresh hx ht, fun s hnow hsessions => ?_⟩
      subst hsessions hnow
      simp only [authStep, AuthService.refresh, hf]
      rfl
  | logout a pick =>
    cases hf : Session.findFirst sessions (fun x => x.accountId = a) pick with
    | none =>
      refine Or.inl ⟨.logout a, fun s _ hsessions => ?_⟩
      subst hsessions
      simp only [authStep, AuthService.logout, hf]
    | some x =>
      obtain ⟨hx, rfl⟩ := findFirst_account hf
      refine Or.inr ⟨_, [], .logout hx, fun s _ hsessions => ?_⟩
      subst hsessions
      simp only [authStep, AuthService.logout, hf]
      rfl
  | updateConnectionStatus a status pick =>
    cases hf : Session.findFirst sessions (fun x => x.accountId = a) pick with
    | none =>
      refine Or.inl ⟨.updateConnectionStatus a, fun s _ hsessions => ?_⟩
      subst hsessions
      simp only [authStep, AuthService.updateConnectionStatus, hf]
    | some x =>
      obtain ⟨hx, rfl⟩ := findFirst_account hf
      refine Or.inr ⟨_, [], .status hx, fun s _ hsessions => ?_⟩
      subst hsessions
      simp only [authStep, AuthService.updateConnectionStatus, hf]
      rfl

/-! ## The end of a call -/

/-- A login whose data pass the checks waits. -/
theorem login_wait {data : LoginDto} {account : Account} (h : env.Accepts data account) (s : AuthState) :
    AuthService.login env s data =
      s.wait (.loginFind account.id (signToken env.jwt env.config s.now .ACCESS account.id)
        (refreshTokenAt env s.now account.id)) := by
  rcases login_cases env s data with ⟨hno, -⟩ | ⟨account', h', hlogin⟩
  · exact absurd h (hno account)
  · cases Option.some.inj (h'.1.symm.trans h.1)
    exact hlogin

/-- A login that runs alone comes to its last request. -/
theorem login_goOn {data : LoginDto} {account : Account} (h : env.Accepts data account) {c : AuthCall}
    (hc : AuthService.resume ((idle now sessions ids).wait (.loginFind account.id
      (signToken env.jwt env.config now .ACCESS account.id) (refreshTokenAt env now account.id))) 0 0 uuid (.loginFind
      account.id (signToken env.jwt env.config now .ACCESS account.id) (refreshTokenAt env now account.id)) =
        some ((idle now sessions ids).wait c)) :
    alone env (idle now sessions ids) (.login data) 0 uuid = toEnd 0 uuid 1 ((idle now sessions ids).wait c) := by
  have hbegin : authStep env (idle now sessions ids) (.login data) = some ((idle now sessions ids).wait (.loginFind
      account.id (signToken env.jwt env.config now .ACCESS account.id) (refreshTokenAt env now account.id))) :=
    congrArg some (login_wait h _)
  rw [alone, hbegin, Option.bind_some, toEnd_wait rfl, hc, Option.bind_some]

/-- **A call that waits for its last request comes there alone**, too. -/
theorem Pending.alone (hp : Pending env sessions now e c) (ho : OnePerAccount sessions ids)
    (hlast : ∀ a accessToken t, c ≠ .loginFind a accessToken t) (uuid : String) :
    ∃ n, ∃ s₀ : AuthState, s₀.ledger = ⟨sessions, ids, []⟩ ∧ s₀.calls = [] ∧
      alone env (idle now sessions ids) e 0 uuid = toEnd 0 uuid (n + 1) (s₀.wait c) := by
  cases hp with
  | loginFind hacc => exact absurd rfl (hlast _ _ _)
  | @loginUpdate data account x hacc hx ha =>
    have hfind : Session.findFirst sessions (fun y => y.accountId = account.id) 0 = some x := by
      rw [← ha]
      exact ho.findFirst_account hx 0
    refine ⟨0, idle now sessions ids, rfl, rfl, login_goOn hacc ?_⟩
    rw [AuthService.resume, show Session.findFirst ((idle now sessions ids).wait _).sessions _ 0 = some x from hfind]
    exact congrArg some (goOn_wait rfl _ _)
  | @loginCreate data account hacc hn =>
    have hfind : Session.findFirst sessions (fun y => y.accountId = account.id) 0 = none := by
      cases hf : Session.findFirst sessions (fun y => y.accountId = account.id) 0 with
      | none => rfl
      | some x => exact absurd (findFirst_account hf).2 (hn x (findFirst_account hf).1)
    refine ⟨0, idle now sessions ids, rfl, rfl, login_goOn hacc ?_⟩
    rw [AuthService.resume, show Session.findFirst ((idle now sessions ids).wait _).sessions _ 0 = none from hfind]
    exact congrArg some (goOn_wait rfl _ _)
  | @refresh data pick' x hx ht =>
    have hfind : Session.findFirst sessions
        (fun y => y.accountId = x.accountId && y.refreshToken = data.refreshToken) pick' = some x :=
      ho.findFirst hx (by simp [ht]) (fun y hy => of_decide_eq_true (Bool.and_eq_true_iff.mp hy).1) pick'
    refine ⟨1, { idle now sessions ids with accepted := [(x.accountId, data.refreshToken)] }, rfl, rfl, ?_⟩
    simp only [AuthState.alone, authStep, AuthService.refresh, Option.bind_some]
    rw [show Session.findFirst (idle now sessions ids).sessions _ pick' = some x from hfind]
    rfl
  | @logout pick' x hx =>
    refine ⟨1, idle now sessions ids, rfl, rfl, ?_⟩
    simp only [AuthState.alone, authStep, AuthService.logout, Option.bind_some]
    rw [show Session.findFirst (idle now sessions ids).sessions _ pick' = some x from ho.findFirst_account hx pick']
  | @status status pick' x hx =>
    refine ⟨1, idle now sessions ids, rfl, rfl, ?_⟩
    simp only [AuthState.alone, authStep, AuthService.updateConnectionStatus, Option.bind_some]
    rw [show Session.findFirst (idle now sessions ids).sessions _ pick' = some x from ho.findFirst_account hx pick']

/-- A write that ends a call, or the refusal of it. -/
theorem finishWrite_eq (r : AuthResult) (w : Except Exception (List Session)) :
    ∃ r', ∀ (s : AuthState) (i : Nat),
      s.finishWrite i r w = { s.finish i r' with sessions := w.toOption.getD s.sessions } := by
  cases w with
  | ok sessions => exact ⟨r, fun _ _ => rfl⟩
  | error e => exact ⟨.failed e, fun _ _ => rfl⟩

/-- A write that ends a call does the same in every state with these sessions and ids. -/
theorem finishWrite_same {r : AuthResult} {w : List Session → Except Exception (List Session)}
    (h : some (s.finishWrite i r (w s.sessions)) = some s') :
    ∃ r' sessions' ids', s' = { s.finish i r' with sessions := sessions', ids := ids' } ∧
      ∀ s₀ : AuthState, s₀.sessions = s.sessions → s₀.ids = s.ids →
        some (s₀.finishWrite 0 r (w s₀.sessions)) =
          some { s₀.finish 0 r' with sessions := sessions', ids := ids' } := by
  obtain ⟨r', hr⟩ := finishWrite_eq r (w s.sessions)
  refine ⟨r', _, s.ids, (Option.some.inj h).symm.trans (hr s i), fun s₀ hsessions hids => ?_⟩
  rw [hsessions, hr, hsessions, ← hids]
  rfl

/-- **What the last request of a call does depends on the sessions and the ids.** -/
theorem resume_last (hlast : ∀ a accessToken t, c ≠ .loginFind a accessToken t)
    (h : AuthService.resume s i pick uuid c = some s') :
    ∃ r sessions' ids', s' = { s.finish i r with sessions := sessions', ids := ids' } ∧
      ∀ s₀ : AuthState, s₀.sessions = s.sessions → s₀.ids = s.ids →
        AuthService.resume s₀ 0 0 uuid c = some { s₀.finish 0 r with sessions := sessions', ids := ids' } := by
  cases c with
  | loginFind a accessToken t => exact absurd rfl (hlast _ _ _)
  | loginCreate a accessToken t =>
    simp only [AuthService.resume] at h
    split at h
    · cases h
    · rename_i hu
      cases h
      refine ⟨_, _, _, rfl, fun s₀ hsessions hids => ?_⟩
      rw [AuthService.resume, hids, if_neg hu, hsessions]
  | loginUpdate id | refreshUpdate id | statusUpdate id =>
    exact finishWrite_same (w := fun sessions => Session.update sessions id _) h
  | logoutDelete id => exact finishWrite_same (w := fun sessions => Session.delete sessions id) h

/-- The session that a waiting call is going to write is the one of its account. -/
theorem Pending.session (hp : Pending env sessions now e c) {id a : String} (hc : c.session = some (id, a)) :
    ∃ x ∈ sessions, x.id = id ∧ x.accountId = c.account := by
  cases hp with
  | loginFind => cases hc
  | loginCreate => cases hc
  | loginUpdate hacc hx ha =>
    cases hc
    exact ⟨_, hx, rfl, ha⟩
  | refresh hx | logout hx | status hx =>
    cases hc
    exact ⟨_, hx, rfl, rfl⟩

/-- **A call leaves the sessions of other accounts.** -/
theorem Pending.others (hp : Pending env s.sessions now e c) (ho : OnePerAccount s.sessions s.ids)
    (hc : s.calls[i]? = some (some c)) (hs : AuthStep env s (.resume i pick uuid) s') (hy : y.accountId ≠ c.account) :
    y ∈ s'.sessions ↔ y ∈ s.sessions := by
  cases hs with
  | answered he => exact absurd rfl (he _ _ _)
  | created hc' hu =>
    cases hc.symm.trans hc'
    refine List.mem_append.trans (or_iff_left fun hnew => hy ?_)
    rw [List.mem_singleton.mp hnew]
    rfl
  | stored hc' hsession ht hr hx' =>
    cases hc.symm.trans hc'
    obtain ⟨x, hx, rfl, ha⟩ := hp.session hsession
    exact ho.mem_map hx (Session.key_store _ _) (fun y hid => Session.store_ne _ hid) (ha ▸ hy)
  | marked hc' =>
    cases hc.symm.trans hc'
    obtain ⟨x, hx, rfl, ha⟩ := hp.session rfl
    exact ho.mem_map hx (Session.key_mark _ _) (fun y hid => if_neg hid) (ha ▸ hy)
  | deleted hc' =>
    cases hc.symm.trans hc'
    obtain ⟨x, hx, rfl, ha⟩ := hp.session rfl
    refine List.mem_filter.trans (and_iff_left_of_imp fun hmem => decide_eq_true fun hid => hy ?_)
    rw [(ho.account_inj hmem hx).mp hid, ha]
  | _ => exact Iff.rfl

/-- The call at `i`, which began with `e` at the time `now`, ends as it would alone, and leaves the sessions of other
accounts than its own. -/
structure EndsAlone (env : AuthEnv) (s : AuthState) (i now : Nat) (e : AuthEvent) (uuid a : String) (s' : AuthState) :
    Prop where
  calls : s'.calls = s.calls.set i none
  results : s'.results.length = s.results.length + 1
  alone : s.ledger.call env ⟨now, e, uuid⟩ = some s'.ledger
  others : ∀ y : Session, y.accountId ≠ a → (y ∈ s'.sessions ↔ y ∈ s.sessions)

/-- **A call that waits for its last request ends as it would alone.** -/
theorem Pending.ends (hp : Pending env s.sessions now e c) (ho : OnePerAccount s.sessions s.ids)
    (hlast : ∀ a accessToken t, c ≠ .loginFind a accessToken t) (hc : s.calls[i]? = some (some c))
    (h : AuthService.resume s i pick uuid c = some s') : EndsAlone env s i now e uuid c.account s' := by
  have hothers := fun y hy => hp.others (y := y) ho hc (resume_cases hc h) hy
  obtain ⟨r, sessions', ids', rfl, hsame⟩ := resume_last hlast h
  obtain ⟨n, s₀, hledger, hcalls, halone⟩ := hp.alone ho hlast uuid
  obtain ⟨hsessions, hids, hresults⟩ := Ledger.mk.inj hledger
  rw [toEnd_wait hcalls, hsame (s₀.wait c) hsessions hids, Option.bind_some, toEnd_answered] at halone
  · refine ⟨rfl, rfl, ?_, hothers⟩
    have hcall : AuthState.alone env (idle now s.ledger.sessions s.ledger.ids) e 0 uuid = _ := halone
    rw [Ledger.call, hcall]
    simp [AuthState.ledger, finish, wait, hresults]
  · simp [Answered, finish, wait, hcalls]

/-- A login that finds a session, or none, waits for its last request. -/
theorem Pending.found {a accessToken t : String} (hp : Pending env s.sessions now e (.loginFind a accessToken t))
    (h : AuthService.resume s i pick uuid (.loginFind a accessToken t) = some s') :
    ∃ d, s' = s.goOn i d ∧ d.account = a ∧ Pending env s.sessions now e d := by
  cases hp with
  | @loginFind data account hacc =>
    simp only [AuthService.resume] at h
    split at h
    · rename_i x hf
      obtain ⟨hx, ha⟩ := findFirst_account hf
      cases h
      exact ⟨_, rfl, rfl, .loginUpdate hacc hx ha⟩
    · rename_i hf
      cases h
      exact ⟨_, rfl, rfl, .loginCreate hacc fun x hx => by simpa using findFirst_none hf x hx⟩

/-- A call that runs alone leaves an account one session at most. -/
theorem Ledger.onePerAccount {l l' : Ledger} {d : TimedCall} (h : OnePerAccount l.sessions l.ids)
    (hcall : l.call env d = some l') : OnePerAccount l'.sessions l'.ids := by
  obtain ⟨t, ht, rfl⟩ := Option.map_eq_some_iff.mp hcall
  exact (alone_cases ht).1.onePerAccount h

end Calls

/-! ## Runs -/

/-- The calls that have begun are those of the service; an account has one session at most, and one waiting call, which
has found what it would find now. -/
structure Linear (env : AuthEnv) (begun : List TimedCall) (s : AuthState) : Prop where
  aligned : begun.length = s.calls.length
  one : OnePerAccount s.sessions s.ids
  pending : ∀ (i : Nat) (c : AuthCall), s.calls[i]? = some (some c) →
    ∃ b : TimedCall, begun[i]? = some b ∧ Pending env s.sessions b.began b.event c
  apart : ∀ (i j : Nat) (c d : AuthCall), s.calls[i]? = some (some c) → s.calls[j]? = some (some d) →
    c.account = d.account → i = j

section Runs

variable {env : AuthEnv} {begun : List TimedCall} {s s' : AuthState} {e : AuthEvent} {c : AuthCall}
  {o : Option AuthCall} {b : TimedCall} {i : Nat}

/-- A call begins, and waits or not. -/
theorem Linear.begin (h : Linear env begun s) (hcalls : s'.calls = s.calls ++ [o])
    (hsessions : s'.sessions = s.sessions) (hids : s'.ids = s.ids)
    (hnew : ∀ c, o = some c → Pending env s.sessions b.began b.event c ∧ ∀ d, s.Waits d → d.account ≠ c.account) :
    Linear env (begun ++ [b]) s' := by
  have hget : ∀ {j : Nat} {d : AuthCall}, s'.calls[j]? = some (some d) →
      s.calls[j]? = some (some d) ∨ j = s.calls.length ∧ o = some d := by
    intro j d hj
    rw [hcalls] at hj
    rcases Nat.lt_or_ge j s.calls.length with hlt | hge
    · rw [List.getElem?_append_left hlt] at hj
      exact Or.inl hj
    · obtain ⟨hlen, -⟩ := List.getElem?_eq_some_iff.mp hj
      rw [List.length_append, List.length_singleton] at hlen
      have hj' : j = s.calls.length := by omega
      subst hj'
      rw [List.getElem?_concat_length] at hj
      exact Or.inr ⟨rfl, Option.some.inj hj⟩
  refine ⟨?_, ?_, fun j d hj => ?_, fun j k d d' hj hk ha => ?_⟩
  · rw [hcalls, List.length_append, List.length_append, h.aligned]
    rfl
  · rw [hsessions, hids]
    exact h.one
  · rw [hsessions]
    rcases hget hj with hj | ⟨rfl, ho⟩
    · obtain ⟨b', hb', hp⟩ := h.pending j d hj
      exact ⟨b', by rw [List.getElem?_append_left (List.getElem?_eq_some_iff.mp hb').1, hb'], hp⟩
    · exact ⟨b, by rw [← h.aligned, List.getElem?_concat_length], (hnew d ho).1⟩
  · rcases hget hj with hj | ⟨rfl, ho⟩ <;> rcases hget hk with hk | ⟨rfl, ho'⟩
    · exact h.apart j k d d' hj hk ha
    · exact absurd ha ((hnew d' ho').2 d (waits_of_get hj))
    · exact absurd ha.symm ((hnew d ho).2 d' (waits_of_get hk))
    · rfl

/-- A waiting call moves, or ends. -/
theorem Linear.move (h : Linear env begun s) (hc : s.calls[i]? = some (some c)) (hcalls : s'.calls = s.calls.set i o)
    (hone : OnePerAccount s'.sessions s'.ids)
    (hothers : ∀ y : Session, y.accountId ≠ c.account → (y ∈ s'.sessions ↔ y ∈ s.sessions))
    (hnext : ∀ d, o = some d → d.account = c.account ∧
      ∀ b, begun[i]? = some b → Pending env s'.sessions b.began b.event d) :
    Linear env begun s' := by
  have hget : ∀ {j : Nat} {d : AuthCall}, s'.calls[j]? = some (some d) →
      j = i ∧ o = some d ∨ j ≠ i ∧ s.calls[j]? = some (some d) := by
    intro j d hj
    rw [hcalls] at hj
    by_cases hij : i = j
    · subst hij
      rw [List.getElem?_set_self (List.getElem?_eq_some_iff.mp hc).1] at hj
      exact Or.inl ⟨rfl, Option.some.inj hj⟩
    · rw [List.getElem?_set_ne hij] at hj
      exact Or.inr ⟨fun hji => hij hji.symm, hj⟩
  refine ⟨?_, hone, fun j d hj => ?_, fun j k d d' hj hk ha => ?_⟩
  · rw [hcalls, List.length_set, h.aligned]
  · rcases hget hj with ⟨rfl, ho⟩ | ⟨hji, hj⟩
    · obtain ⟨b, hb, -⟩ := h.pending j c hc
      exact ⟨b, hb, (hnext d ho).2 b hb⟩
    · obtain ⟨b, hb, hp⟩ := h.pending j d hj
      refine ⟨b, hb, hp.same fun y hy => (hothers y fun hya => hji ?_).symm⟩
      exact h.apart j i d c hj hc (hy.symm.trans hya)
  · rcases hget hj with ⟨rfl, ho⟩ | ⟨hji, hj⟩ <;> rcases hget hk with ⟨rfl, ho'⟩ | ⟨hki, hk⟩
    · rfl
    · exact absurd (h.apart k j d' c hk hc (ha.symm.trans (hnext d ho).1)) hki
    · exact absurd (h.apart j k d c hj hc (ha.trans (hnext d' ho').1)) hji
    · exact h.apart j k d d' hj hk ha

/-- A step that ends no call. -/
theorem ending_none (h : s'.ledger = s.ledger) :
    Machine.run (Ledger.call env) s.ledger (s.ending s' begun e) = some s'.ledger := by
  have hlength : s'.results.length = s.results.length := congrArg (fun l : Ledger => l.results.length) h
  have hends : s.ending s' begun e = [] := if_pos hlength
  rw [hends, h]
  rfl

/-- A call that answers at once does so alone. -/
theorem answered_alone {r : AuthResult} (hbegins : ∀ s₀ : AuthState, s₀.now = s.now → s₀.sessions = s.sessions →
    authStep env s₀ e = some (s₀.answer r)) : s.ledger.call env ⟨s.now, e, ""⟩ = some (s.answer r).ledger := by
  have halone : alone env (idle s.now s.ledger.sessions s.ledger.ids) e 0 "" =
      some ((idle s.now s.ledger.sessions s.ledger.ids).answer r) := by
    rw [alone, hbegins (idle s.now s.ledger.sessions s.ledger.ids) rfl rfl, Option.bind_some,
      toEnd_answered (answered_answer rfl r)]
  rw [Ledger.call, halone]
  rfl

/-- The beginning of a call. -/
theorem linear_begins (h : Linear env begun s) (he : e.begins = true) (hone : OneAtATime env s e)
    (hs : authStep env s e = some s') :
    Linear env (s.beginning begun e) s' ∧
      Machine.run (Ledger.call env) s.ledger (s.ending s' begun e) = some s'.ledger := by
  rw [beginning, if_pos he]
  rcases begins_cases env s.sessions s.now he with ⟨r, hbegins⟩ | ⟨c, accepted, hp, hbegins⟩
  · cases (hbegins s rfl rfl).symm.trans hs
    refine ⟨h.begin (o := none) rfl rfl rfl nofun, ?_⟩
    have hends : s.ending (s.answer r) begun e = [⟨s.now, e, ""⟩] := by
      cases e with
      | resume => cases he
      | _ => exact if_neg (by simp [answer])
    rw [hends]
    exact Machine.run_cons.mpr ⟨_, answered_alone hbegins, rfl⟩
  · cases (hbegins s rfl rfl).symm.trans hs
    refine ⟨h.begin (o := some c) rfl rfl rfl ?_, ending_none rfl⟩
    rintro d ⟨⟩
    exact ⟨hp, fun d' hd' => hone c.account hp.account d' hd'⟩

/-- The next request of a waiting call. -/
theorem linear_resumes (h : Linear env begun s) {pick : Nat} {uuid : String} (hc : s.calls[i]? = some (some c))
    (hs : AuthService.resume s i pick uuid c = some s') :
    Linear env begun s' ∧
      Machine.run (Ledger.call env) s.ledger (s.ending s' begun (.resume i pick uuid)) = some s'.ledger := by
  obtain ⟨b, hb, hp⟩ := h.pending i c hc
  by_cases hlast : ∀ a accessToken t, c ≠ .loginFind a accessToken t
  · have hends := hp.ends h.one hlast hc hs
    refine ⟨h.move hc hends.calls (Ledger.onePerAccount (l := s.ledger) h.one hends.alone) hends.others nofun, ?_⟩
    have hlist : s.ending s' begun (.resume i pick uuid) = [{ b with uuid := uuid }] := by
      rw [ending, if_neg (by rw [hends.results]; omega), hb]
      rfl
    rw [hlist]
    exact Machine.run_cons.mpr ⟨_, hends.alone, rfl⟩
  · push Not at hlast
    obtain ⟨a, accessToken, t, rfl⟩ := hlast
    obtain ⟨d, rfl, ha, hp'⟩ := hp.found hs
    refine ⟨h.move hc rfl h.one (fun _ _ => Iff.rfl) ?_, ending_none rfl⟩
    rintro d' ⟨⟩
    refine ⟨ha, fun b' hb' => ?_⟩
    cases hb.symm.trans hb'
    exact hp'

/-- **A step is the end of a call that could have run alone**, or changes nothing that a call could see. -/
theorem linear_step (h : Linear env begun s) (hone : OneAtATime env s e) (hs : authStep env s e = some s') :
    Linear env (s.beginning begun e) s' ∧
      Machine.run (Ledger.call env) s.ledger (s.ending s' begun e) = some s'.ledger := by
  by_cases he : e.begins = true
  · exact linear_begins h he hone hs
  · cases e with
    | tick =>
      cases hs
      exact ⟨⟨h.aligned, h.one, h.pending, h.apart⟩, ending_none rfl⟩
    | resume i pick uuid =>
      simp only [authStep, Option.bind_eq_some_iff] at hs
      obtain ⟨c, hc, hs⟩ := hs
      exact linear_resumes h (Option.join_eq_some_iff.mp hc) hs
    | _ => exact absurd rfl he

/-- No call has begun. -/
theorem linear_idle {now : Nat} {sessions : List Session} {ids : List String} (h : OnePerAccount sessions ids) :
    Linear env [] (idle now sessions ids) where
  aligned := rfl
  one := h
  pending _ _ hc := by cases hc
  apart _ _ _ _ hc := by cases hc

/-- A run is the calls that end in it, one after another. -/
theorem linear_run : ∀ {begun : List TimedCall} {s s' : AuthState} {events : List AuthEvent}, Linear env begun s →
    Machine.Along (authStep env) (OneAtATime env) s events → Machine.run (authStep env) s events = some s' →
    Machine.run (Ledger.call env) s.ledger (linearized env begun s events) = some s'.ledger
  | _, _, _, [], _, _, hrun => by
    cases hrun
    rfl
  | begun, s, s', e :: events, h, hone, hrun => by
    obtain ⟨t, ht, hrun⟩ := Machine.run_cons.mp hrun
    obtain ⟨hnext, hends⟩ := linear_step h hone.1 ht
    rw [linearized, ht]
    exact Machine.run_append.mpr ⟨_, hends, linear_run hnext (hone.2 t ht) hrun⟩

end Runs

/-- **Calls of different accounts may run side by side.** From sessions of which every account has one at most, and in
every interleaving of logins, refreshes, logouts and connection changes in which no call begins while another one for
its account waits: the sessions, the ids and the answers are those of the calls that have ended, each of which runs
alone at the time at which it began, one after another in the order in which they have ended. -/
theorem sessions_linearizable (env : AuthEnv) (now : Nat) (sessions : List Session) (ids : List String)
    (hsessions : OnePerAccount sessions ids) (events : List AuthEvent)
    (hone : Machine.Along (authStep env) (OneAtATime env) (idle now sessions ids) events) (s : AuthState)
    (hrun : Machine.run (authStep env) (idle now sessions ids) events = some s) :
    Machine.run (Ledger.call env) ⟨sessions, ids, []⟩ (linearized env [] (idle now sessions ids) events) =
      some s.ledger :=
  linear_run (linear_idle hsessions) hone hrun

/-- alice and bob log in and refresh side by side, and alice logs out. -/
def aliceAndBob : List AuthEvent :=
  [sampleLogin "alice", sampleLogin "bob", .resume 1 0 "", .resume 0 0 "", .tick, .resume 1 0 "s1", .resume 0 0 "s2",
    .refresh ⟨refreshTokenAt sampleAuthEnv 0 "bob"⟩ "bob" 0, .logout "alice" 0, .resume 3 0 "", .resume 2 0 ""]

theorem sessions_linearizable_sample :
    ∃ s, Machine.run (authStep sampleAuthEnv) (idle 0 [] []) aliceAndBob = some s ∧
      (linearized sampleAuthEnv [] (idle 0 [] []) aliceAndBob).map TimedCall.event =
        [sampleLogin "bob", sampleLogin "alice", .logout "alice" 0,
          .refresh ⟨refreshTokenAt sampleAuthEnv 0 "bob"⟩ "bob" 0] ∧
      Machine.run (Ledger.call sampleAuthEnv) ⟨[], [], []⟩
        (linearized sampleAuthEnv [] (idle 0 [] []) aliceAndBob) = some s.ledger := by
  obtain ⟨s, hs⟩ : ∃ s, Machine.run (authStep sampleAuthEnv) (idle 0 [] []) aliceAndBob = some s := ⟨_, rfl⟩
  exact ⟨s, hs, by decide, sessions_linearizable sampleAuthEnv 0 [] [] .nil aliceAndBob (by decide) s hs⟩

end DiscordClone
