import DiscordClone.Lib.Machine
import DiscordClone.Auth.Service

/-!
# What a step of the service can do

`AuthStep` lists the steps of `authStep` with what each of them has read (`authStep_cases`), grouped by what it does to
the sessions: a step creates a session, deletes one, writes one, or leaves them. The calls in flight are read off the
list of the calls (`Waits`).

`Known` is the invariant that lets a call use the id of a session after it has read it: an id is never used again, so
the session with this id, if there is still one, is the one the call has seen.
-/

namespace DiscordClone

namespace AuthCall

/-- The session that the call is going to write, with the account that it has seen there. -/
def session : AuthCall → Option (String × String)
  | .loginUpdate id a _ _ | .refreshUpdate id a _ _ _ | .logoutDelete id a | .statusUpdate id a _ => some (id, a)
  | _ => none

/-- The refresh token that the call is going to store, with its account. -/
def stores : AuthCall → Option (String × String)
  | .loginFind a _ t | .loginUpdate _ a _ t | .loginCreate a _ t | .refreshUpdate _ a _ _ t => some (a, t)
  | _ => none

/-- The refresh token that the call has presented. -/
def presents : AuthCall → Option String
  | .refreshUpdate _ _ presented _ _ => some presented
  | _ => none

/-- The account that the call logs in. -/
def logsIn : AuthCall → Option String
  | .loginFind a _ _ | .loginUpdate _ a _ _ | .loginCreate a _ _ => some a
  | _ => none

end AuthCall

/-- The account and the refresh token that a call has answered with. -/
def AuthResult.token : AuthResult → Option (String × String)
  | .login a _ t | .refresh a _ t => some (a, t)
  | _ => none

namespace AuthState

/-- The call is in flight. -/
def Waits (s : AuthState) (c : AuthCall) : Prop := some c ∈ s.calls

/-- What is decided of each call in flight is decided of all of them. -/
instance (s : AuthState) (p : AuthCall → Prop) [DecidablePred p] : Decidable (∀ c, s.Waits c → p c) :=
  decidable_of_iff (∀ o ∈ s.calls, ∀ c ∈ o, p c)
    ⟨fun h c hc => h _ hc c rfl, fun h o ho c hc => h c (by cases hc; exact ho)⟩

/-- The account for which a step creates a session. -/
def creates (s : AuthState) : AuthEvent → Option String
  | .resume i _ _ =>
    match s.calls[i]?.join with
    | some (.loginCreate a _ _) => some a
    | _ => none
  | _ => none

end AuthState

namespace Session

/-- The id with the account. -/
def key (x : Session) : String × String := (x.id, x.accountId)

/-- A refresh token stored in the session with this id. -/
def store (id t : String) (x : Session) : Session := if x.id = id then { x with refreshToken := t } else x

/-- A status written in the session with this id. -/
def mark (id : String) (status : ConnectionStatus) (x : Session) : Session :=
  if x.id = id then { x with connectionStatus := status } else x

@[simp] theorem key_store (id t : String) (x : Session) : (x.store id t).key = x.key := by
  unfold store
  split <;> rfl

@[simp] theorem key_mark (id : String) (status : ConnectionStatus) (x : Session) : (x.mark id status).key = x.key := by
  unfold mark
  split <;> rfl

@[simp] theorem refreshToken_mark (id : String) (status : ConnectionStatus) (x : Session) :
    (x.mark id status).refreshToken = x.refreshToken := by
  unfold mark
  split <;> rfl

@[simp] theorem accountId_mark (id : String) (status : ConnectionStatus) (x : Session) :
    (x.mark id status).accountId = x.accountId := (Prod.mk.inj (key_mark id status x)).2

theorem store_self {x : Session} {id : String} (t : String) (h : x.id = id) :
    x.store id t = { x with refreshToken := t } := if_pos h

theorem store_ne {x : Session} {id : String} (t : String) (h : x.id ≠ id) : x.store id t = x := if_neg h

/-- A token is stored in its own column. -/
theorem store_others (id t : String) (x : Session) :
    (x.store id t).accountId = x.accountId ∧ (x.store id t).connectionStatus = x.connectionStatus := by
  unfold store
  split <;> exact ⟨rfl, rfl⟩

end Session

/-- The keys of the sessions. -/
def AuthState.keys (s : AuthState) : List (String × String) := s.sessions.map Session.key

/-- The refresh token of an account, signed at the time `now`. -/
def refreshTokenAt (env : AuthEnv) (now : Nat) (accountId : String) : String :=
  signToken env.jwt env.config now .REFRESH accountId

/-- The steps of the service. -/
inductive AuthStep (env : AuthEnv) (s : AuthState) : AuthEvent → AuthState → Prop
  | tick : AuthStep env s .tick { s with now := s.now + 1 }
  /-- A call ends at once. -/
  | answered {e r} (he : ∀ i pick uuid, e ≠ .resume i pick uuid) (hr : r.token = none) : AuthStep env s e (s.answer r)
  /-- A login has passed its checks. -/
  | login {data e accessToken} (he : env.accounts.findFirst (fun e => e.email = data.email) = some e) :
      AuthStep env s (.login data) (s.wait (.loginFind e.id accessToken (refreshTokenAt env s.now e.id)))
  /-- A refresh has found a session with its token. -/
  | refresh {data pick x accessToken} (hx : x ∈ s.sessions) (ht : x.refreshToken = data.refreshToken) :
      AuthStep env s (.refresh data x.accountId pick)
        ({ s with accepted := (x.accountId, data.refreshToken) :: s.accepted }.wait
          (.refreshUpdate x.id x.accountId data.refreshToken accessToken (refreshTokenAt env s.now x.accountId)))
  /-- A logout has found a session. -/
  | logout {pick x} (hx : x ∈ s.sessions) :
      AuthStep env s (.logout x.accountId pick) (s.wait (.logoutDelete x.id x.accountId))
  /-- A change of the connection has found a session. -/
  | status {status pick x} (hx : x ∈ s.sessions) :
      AuthStep env s (.updateConnectionStatus x.accountId status pick)
        (s.wait (.statusUpdate x.id x.accountId status))
  /-- A login has found a session. -/
  | found {i pick uuid accessToken t x} (hc : s.calls[i]? = some (some (.loginFind x.accountId accessToken t)))
      (hx : x ∈ s.sessions) :
      AuthStep env s (.resume i pick uuid) (s.goOn i (.loginUpdate x.id x.accountId accessToken t))
  /-- A login has found no session. -/
  | notFound {i pick uuid a accessToken t} (hc : s.calls[i]? = some (some (.loginFind a accessToken t)))
      (hn : ∀ x ∈ s.sessions, x.accountId ≠ a) :
      AuthStep env s (.resume i pick uuid) (s.goOn i (.loginCreate a accessToken t))
  /-- A login creates a session. -/
  | created {i pick uuid a accessToken t} (hc : s.calls[i]? = some (some (.loginCreate a accessToken t)))
      (hu : uuid ∉ s.ids) :
      AuthStep env s (.resume i pick uuid)
        { s.finish i (.login a accessToken t) with
          sessions := s.sessions ++ [{ id := uuid, accountId := a, refreshToken := t }]
          ids := uuid :: s.ids }
  /-- A login or a refresh stores its token. -/
  | stored {i pick uuid c id a t r} (hc : s.calls[i]? = some (some c)) (hs : c.session = some (id, a))
      (ht : c.stores = some (a, t)) (hr : r.token = some (a, t)) (hx : ∃ x ∈ s.sessions, x.id = id) :
      AuthStep env s (.resume i pick uuid)
        { s.finish i r with sessions := s.sessions.map (Session.store id t) }
  /-- A logout deletes the session. -/
  | deleted {i pick uuid id a} (hc : s.calls[i]? = some (some (.logoutDelete id a))) :
      AuthStep env s (.resume i pick uuid)
        { s.finish i (.logout a) with sessions := s.sessions.filter fun x => x.id ≠ id }
  /-- The connection of the session changes. -/
  | marked {i pick uuid id a status} (hc : s.calls[i]? = some (some (.statusUpdate id a status))) :
      AuthStep env s (.resume i pick uuid)
        { s.finish i (.updateConnectionStatus a) with sessions := s.sessions.map (Session.mark id status) }
  /-- The session that a call has read is gone. -/
  | lost {i pick uuid c id a e} (hc : s.calls[i]? = some (some c)) (hs : c.session = some (id, a))
      (hn : ∀ x ∈ s.sessions, x.id ≠ id) : AuthStep env s (.resume i pick uuid) (s.finish i (.failed e))

/-! ## The requests -/

theorem findFirst_some {sessions : List Session} {p : Session → Bool} {pick : Nat} {x : Session}
    (h : Session.findFirst sessions p pick = some x) : x ∈ sessions ∧ p x = true :=
  List.mem_filter.mp (List.mem_of_getElem? h)

/-- A session that was looked up by its account. -/
theorem findFirst_account {sessions : List Session} {a : String} {pick : Nat} {x : Session}
    (h : Session.findFirst sessions (fun x => x.accountId = a) pick = some x) : x ∈ sessions ∧ x.accountId = a := by
  obtain ⟨hx, ha⟩ := findFirst_some h
  exact ⟨hx, of_decide_eq_true ha⟩

/-- A session that was looked up by its account and its token. -/
theorem findFirst_token {sessions : List Session} {a t : String} {pick : Nat} {x : Session}
    (h : Session.findFirst sessions (fun x => x.accountId = a && x.refreshToken = t) pick = some x) :
    x ∈ sessions ∧ x.accountId = a ∧ x.refreshToken = t := by
  obtain ⟨hx, hp⟩ := findFirst_some h
  rw [Bool.and_eq_true, decide_eq_true_eq, decide_eq_true_eq] at hp
  exact ⟨hx, hp⟩

/-- `findFirst` finds a row when there is one. -/
theorem findFirst_none {sessions : List Session} {p : Session → Bool} {pick : Nat}
    (h : Session.findFirst sessions p pick = none) : ∀ x ∈ sessions, p x = false := by
  intro x hx
  by_contra hp
  have hmem : x ∈ sessions.filter p := List.mem_filter.mpr ⟨hx, by simpa using hp⟩
  have hpos : 0 < (sessions.filter p).length := List.length_pos_of_mem hmem
  have hle := List.getElem?_eq_none_iff.mp h
  have hlt := Nat.mod_lt pick hpos
  omega

/-- An update writes the rows with the id, or finds none. -/
theorem update_cases (sessions : List Session) (id : String) (f : Session → Session) :
    (∃ x ∈ sessions, x.id = id) ∧
        Session.update sessions id f = .ok (sessions.map fun x => if x.id = id then f x else x) ∨
      (∀ x ∈ sessions, x.id ≠ id) ∧ Session.update sessions id f = .error (.prisma .recordNotFound) := by
  unfold Session.update
  split
  · rename_i h
    exact Or.inl ⟨by simpa using h, rfl⟩
  · rename_i h
    exact Or.inr ⟨by simpa using h, rfl⟩

/-- A delete removes the rows with the id, or finds none. -/
theorem delete_cases (sessions : List Session) (id : String) :
    Session.delete sessions id = .ok (sessions.filter fun x => x.id ≠ id) ∨
      (∀ x ∈ sessions, x.id ≠ id) ∧ Session.delete sessions id = .error (.prisma .recordNotFound) := by
  unfold Session.delete
  split
  · exact Or.inl rfl
  · rename_i h
    exact Or.inr ⟨by simpa using h, rfl⟩

/-! ## The steps -/

variable {env : AuthEnv} {s s' : AuthState} {e : AuthEvent}

/-- A call that ends with an update writes the session that it has read, or that session is gone. -/
theorem finishWrite_update {i pick : Nat} {uuid id a : String} {c : AuthCall} {r : AuthResult} {f : Session → Session}
    (hc : s.calls[i]? = some (some c)) (hs : c.session = some (id, a))
    (h : s.finishWrite i r (Session.update s.sessions id f) = s') :
    (∃ x ∈ s.sessions, x.id = id) ∧
        s' = { s.finish i r with sessions := s.sessions.map fun x => if x.id = id then f x else x } ∨
      AuthStep env s (.resume i pick uuid) s' := by
  rcases update_cases s.sessions id f with ⟨hx, hu⟩ | ⟨hn, hu⟩
  · rw [hu] at h
    exact Or.inl ⟨hx, h.symm⟩
  · rw [hu] at h
    subst h
    exact Or.inr (.lost hc hs hn)

theorem resume_cases {i pick : Nat} {uuid : String} {c : AuthCall} (hc : s.calls[i]? = some (some c))
    (h : AuthService.resume s i pick uuid c = some s') : AuthStep env s (.resume i pick uuid) s' := by
  cases c with
  | loginFind a accessToken t =>
    simp only [AuthService.resume] at h
    split at h
    · rename_i x hf
      obtain ⟨hx, rfl⟩ := findFirst_account hf
      cases h
      exact .found hc hx
    · rename_i hn
      cases h
      exact .notFound hc fun x hx => by simpa using findFirst_none hn x hx
  | loginCreate a accessToken t =>
    simp only [AuthService.resume] at h
    split at h
    · cases h
    · rename_i hu
      cases h
      exact .created hc hu
  | loginUpdate id a accessToken t =>
    rcases finishWrite_update hc rfl (Option.some.inj h) with ⟨hx, rfl⟩ | hlost
    · exact .stored hc rfl rfl rfl hx
    · exact hlost
  | refreshUpdate id a presented accessToken t =>
    rcases finishWrite_update hc rfl (Option.some.inj h) with ⟨hx, rfl⟩ | hlost
    · exact .stored hc rfl rfl rfl hx
    · exact hlost
  | logoutDelete id a =>
    simp only [AuthService.resume] at h
    rcases delete_cases s.sessions id with hu | ⟨hn, hu⟩
    · rw [hu] at h
      cases h
      exact .deleted hc
    · rw [hu] at h
      cases h
      exact .lost hc rfl hn
  | statusUpdate id a status =>
    rcases finishWrite_update hc rfl (Option.some.inj h) with ⟨-, rfl⟩ | hlost
    · exact .marked hc
    · exact hlost

/-- **What one step can do.** -/
theorem authStep_cases (h : authStep env s e = some s') : AuthStep env s e s' := by
  cases e with
  | tick =>
    cases h
    exact .tick
  | login data =>
    simp only [authStep, AuthService.login, Option.some.injEq] at h
    split at h
    · subst h
      exact .answered (by simp) rfl
    · rename_i e he
      split at h
      · subst h
        exact .answered (by simp) rfl
      · split at h
        · subst h
          exact .answered (by simp) rfl
        · subst h
          exact .login he
  | refresh data a pick =>
    simp only [authStep, AuthService.refresh, Option.some.injEq] at h
    split at h
    · subst h
      exact .answered (by simp) rfl
    · rename_i x hf
      obtain ⟨hx, rfl, ht⟩ := findFirst_token hf
      subst h
      exact .refresh hx ht
  | logout a pick =>
    simp only [authStep, AuthService.logout, Option.some.injEq] at h
    split at h
    · subst h
      exact .answered (by simp) rfl
    · rename_i x hf
      obtain ⟨hx, rfl⟩ := findFirst_account hf
      subst h
      exact .logout hx
  | updateConnectionStatus a status pick =>
    simp only [authStep, AuthService.updateConnectionStatus, Option.some.injEq] at h
    split at h
    · subst h
      exact .answered (by simp) rfl
    · rename_i x hf
      obtain ⟨hx, rfl⟩ := findFirst_account hf
      subst h
      exact .status hx
  | resume i pick uuid =>
    simp only [authStep, Option.bind_eq_some_iff] at h
    obtain ⟨c, hc, h⟩ := h
    exact resume_cases (Option.join_eq_some_iff.mp hc) h

/-! ## Calls in flight -/

section Waits

variable {c d : AuthCall} {i : Nat} {r : AuthResult}

theorem waits_of_get (h : s.calls[i]? = some (some c)) : s.Waits c := List.mem_of_getElem? h

@[simp] theorem waits_wait : (s.wait c).Waits d ↔ s.Waits d ∨ d = c := by
  simp [AuthState.Waits, AuthState.wait]

@[simp] theorem waits_answer : (s.answer r).Waits d ↔ s.Waits d := by
  simp [AuthState.Waits, AuthState.answer]

theorem waits_goOn (h : (s.goOn i c).Waits d) : s.Waits d ∨ d = c := by
  rcases List.mem_or_eq_of_mem_set h with h | h
  · exact Or.inl h
  · exact Or.inr (Option.some.inj h)

/-- A call that has ended is in flight no more. -/
theorem waits_of_set_none (h : some d ∈ s.calls.set i none) : s.Waits d := by
  rcases List.mem_or_eq_of_mem_set h with h | h
  · exact h
  · cases h

/-- A call other than the one that moves stays in flight. -/
theorem mem_set_ne {calls : List (Option AuthCall)} {o : Option AuthCall} (hi : calls[i]? = some (some c))
    (hd : some d ∈ calls) (hne : d ≠ c) : some d ∈ calls.set i o := by
  obtain ⟨j, hj⟩ := List.mem_iff_getElem?.mp hd
  have hij : i ≠ j := by
    rintro rfl
    rw [hi] at hj
    exact hne (Option.some.inj (Option.some.inj hj)).symm
  refine List.mem_iff_getElem?.mpr ⟨j, ?_⟩
  rw [List.getElem?_set_ne hij, hj]

end Waits

/-! ## Ids and accounts -/

/-- A write of another column leaves the keys. -/
theorem keys_map {sessions : List Session} {f : Session → Session} (hf : ∀ x, (f x).key = x.key) :
    (sessions.map f).map Session.key = sessions.map Session.key := by
  have hk : Session.key ∘ f = Session.key := funext hf
  rw [List.map_map, hk]

/-- A call that has been looked up creates a session only when it is a login without one. -/
theorem creates_of_get {i pick : Nat} {uuid : String} {c : AuthCall} (hc : s.calls[i]? = some (some c))
    (hn : ∀ a accessToken t, c ≠ .loginCreate a accessToken t) : s.creates (.resume i pick uuid) = none := by
  cases c with
  | loginCreate a accessToken t => exact absurd rfl (hn a accessToken t)
  | _ => simp [AuthState.creates, hc]

theorem creates_of_not_resume (he : ∀ i pick uuid, e ≠ .resume i pick uuid) : s.creates e = none := by
  cases e with
  | resume i pick uuid => exact absurd rfl (he i pick uuid)
  | _ => rfl

/-- **A step creates one session, with an id that is new, or none.** -/
theorem AuthStep.keys (h : AuthStep env s e s') :
    s.creates e = none ∧ s'.keys.Sublist s.keys ∧ s'.ids = s.ids ∨
      ∃ uuid a, s.creates e = some a ∧ uuid ∉ s.ids ∧ s'.keys = s.keys ++ [(uuid, a)] ∧ s'.ids = uuid :: s.ids := by
  cases h with
  | @created i pick uuid a accessToken t hc hu =>
    refine Or.inr ⟨uuid, a, ?_, hu, ?_, rfl⟩
    · simp [AuthState.creates, hc]
    · simp [AuthState.keys, Session.key]
  | answered he hr => exact Or.inl ⟨creates_of_not_resume he, List.Sublist.refl _, rfl⟩
  | found hc hx => exact Or.inl ⟨creates_of_get hc (by simp), List.Sublist.refl _, rfl⟩
  | notFound hc hn => exact Or.inl ⟨creates_of_get hc (by simp), List.Sublist.refl _, rfl⟩
  | stored hc hs ht hr hx =>
    refine Or.inl ⟨creates_of_get hc ?_, ?_, rfl⟩
    · rintro a accessToken t rfl
      cases hs
    · rw [AuthState.keys, keys_map (Session.key_store _ _)]
      exact List.Sublist.refl _
  | deleted hc => exact Or.inl ⟨creates_of_get hc (by simp), List.filter_sublist.map _, rfl⟩
  | marked hc =>
    refine Or.inl ⟨creates_of_get hc (by simp), ?_, rfl⟩
    rw [AuthState.keys, keys_map (Session.key_mark _ _)]
    exact List.Sublist.refl _
  | lost hc hs hn =>
    refine Or.inl ⟨creates_of_get hc ?_, List.Sublist.refl _, rfl⟩
    rintro a accessToken t rfl
    cases hs
  | _ => exact Or.inl ⟨rfl, List.Sublist.refl _, rfl⟩

/-- A call that is going to write a session was in flight before, or has just seen it. -/
theorem AuthStep.session_seen (h : AuthStep env s e s') {d : AuthCall} {k : String × String} (hd : s'.Waits d)
    (hk : d.session = some k) : s.Waits d ∨ k ∈ s.keys := by
  have hsee : ∀ x ∈ s.sessions, x.key ∈ s.keys := fun x hx => List.mem_map_of_mem hx
  cases h with
  | tick => exact Or.inl hd
  | answered he hr => exact Or.inl (waits_answer.mp hd)
  | login he =>
    rcases waits_wait.mp hd with hd | rfl
    · exact Or.inl hd
    · cases hk
  | refresh hx | logout hx | status hx =>
    rcases waits_wait.mp hd with hd | rfl
    · exact Or.inl hd
    · cases hk
      exact Or.inr (hsee _ hx)
  | found hc hx =>
    rcases waits_goOn hd with hd | rfl
    · exact Or.inl hd
    · cases hk
      exact Or.inr (hsee _ hx)
  | notFound hc hn =>
    rcases waits_goOn hd with hd | rfl
    · exact Or.inl hd
    · cases hk
  | _ => exact Or.inl (waits_of_set_none hd)

/-- An id belongs to one account: every id in use has been drawn, and the session that a call is going to write, if it
is still there, is one of the account that the call has seen. -/
structure Known (s : AuthState) : Prop where
  drawn : ∀ k ∈ s.keys, k.1 ∈ s.ids
  unique : ∀ k ∈ s.keys, ∀ k' ∈ s.keys, k.1 = k'.1 → k.2 = k'.2
  waiting : ∀ c, s.Waits c → ∀ k, c.session = some k → k.1 ∈ s.ids ∧ ∀ k' ∈ s.keys, k.1 = k'.1 → k.2 = k'.2

theorem known_init (now : Nat) : Known (.init now) where
  drawn _ h := by cases h
  unique _ h := by cases h
  waiting _ h := by cases h

/-- What is known of a session that is there or that a call has seen. -/
theorem Known.seen (h : Known s) {c : AuthCall} {k : String × String} (hk : c.session = some k)
    (hs : s.Waits c ∨ k ∈ s.keys) : k.1 ∈ s.ids ∧ ∀ k' ∈ s.keys, k.1 = k'.1 → k.2 = k'.2 := by
  rcases hs with hs | hs
  · exact h.waiting c hs k hk
  · exact ⟨h.drawn k hs, h.unique k hs⟩

/-- The session that a call is going to write is one of the account that the call has seen. -/
theorem Known.account (h : Known s) {c : AuthCall} {id a : String} (hc : s.Waits c) (hk : c.session = some (id, a))
    {x : Session} (hx : x ∈ s.sessions) (hid : x.id = id) : x.accountId = a :=
  ((h.waiting c hc _ hk).2 x.key (List.mem_map_of_mem hx) hid.symm).symm

/-- **Every step keeps what is known.** -/
theorem known_step (env : AuthEnv) (s : AuthState) (e : AuthEvent) (s' : AuthState) (h : Known s)
    (hs : authStep env s e = some s') : Known s' := by
  have hstep := authStep_cases hs
  rcases hstep.keys with ⟨-, hsub, hids⟩ | ⟨uuid, a, -, hu, hkeys, hids⟩
  · refine ⟨fun k hk => ?_, fun k hk k' hk' => ?_, fun c hc k hk => ?_⟩
    · rw [hids]
      exact h.drawn k (hsub.mem hk)
    · exact h.unique k (hsub.mem hk) k' (hsub.mem hk')
    · obtain ⟨hd, hac⟩ := h.seen hk (hstep.session_seen hc hk)
      rw [hids]
      exact ⟨hd, fun k' hk' => hac k' (hsub.mem hk')⟩
  · -- the new id is none of those in use
    have hnew : ∀ {k : String × String}, k.1 ∈ s.ids → k.1 ≠ uuid := fun hk e => hu (e ▸ hk)
    have hmem : ∀ {k : String × String}, k ∈ s'.keys ↔ k ∈ s.keys ∨ k = (uuid, a) := by
      intro k
      rw [hkeys, List.mem_append, List.mem_singleton]
    refine ⟨fun k hk => ?_, fun k hk k' hk' he => ?_, fun c hc k hk => ?_⟩
    · rw [hids]
      rcases hmem.mp hk with hk | rfl
      · exact List.mem_cons_of_mem _ (h.drawn k hk)
      · exact List.mem_cons_self
    · rcases hmem.mp hk with hk | rfl <;> rcases hmem.mp hk' with hk' | rfl
      · exact h.unique k hk k' hk' he
      · exact absurd he (hnew (h.drawn k hk))
      · exact absurd he.symm (hnew (h.drawn k' hk'))
      · rfl
    · obtain ⟨hd, hac⟩ := h.seen hk (hstep.session_seen hc hk)
      rw [hids]
      refine ⟨List.mem_cons_of_mem _ hd, fun k' hk' he => ?_⟩
      rcases hmem.mp hk' with hk' | rfl
      · exact hac k' hk' he
      · exact absurd he (hnew hd)

/-- **Every run keeps what is known.** -/
theorem known_run {events : List AuthEvent} (h : Known s) (hrun : Machine.run (authStep env) s events = some s') :
    Known s' := Machine.run_inv' (known_step env) h hrun

end DiscordClone
