import DiscordClone.Auth.Steps
import DiscordClone.Sample

/-!
# One session per account, and what a logout revokes

- `oneSession_step`: a step keeps at most one session per account exactly when the login that creates a session still
  finds the account without one (`CreatesAlone`). Nothing in the service or in the table sees to that.
- `revoking_step`, `revoked_step`: a logout that has seen the only session of its account leaves the account without a
  session when it ends, and without logins of the account it stays so.
- `AuthStep.refreshed`: then no refresh of the account ends well, also none that was in flight.
-/

namespace DiscordClone

/-- At most one session for each account. -/
def OneSession (s : AuthState) : Prop := (s.sessions.map Session.accountId).Nodup

/-- A step that creates a session finds the account without one. -/
def CreatesAlone (s : AuthState) (e : AuthEvent) : Prop := ∀ a ∈ s.creates e, ∀ x ∈ s.sessions, x.accountId ≠ a

/-- A login of the account begins. -/
def AuthEvent.LogsIn (env : AuthEnv) (a : String) : AuthEvent → Prop
  | .login data => (env.accounts.findFirst fun e => e.email = data.email).map Account.id = some a
  | _ => False

/-- No login of the account is in flight. -/
def NoLogin (a : String) (s : AuthState) : Prop := ∀ c, s.Waits c → c.logsIn ≠ some a

/-- The result of a refresh of the account. -/
def AuthResult.refreshes (a : String) : AuthResult → Bool
  | .refresh b _ _ => b = a
  | _ => false

/-- What the refreshes of the account have answered. -/
def AuthState.refreshed (s : AuthState) (a : String) : List AuthResult := s.results.filter (AuthResult.refreshes a)

instance (s : AuthState) : Decidable (OneSession s) := inferInstanceAs (Decidable (List.Nodup _))

instance (s : AuthState) (e : AuthEvent) : Decidable (CreatesAlone s e) :=
  inferInstanceAs (Decidable (∀ a ∈ s.creates e, _))

instance (a : String) (s : AuthState) : Decidable (NoLogin a s) :=
  inferInstanceAs (Decidable (∀ c, s.Waits c → c.logsIn ≠ some a))

instance (env : AuthEnv) (a : String) (e : AuthEvent) : Decidable (e.LogsIn env a) := by
  unfold AuthEvent.LogsIn
  split <;> infer_instance

variable {env : AuthEnv} {s s' : AuthState} {e : AuthEvent} {a : String} {i : Nat}

/-! ## At most one session -/

theorem oneSession_keys : OneSession s ↔ (s.keys.map Prod.snd).Nodup := by
  rw [OneSession, AuthState.keys, List.map_map]
  rfl

/-- **A step keeps at most one session** for each account exactly when it creates none beside another. -/
theorem oneSession_step (h : OneSession s) (hs : authStep env s e = some s') : OneSession s' ↔ CreatesAlone s e := by
  rw [oneSession_keys] at h ⊢
  rcases (authStep_cases hs).keys with ⟨hc, hsub, -⟩ | ⟨uuid, a, hc, -, hkeys, -⟩
  · refine iff_of_true (h.sublist (hsub.map _)) ?_
    intro a ha
    rw [hc] at ha
    cases ha
  · have hmem : a ∈ s.keys.map Prod.snd ↔ ∃ x ∈ s.sessions, x.accountId = a := by
      simp [AuthState.keys, Session.key]
    have hnd : (s'.keys.map Prod.snd).Nodup ↔ a ∉ s.keys.map Prod.snd := by
      rw [hkeys, List.map_append, List.map_singleton, List.nodup_append_comm, List.singleton_append, List.nodup_cons]
      exact and_iff_left h
    rw [hnd, hmem, CreatesAlone, hc]
    simp

/-- Two sessions of one account are one. -/
theorem OneSession.eq (h : OneSession s) {x y : Session} (hx : x ∈ s.sessions) (hy : y ∈ s.sessions)
    (he : x.accountId = y.accountId) : x = y := List.inj_on_of_nodup_map h hx hy he

/-! ## Logins in flight -/

/-- A login that is in flight was so before, or begins. -/
theorem AuthStep.login_seen (h : AuthStep env s e s') {d : AuthCall} (hd : s'.Waits d) (hl : d.logsIn = some a) :
    (∃ c, s.Waits c ∧ c.logsIn = some a) ∨ e.LogsIn env a := by
  cases h with
  | tick => exact Or.inl ⟨d, hd, hl⟩
  | answered he hr => exact Or.inl ⟨d, waits_answer.mp hd, hl⟩
  | login he =>
    rcases waits_wait.mp hd with hd | rfl
    · exact Or.inl ⟨d, hd, hl⟩
    · refine Or.inr ?_
      rw [AuthEvent.LogsIn, he]
      exact hl
  | found hc hx =>
    rcases waits_goOn hd with hd | rfl
    · exact Or.inl ⟨d, hd, hl⟩
    · exact Or.inl ⟨_, waits_of_get hc, hl⟩
  | notFound hc hn =>
    rcases waits_goOn hd with hd | rfl
    · exact Or.inl ⟨d, hd, hl⟩
    · exact Or.inl ⟨_, waits_of_get hc, hl⟩
  | refresh | logout | status =>
    rcases waits_wait.mp hd with hd | rfl
    · exact Or.inl ⟨d, hd, hl⟩
    · cases hl
  | _ => exact Or.inl ⟨d, waits_of_set_none hd, hl⟩

/-- Without a login of the account in flight or beginning, none is in flight. -/
theorem noLogin_step (h : NoLogin a s) (he : ¬e.LogsIn env a) (hs : AuthStep env s e s') : NoLogin a s' := by
  intro d hd hl
  rcases hs.login_seen hd hl with ⟨c, hc, hl⟩ | hl
  · exact h c hc hl
  · exact he hl

/-- A session is created for an account whose login is in flight. -/
theorem creates_waits (h : s.creates e = some a) : ∃ c, s.Waits c ∧ c.logsIn = some a := by
  cases e with
  | resume i pick uuid =>
    simp only [AuthState.creates] at h
    split at h
    · rename_i b accessToken t hc
      cases h
      exact ⟨_, waits_of_get (Option.join_eq_some_iff.mp hc), rfl⟩
    · cases h
  | _ => cases h

/-- Without a login of the account in flight, every session of the account was there before. -/
theorem NoLogin.keys (h : NoLogin a s) (hs : AuthStep env s e s') {k : String × String} (hk : k ∈ s'.keys)
    (ha : k.2 = a) : k ∈ s.keys := by
  rcases hs.keys with ⟨-, hsub, -⟩ | ⟨uuid, b, hc, -, hkeys, -⟩
  · exact hsub.mem hk
  · rw [hkeys, List.mem_append, List.mem_singleton] at hk
    rcases hk with hk | rfl
    · exact hk
    · obtain ⟨c, hw, hl⟩ := creates_waits hc
      exact absurd (ha ▸ hl) (h c hw)

/-! ## Logouts -/

/-- The account has no session, and none is coming. -/
structure Revoked (a : String) (s : AuthState) : Prop where
  noLogin : NoLogin a s
  gone : ∀ k ∈ s.keys, k.2 ≠ a

/-- The call `i` is a logout of the account that is going to delete its only session. -/
structure Revoking (a : String) (i : Nat) (s : AuthState) : Prop where
  noLogin : NoLogin a s
  only : ∃ id, s.calls[i]? = some (some (.logoutDelete id a)) ∧ ∀ k ∈ s.keys, k.2 = a → k.1 = id

/-- A call stays where it is unless it is resumed. -/
theorem AuthStep.get (h : AuthStep env s e s') {c : AuthCall} (hc : s.calls[i]? = some (some c))
    (he : ∀ pick uuid, e ≠ .resume i pick uuid) : s'.calls[i]? = some (some c) := by
  have happ : ∀ o : Option AuthCall, (s.calls ++ [o])[i]? = some (some c) := fun o => by
    rw [List.getElem?_append_left (List.getElem?_eq_some_iff.mp hc).1]
    exact hc
  have hset : ∀ {j pick uuid} {o : Option AuthCall},
      (∀ pick' uuid', AuthEvent.resume j pick uuid ≠ .resume i pick' uuid') →
      (s.calls.set j o)[i]? = some (some c) := fun hj => by
    rw [List.getElem?_set_ne fun e => hj _ _ (by rw [e])]
    exact hc
  cases h with
  | tick => exact hc
  | answered | login | refresh | logout | status => exact happ _
  | _ => exact hset he

/-- The delete of a logout leaves no session with its id. -/
theorem AuthStep.logged_out {pick : Nat} {uuid id : String} (h : AuthStep env s (.resume i pick uuid) s')
    (hc : s.calls[i]? = some (some (.logoutDelete id a))) : ∀ k ∈ s'.keys, k ∈ s.keys ∧ k.1 ≠ id := by
  intro k hk
  cases h with
  | answered he hr => exact absurd rfl (he i pick uuid)
  | deleted hc' =>
    cases hc.symm.trans hc'
    obtain ⟨x, hx, rfl⟩ := List.mem_map.mp hk
    obtain ⟨hx, hid⟩ := List.mem_filter.mp hx
    exact ⟨List.mem_map_of_mem hx, of_decide_eq_true hid⟩
  | lost hc' hs hn =>
    cases hc.symm.trans hc'
    cases hs
    obtain ⟨x, hx, rfl⟩ := List.mem_map.mp hk
    exact ⟨hk, hn x hx⟩
  | stored hc' hs ht hr hx =>
    cases hc.symm.trans hc'
    cases ht
  | found hc' | notFound hc' | created hc' | marked hc' => cases hc.symm.trans hc'

/-- An account without a session keeps none. -/
theorem revoked_step (h : Revoked a s) (he : ¬e.LogsIn env a) (hs : AuthStep env s e s') : Revoked a s' :=
  ⟨noLogin_step h.noLogin he hs, fun k hk ha => h.gone k (h.noLogin.keys hs hk ha) ha⟩

/-- **A logout that is going to delete the only session** is going to do so after a step, or has done so. -/
theorem revoking_step (h : Revoking a i s) (he : ¬e.LogsIn env a) (hs : AuthStep env s e s') :
    Revoking a i s' ∨ Revoked a s' := by
  have hno := noLogin_step h.noLogin he hs
  obtain ⟨id, hc, honly⟩ := h.only
  by_cases hi : ∃ pick uuid, e = .resume i pick uuid
  · obtain ⟨pick, uuid, rfl⟩ := hi
    refine Or.inr ⟨hno, fun k hk ha => ?_⟩
    obtain ⟨hk, hne⟩ := hs.logged_out hc k hk
    exact hne (honly k hk ha)
  · have hget := hs.get hc fun pick uuid e => hi ⟨pick, uuid, e⟩
    exact Or.inl ⟨hno, id, hget, fun k hk ha => honly k (h.noLogin.keys hs hk ha) ha⟩

/-- A logout begins: it has seen the only session of the account, or there is none. -/
theorem logout_begins {pick : Nat} (h : OneSession s) (hno : NoLogin a s)
    (hs : authStep env s (.logout a pick) = some s') : Revoking a s.calls.length s' ∨ Revoked a s' := by
  have hno' : NoLogin a s' := noLogin_step hno (e := .logout a pick) id (authStep_cases hs)
  simp only [authStep, AuthService.logout, Option.some.injEq] at hs
  split at hs
  · rename_i hf
    subst hs
    refine Or.inr ⟨hno', fun k hk ha => ?_⟩
    obtain ⟨x, hx, rfl⟩ := List.mem_map.mp hk
    have := findFirst_none hf x hx
    simp only [decide_eq_false_iff_not] at this
    exact this ha
  · rename_i x hf
    obtain ⟨hx, hxa⟩ := findFirst_account hf
    subst hs
    refine Or.inl ⟨hno', x.id, ?_, fun k hk ha => ?_⟩
    · simp [AuthState.wait]
    · obtain ⟨y, hy, rfl⟩ := List.mem_map.mp hk
      exact congrArg Session.id (h.eq hy hx (ha.trans hxa.symm))

/-- **A logout revokes.** When the call has ended, the account has no session. -/
theorem revoked_of_ended {pick : Nat} {later : List AuthEvent} (h : OneSession s) (hno : NoLogin a s)
    (hfree : Machine.Along (authStep env) (fun _ e => ¬e.LogsIn env a) s (.logout a pick :: later))
    (hrun : Machine.run (authStep env) s (.logout a pick :: later) = some s')
    (hend : s'.calls[s.calls.length]? = some none) : Revoked a s' := by
  obtain ⟨t, ht, hrun⟩ := Machine.run_cons.mp hrun
  have hstep : ∀ u e u', Revoking a s.calls.length u ∨ Revoked a u → ¬e.LogsIn env a → authStep env u e = some u' →
      Revoking a s.calls.length u' ∨ Revoked a u' := by
    intro u e u' hu he hs
    rcases hu with hu | hu
    · exact revoking_step hu he (authStep_cases hs)
    · exact Or.inr (revoked_step hu he (authStep_cases hs))
  rcases Machine.run_inv hstep (logout_begins h hno ht) (hfree.2 t ht) hrun with hr | hr
  · obtain ⟨id, hc, -⟩ := hr.only
    rw [hend] at hc
    cases hc
  · exact hr

/-! ## Refreshes -/

theorem token_of_refreshes {r : AuthResult} (h : r.refreshes a = true) : ∃ t, r.token = some (a, t) := by
  cases r with
  | refresh b accessToken t =>
    have hb : b = a := by simpa [AuthResult.refreshes] using h
    exact ⟨t, by rw [AuthResult.token, hb]⟩
  | _ => cases h

/-- A result without a token of the account is no refresh of it. -/
theorem refreshed_cons {r : AuthResult} {results : List AuthResult} (h : ∀ t, r.token ≠ some (a, t)) :
    (r :: results).filter (AuthResult.refreshes a) = results.filter (AuthResult.refreshes a) := by
  rw [List.filter_cons_of_neg]
  intro hr
  obtain ⟨t, ht⟩ := token_of_refreshes hr
  exact h t ht

/-- **Without a session no refresh succeeds**, also none in flight. -/
theorem AuthStep.refreshed (h : AuthStep env s e s') (hk : Known s) (hr : Revoked a s) :
    s'.refreshed a = s.refreshed a := by
  cases h with
  | answered he hr => exact refreshed_cons fun t ht => by cases hr.symm.trans ht
  | @stored i pick uuid c id b t r hc hs ht htok hx =>
    -- the session that is written is one of the account
    obtain ⟨x, hx, hid⟩ := hx
    have hb : x.accountId = b := hk.account (waits_of_get hc) hs hx hid
    refine refreshed_cons fun t' ht' => hr.gone x.key (List.mem_map_of_mem hx) ?_
    cases htok.symm.trans ht'
    exact hb
  | created | deleted | marked | lost => rfl
  | _ => rfl

/-- A run without logins of the account keeps it without sessions and without successful refreshes. -/
theorem refreshed_run {events : List AuthEvent} (hk : Known s) (hr : Revoked a s)
    (hfree : Machine.Along (authStep env) (fun _ e => ¬e.LogsIn env a) s events)
    (hrun : Machine.run (authStep env) s events = some s') : s'.refreshed a = s.refreshed a := by
  let I : AuthState → Prop := fun u => Known u ∧ Revoked a u ∧ u.refreshed a = s.refreshed a
  have hstep : ∀ u e u', I u → ¬e.LogsIn env a → authStep env u e = some u' → I u' := by
    rintro u e u' ⟨hk, hr, hres⟩ he hs
    have hstep := authStep_cases hs
    exact ⟨known_step env u e u' hk hs, revoked_step hr he hstep, (hstep.refreshed hk hr).trans hres⟩
  exact (Machine.run_inv hstep ⟨hk, hr, rfl⟩ hfree hrun).2.2

/-- **One session per account, and logout revokes, as long as no login creates a session beside another.** In a run each
state has at most one session for each account exactly when every login that creates a session still finds the account
without one. In such a run, a logout of an account with no login of it in flight leaves it without a session when the
call has ended, unless a login has begun; and until one does, no refresh of the account succeeds. -/
theorem one_session_and_logout_revokes (env : AuthEnv) (now : Nat) (events : List AuthEvent) (s : AuthState)
    (hrun : Machine.run (authStep env) (.init now) events = some s) :
    (Machine.Always (authStep env) OneSession (.init now) events ↔
      Machine.Along (authStep env) CreatesAlone (.init now) events) ∧
    (Machine.Along (authStep env) CreatesAlone (.init now) events →
      ∀ a pick later s₁, NoLogin a s →
        Machine.Along (authStep env) (fun _ e => ¬e.LogsIn env a) s (.logout a pick :: later) →
        Machine.run (authStep env) s (.logout a pick :: later) = some s₁ →
        s₁.calls[s.calls.length]? = some none →
        (∀ x ∈ s₁.sessions, x.accountId ≠ a) ∧
        ∀ further s₂, Machine.Along (authStep env) (fun _ e => ¬e.LogsIn env a) s₁ further →
          Machine.run (authStep env) s₁ further = some s₂ → s₂.refreshed a = s₁.refreshed a) := by
  have hinit : OneSession (.init now) := List.nodup_nil
  refine ⟨Machine.always_iff_along (fun s e s' => oneSession_step) hinit hrun, ?_⟩
  intro halone a pick later s₁ hno hfree hrun₁ hend
  have hone : OneSession s :=
    Machine.run_inv (fun s e s' h hc hs => (oneSession_step h hs).mpr hc) hinit halone hrun
  have hrev := revoked_of_ended hone hno hfree hrun₁ hend
  have hknown : Known s₁ := known_run (known_run (known_init now) hrun) hrun₁
  refine ⟨fun x hx => hrev.gone x.key (List.mem_map_of_mem hx), fun further s₂ hfree₂ hrun₂ => ?_⟩
  exact refreshed_run hknown hrev hfree₂ hrun₂

/-- alice logs in. -/
def aliceLogsIn : List AuthEvent := [sampleLogin "alice", .resume 0 0 "", .resume 0 0 "s"]

/-- alice logs in and out; what she does after that does not refresh her tokens. -/
theorem one_session_sample :
    ∃ s s₁, Machine.run (authStep sampleAuthEnv) (.init 0) aliceLogsIn = some s ∧
      Machine.run (authStep sampleAuthEnv) s [.logout "alice" 0, .resume 1 0 ""] = some s₁ ∧
      (∀ x ∈ s₁.sessions, x.accountId ≠ "alice") ∧
      ∀ further s₂, Machine.Along (authStep sampleAuthEnv) (fun _ e => ¬e.LogsIn sampleAuthEnv "alice") s₁ further →
        Machine.run (authStep sampleAuthEnv) s₁ further = some s₂ → s₂.refreshed "alice" = s₁.refreshed "alice" :=
  ⟨_, _, rfl, rfl,
    (one_session_and_logout_revokes sampleAuthEnv 0 aliceLogsIn _ rfl).2 (by decide) "alice" 0 [.resume 1 0 ""] _
      (by decide) (by decide) rfl rfl⟩

/-- Two logins of alice overlap and leave her with two sessions; she logs out, and her refresh token still works. -/
theorem one_session_overlap :
    ∃ s s₁, Machine.run (authStep sampleAuthEnv) (.init 0)
        [sampleLogin "alice", sampleLogin "alice", .resume 0 0 "", .resume 1 0 "", .resume 0 0 "s", .resume 1 0 "t"] =
          some s ∧
      ¬OneSession s ∧ NoLogin "alice" s ∧
      Machine.run (authStep sampleAuthEnv) s
        [.logout "alice" 0, .resume 2 0 "", .refresh ⟨refreshTokenAt sampleAuthEnv 0 "alice"⟩ "alice" 0,
          .resume 3 0 ""] = some s₁ ∧
      s₁.refreshed "alice" ≠ [] :=
  ⟨_, _, rfl, by decide, by decide, rfl, by decide⟩

end DiscordClone
