import DiscordClone.Auth.Sessions

/-!
# Refresh tokens are rotated

A token is signed in whole seconds and carries nothing else that is new, so two tokens of an account that are signed in
one second are one string. `Rotates` says when a refresh is safe from that and from the calls that overlap it.

- `Rotated` is the invariant: what has been accepted was signed before this second, is stored nowhere but in the session
  that a refresh in flight is about to rewrite, and no call in flight is going to store it again; the token of a session
  is the last one that its account has been given.
- `rotated_step`: every step keeps it whose refreshes are safe and whose logins create no second session.
-/

namespace DiscordClone

namespace Session

/-- The account with its refresh token. -/
def grant (x : Session) : String × String := (x.accountId, x.refreshToken)

@[simp] theorem grant_mark (id : String) (status : ConnectionStatus) (x : Session) :
    (x.mark id status).grant = x.grant := by simp [grant]

end Session

/-- The last refresh token that a login or a refresh of the account has answered with. -/
def AuthState.lastReturned (s : AuthState) (a : String) : Option String :=
  ((s.results.filterMap AuthResult.token).find? fun k => k.1 = a).map Prod.snd

/-- `refresh` accepts the token for the account. -/
def Accepts (env : AuthEnv) (s : AuthState) (a t : String) : Prop :=
  ∃ pick, (AuthService.refresh env s ⟨t⟩ a pick).accepted = (a, t) :: s.accepted

/-- The token of the account was signed before the time `now`. -/
def SignedBefore (env : AuthEnv) (now : Nat) (k : String × String) : Prop := ∃ t < now, k.2 = refreshTokenAt env t k.1

/-- A refresh that finds a session presents a token of an earlier second, and no other call in flight presents this
token or is going to store it. -/
def Rotates (env : AuthEnv) (s : AuthState) : AuthEvent → Prop
  | .refresh data a _ =>
    (∃ x ∈ s.sessions, x.grant = (a, data.refreshToken)) →
      SignedBefore env s.now (a, data.refreshToken) ∧
      ∀ c, s.Waits c → c.presents ≠ some data.refreshToken ∧ c.stores ≠ some (a, data.refreshToken)
  | _ => True

instance (env : AuthEnv) (now : Nat) (k : String × String) : Decidable (SignedBefore env now k) :=
  inferInstanceAs (Decidable (∃ t < now, _))

instance (env : AuthEnv) (s : AuthState) (e : AuthEvent) : Decidable (Rotates env s e) := by
  unfold Rotates
  split <;> infer_instance

/-- The invariant of a run whose refreshes rotate. -/
structure Rotated (env : AuthEnv) (s : AuthState) : Prop where
  known : Known s
  one : OneSession s
  accepted : ∀ k ∈ s.accepted, SignedBefore env s.now k
  nodup : s.accepted.Nodup
  fresh : ∀ c, s.Waits c → ∀ k, c.stores = some k → k ∉ s.accepted
  rotating : ∀ x ∈ s.sessions, x.grant ∈ s.accepted →
    ∃ c, s.Waits c ∧ c.session = some x.key ∧ c.presents = some x.refreshToken
  last : ∀ x ∈ s.sessions, s.lastReturned x.accountId = some x.refreshToken

variable {env : AuthEnv} {s s' : AuthState} {e : AuthEvent} {a t : String}

/-! ## What is accepted -/

theorem accepts_iff : Accepts env s a t ↔ ∃ x ∈ s.sessions, x.grant = (a, t) := by
  constructor
  · rintro ⟨pick, h⟩
    unfold AuthService.refresh at h
    split at h
    · exact absurd h.symm (List.cons_ne_self _ _)
    · rename_i x hf
      obtain ⟨hx, ha, ht⟩ := findFirst_token hf
      exact ⟨x, hx, Prod.ext ha ht⟩
  · rintro ⟨x, hx, hg⟩
    refine ⟨0, ?_⟩
    unfold AuthService.refresh
    split
    · rename_i hf
      have := findFirst_none hf x hx
      cases hg
      simp at this
    · rename_i y hf
      obtain ⟨-, ha, -⟩ := findFirst_token hf
      rw [← ha]
      rfl

/-- A step accepts a token of a session, or none. -/
theorem AuthStep.accepted_cases (h : AuthStep env s e s') :
    s'.accepted = s.accepted ∨
      ∃ data pick x, e = .refresh data x.accountId pick ∧ x ∈ s.sessions ∧ x.refreshToken = data.refreshToken ∧
        s'.accepted = x.grant :: s.accepted := by
  cases h with
  | refresh hx ht => exact Or.inr ⟨_, _, _, rfl, hx, ht, by rw [Session.grant, ht]; rfl⟩
  | _ => exact Or.inl rfl

/-- Tokens that were signed in different seconds differ. -/
theorem SignedBefore.ne {now : Nat} {k : String × String} (h : SignedBefore env now k) :
    k.2 ≠ refreshTokenAt env now k.1 := by
  obtain ⟨t, ht, hk⟩ := h
  intro he
  obtain ⟨-, -, rfl⟩ := signToken_inj (hk.symm.trans he)
  omega

theorem SignedBefore.mono {now now' : Nat} {k : String × String} (h : SignedBefore env now k) (hle : now ≤ now') :
    SignedBefore env now' k := by
  obtain ⟨t, ht, hk⟩ := h
  exact ⟨t, by omega, hk⟩

theorem AuthStep.now_le (h : AuthStep env s e s') : s.now ≤ s'.now := by
  cases h with
  | tick => exact Nat.le_succ _
  | _ => exact Nat.le_refl _

/-- A token that is going to be stored was so before, or has just been signed. -/
theorem AuthStep.stores_seen (h : AuthStep env s e s') {d : AuthCall} {k : String × String} (hd : s'.Waits d)
    (hk : d.stores = some k) : (∃ c, s.Waits c ∧ c.stores = some k) ∨ k.2 = refreshTokenAt env s.now k.1 := by
  cases h with
  | tick => exact Or.inl ⟨d, hd, hk⟩
  | answered => exact Or.inl ⟨d, waits_answer.mp hd, hk⟩
  | login | refresh =>
    rcases waits_wait.mp hd with hd | rfl
    · exact Or.inl ⟨d, hd, hk⟩
    · cases hk
      exact Or.inr rfl
  | logout | status =>
    rcases waits_wait.mp hd with hd | rfl
    · exact Or.inl ⟨d, hd, hk⟩
    · cases hk
  | found hc | notFound hc =>
    rcases waits_goOn hd with hd | rfl
    · exact Or.inl ⟨d, hd, hk⟩
    · exact Or.inl ⟨_, waits_of_get hc, hk⟩
  | _ => exact Or.inl ⟨d, waits_of_set_none hd, hk⟩

/-! ## Tokens that have been accepted -/

/-- A step that is safe accepts a token that was signed before this second. -/
theorem Rotated.accepted_signed (h : Rotated env s) (hs : AuthStep env s e s') (hr : Rotates env s e) :
    ∀ k ∈ s'.accepted, SignedBefore env s.now k := by
  intro k hk
  rcases hs.accepted_cases with he | ⟨data, pick, x, rfl, hx, ht, he⟩
  · exact h.accepted k (he ▸ hk)
  · rw [he] at hk
    rcases List.mem_cons.mp hk with rfl | hk
    · rw [Session.grant, ht]
      exact (hr ⟨x, hx, by rw [Session.grant, ht]⟩).1
    · exact h.accepted k hk

/-- A step that is safe accepts a token that has not been accepted. -/
theorem Rotated.accepted_nodup (h : Rotated env s) (hs : AuthStep env s e s') (hr : Rotates env s e) :
    s'.accepted.Nodup := by
  rcases hs.accepted_cases with he | ⟨data, pick, x, rfl, hx, ht, he⟩
  · rw [he]
    exact h.nodup
  · rw [he]
    refine List.nodup_cons.mpr ⟨fun hacc => ?_, h.nodup⟩
    -- the refresh that has accepted it before would be in flight
    obtain ⟨c, hc, -, hp⟩ := h.rotating x hx hacc
    rw [ht] at hp
    exact ((hr ⟨x, hx, by rw [Session.grant, ht]⟩).2 c hc).1 hp

/-- No call in flight is going to store a token that has been accepted. -/
theorem Rotated.waiting_fresh (h : Rotated env s) (hs : AuthStep env s e s') (hr : Rotates env s e) {d : AuthCall}
    (hd : s'.Waits d) {k : String × String} (hk : d.stores = some k) : k ∉ s'.accepted := by
  intro hacc
  rcases hs.stores_seen hd hk with ⟨c, hc, hk⟩ | hnew
  · have hold := h.fresh c hc k hk
    rcases hs.accepted_cases with he | ⟨data, pick, x, rfl, hx, ht, he⟩
    · exact hold (he ▸ hacc)
    · rw [he] at hacc
      rcases List.mem_cons.mp hacc with rfl | hacc
      · rw [Session.grant, ht] at hk
        exact ((hr ⟨x, hx, by rw [Session.grant, ht]⟩).2 c hc).2 hk
      · exact hold hacc
  · exact (h.accepted_signed hs hr k hacc).ne hnew

/-- The refresh that is about to rewrite a session stays in flight when another call moves. -/
theorem Rotated.rotating_set (h : Rotated env s) {c : AuthCall} {i : Nat} {o : Option AuthCall} {x : Session}
    (hc : s.calls[i]? = some (some c)) (hne : c.presents = none ∨ c.session ≠ some x.key) (hx : x ∈ s.sessions)
    (hacc : x.grant ∈ s.accepted) :
    ∃ d, some d ∈ s.calls.set i o ∧ d.session = some x.key ∧ d.presents = some x.refreshToken := by
  obtain ⟨d, hd, hk, hp⟩ := h.rotating x hx hacc
  refine ⟨d, mem_set_ne hc hd ?_, hk, hp⟩
  rintro rfl
  rcases hne with hne | hne
  · rw [hne] at hp
    cases hp
  · exact hne hk

/-- A session whose token has been accepted is about to be rewritten. -/
theorem Rotated.rotating_step (h : Rotated env s) (hs : AuthStep env s e s') {x : Session} (hx : x ∈ s'.sessions)
    (hacc : x.grant ∈ s'.accepted) :
    ∃ c, s'.Waits c ∧ c.session = some x.key ∧ c.presents = some x.refreshToken := by
  cases hs with
  | tick => exact h.rotating x hx hacc
  | answered =>
    obtain ⟨d, hd, hk, hp⟩ := h.rotating x hx hacc
    exact ⟨d, waits_answer.mpr hd, hk, hp⟩
  | login | logout | status =>
    obtain ⟨d, hd, hk, hp⟩ := h.rotating x hx hacc
    exact ⟨d, waits_wait.mpr (Or.inl hd), hk, hp⟩
  | @refresh data pick y accessToken hy ht =>
    rcases List.mem_cons.mp hacc with heq | hacc
    · -- the session that this refresh has found, which is the only one of its account
      have hxy : x = y := h.one.eq hx hy (Prod.mk.inj heq).1
      subst hxy
      exact ⟨_, waits_wait.mpr (Or.inr rfl), rfl, by rw [ht]; rfl⟩
    · obtain ⟨d, hd, hk, hp⟩ := h.rotating x hx hacc
      exact ⟨d, waits_wait.mpr (Or.inl hd), hk, hp⟩
  | found hc | notFound hc => exact h.rotating_set hc (Or.inl rfl) hx hacc
  | created hc hu =>
    rcases List.mem_append.mp hx with hx | hx
    · exact h.rotating_set hc (Or.inl rfl) hx hacc
    · rw [List.mem_singleton.mp hx] at hacc
      exact absurd hacc (h.fresh _ (waits_of_get hc) _ rfl)
  | @stored i pick uuid c id a t r hc hs ht hr hex =>
    obtain ⟨y, hy, rfl⟩ := List.mem_map.mp hx
    by_cases hid : y.id = id
    · -- what is stored has not been accepted
      have ha : y.accountId = a := h.known.account (waits_of_get hc) hs hy hid
      rw [Session.store_self t hid, Session.grant, ha] at hacc
      exact absurd hacc (h.fresh c (waits_of_get hc) _ ht)
    · rw [Session.store_ne t hid] at hacc ⊢
      refine h.rotating_set hc (Or.inr fun hk => ?_) hy hacc
      cases hs.symm.trans hk
      exact hid rfl
  | deleted hc => exact h.rotating_set hc (Or.inl rfl) (List.mem_filter.mp hx).1 hacc
  | marked hc =>
    obtain ⟨y, hy, rfl⟩ := List.mem_map.mp hx
    rw [Session.grant_mark] at hacc
    rw [Session.key_mark, Session.refreshToken_mark]
    exact h.rotating_set hc (Or.inl rfl) hy hacc
  | lost hc hs hn =>
    refine h.rotating_set hc (Or.inr fun hk => ?_) hx hacc
    cases hs.symm.trans hk
    exact hn x hx rfl

/-! ## Tokens that have been returned -/

theorem lastReturned_none {r : AuthResult} (hr : r.token = none) (hres : s'.results = r :: s.results) :
    s'.lastReturned a = s.lastReturned a := by
  rw [AuthState.lastReturned, hres, List.filterMap_cons_none hr]
  rfl

theorem lastReturned_self {r : AuthResult} (hr : r.token = some (a, t)) (hres : s'.results = r :: s.results) :
    s'.lastReturned a = some t := by
  rw [AuthState.lastReturned, hres, List.filterMap_cons_some hr, List.find?_cons_of_pos (by simp)]
  rfl

theorem lastReturned_ne {r : AuthResult} {b : String} (hr : r.token = some (a, t)) (hb : a ≠ b)
    (hres : s'.results = r :: s.results) : s'.lastReturned b = s.lastReturned b := by
  rw [AuthState.lastReturned, hres, List.filterMap_cons_some hr, List.find?_cons_of_neg (by simpa using hb)]
  rfl

/-- The token of a session is the last one that its account has been given. -/
theorem Rotated.last_step (h : Rotated env s) (hs : AuthStep env s e s') (hc : CreatesAlone s e) {x : Session}
    (hx : x ∈ s'.sessions) : s'.lastReturned x.accountId = some x.refreshToken := by
  cases hs with
  | answered he hr => exact (lastReturned_none hr rfl).trans (h.last x hx)
  | @created i pick uuid a accessToken t hcall hu =>
    rcases List.mem_append.mp hx with hx | hx
    · have hne : a ≠ x.accountId := (hc a (by simp [AuthState.creates, hcall]) x hx).symm
      exact (lastReturned_ne rfl hne rfl).trans (h.last x hx)
    · rw [List.mem_singleton.mp hx]
      exact lastReturned_self rfl rfl
  | @stored i pick uuid c id a t r hcall hs ht hr hex =>
    obtain ⟨z, hz, hzid⟩ := hex
    have hza : z.accountId = a := h.known.account (waits_of_get hcall) hs hz hzid
    obtain ⟨y, hy, rfl⟩ := List.mem_map.mp hx
    by_cases hid : y.id = id
    · have ha : y.accountId = a := h.known.account (waits_of_get hcall) hs hy hid
      rw [Session.store_self t hid]
      exact lastReturned_self (ha ▸ hr) rfl
    · -- the session that is written is the only one of its account
      have hne : a ≠ y.accountId := fun ha => hid (h.one.eq hy hz (ha.symm.trans hza.symm) ▸ hzid)
      rw [Session.store_ne t hid]
      exact (lastReturned_ne hr hne rfl).trans (h.last y hy)
  | deleted => exact (lastReturned_none rfl rfl).trans (h.last x (List.mem_filter.mp hx).1)
  | marked =>
    obtain ⟨y, hy, rfl⟩ := List.mem_map.mp hx
    rw [Session.accountId_mark, Session.refreshToken_mark]
    exact (lastReturned_none rfl rfl).trans (h.last y hy)
  | lost => exact (lastReturned_none rfl rfl).trans (h.last x hx)
  | _ => exact h.last x hx

/-! ## Runs -/

theorem rotated_init (env : AuthEnv) (now : Nat) : Rotated env (.init now) where
  known := known_init now
  one := List.nodup_nil
  accepted _ h := by cases h
  nodup := List.nodup_nil
  fresh _ h := by cases h
  rotating _ h := by cases h
  last _ h := by cases h

/-- **A step keeps the rotation** when its refresh is safe and its login creates no second session. -/
theorem rotated_step (s : AuthState) (e : AuthEvent) (s' : AuthState) (h : Rotated env s)
    (hc : Rotates env s e ∧ CreatesAlone s e) (hs : authStep env s e = some s') : Rotated env s' := by
  obtain ⟨hr, hc⟩ := hc
  have hstep := authStep_cases hs
  exact
    { known := known_step env s e s' h.known hs
      one := (oneSession_step h.one hs).mpr hc
      accepted := fun k hk => (h.accepted_signed hstep hr k hk).mono hstep.now_le
      nodup := h.accepted_nodup hstep hr
      fresh := fun c hd k hk => h.waiting_fresh hstep hr hd hk
      rotating := fun x hx hacc => h.rotating_step hstep hx hacc
      last := fun x hx => h.last_step hstep hc hx }

/-- Two accepted tokens that are the same string are one acceptance. -/
theorem Rotated.tokens_nodup (h : Rotated env s) : (s.accepted.map Prod.snd).Nodup := by
  refine h.nodup.map_on fun k hk k' hk' he => ?_
  obtain ⟨t, -, ht⟩ := h.accepted k hk
  obtain ⟨t', -, ht'⟩ := h.accepted k' hk'
  obtain ⟨ha, -⟩ := signToken_inj (ht.symm.trans (he.trans ht'))
  exact Prod.ext ha he

/-- **Refresh tokens are rotated and single use, as long as refreshes are safe and sessions single.** In a run whose
refreshes each present a token of an earlier second that no other call in flight presents or is going to store, and
whose logins create no second session of an account, no token is accepted twice, and the only token that is accepted for
an account is the one that the last login or refresh of the account has returned. -/
theorem refresh_tokens_rotate (env : AuthEnv) (now : Nat) (events : List AuthEvent) (s : AuthState)
    (hsafe : Machine.Along (authStep env) (fun s e => Rotates env s e ∧ CreatesAlone s e) (.init now) events)
    (hrun : Machine.run (authStep env) (.init now) events = some s) :
    (s.accepted.map Prod.snd).Nodup ∧ ∀ a t, Accepts env s a t → s.lastReturned a = some t := by
  have h : Rotated env s := Machine.run_inv rotated_step (rotated_init env now) hsafe hrun
  refine ⟨h.tokens_nodup, fun a t ha => ?_⟩
  obtain ⟨x, hx, hg⟩ := accepts_iff.mp ha
  cases hg
  exact h.last x hx

/-- alice logs in and refreshes her tokens twice, a second later each time. -/
def aliceRefreshes : List AuthEvent :=
  aliceLogsIn ++
    [.tick, .refresh ⟨refreshTokenAt sampleAuthEnv 0 "alice"⟩ "alice" 0, .resume 1 0 "",
      .tick, .refresh ⟨refreshTokenAt sampleAuthEnv 1 "alice"⟩ "alice" 0, .resume 2 0 ""]

theorem refresh_tokens_rotate_sample :
    ∃ s, Machine.run (authStep sampleAuthEnv) (.init 0) aliceRefreshes = some s ∧ s.accepted.length = 2 ∧
      (s.accepted.map Prod.snd).Nodup ∧ ∀ a t, Accepts sampleAuthEnv s a t → s.lastReturned a = some t :=
  ⟨_, rfl, by decide, refresh_tokens_rotate sampleAuthEnv 0 aliceRefreshes _ (by decide) rfl⟩

/-- alice logs in and refreshes her tokens in the same second, and the token that she has presented works again. -/
theorem refresh_token_again :
    ∃ s, Machine.run (authStep sampleAuthEnv) (.init 0)
        (aliceLogsIn ++
          [.refresh ⟨refreshTokenAt sampleAuthEnv 0 "alice"⟩ "alice" 0, .resume 1 0 "",
            .refresh ⟨refreshTokenAt sampleAuthEnv 0 "alice"⟩ "alice" 0]) = some s ∧
      ¬(s.accepted.map Prod.snd).Nodup :=
  ⟨_, rfl, by decide⟩

end DiscordClone
