import DiscordClone.Api.Provenance

/-!
# How long authority lasts

Nothing but its expiry ends a token, and a refresh gives out new ones. So what an accepted token shows is a chain: the
account has given its password, and from there each pair of tokens has been given for the refresh token of the pair
before it, in time. `Given` is that chain, `Originates` says it for the tokens of every type, and the times are those of
the run: no step has to be later than the one before it.

- `step_originates`: what leaves the server in a step has an origin.
- `shown_in_time`: the theorem.
-/

namespace DiscordClone

open Machine

namespace Backend

/-- The registration of the account `a` commits at `iat`, and the mail with its token is handed to the mailer. -/
def MailedAt (env : BackendEnv) (a : String) (iat : Nat) : List (Moment × BackendEvent) → Prop :=
  Once (step env) start fun _ s l => l.1.seconds = iat ∧ ∃ email, MailsTo env a email s l

/-- The account `a` has been given a pair of tokens at `iat`: for its password, after it had been verified, or for the
refresh token of a pair that it had been given before. That is the token of its session and has not expired. -/
inductive Given (env : BackendEnv) (a : String) : Nat → List (Moment × BackendEvent) → Prop
  | login {before after : List (Moment × BackendEvent)} {l : Moment × BackendEvent} {s : Backend} {email : String}
    (hrun : run (step env) start before = some s) (hpassword : GivesPassword env a email s l)
    (hverified : Verified env a email before) : Given env a l.1.seconds (before ++ l :: after)
  | refresh {before after : List (Moment × BackendEvent)} {m : Moment} {ep : Endpoint} {request : Request}
    {data : RefreshDto} {s : Backend} {iat : Nat} (hrun : run (step env) start before = some s)
    (hcommand : Commands env m ep request (.refresh data a))
    (hsession : ∃ x ∈ s.server.db.sessions, x.accountId = a ∧ x.refreshToken = data.refreshToken)
    (htoken : data.refreshToken = Minted.token env.toTokenEnv ⟨iat, .REFRESH, a⟩) (hgiven : Given env a iat before)
    (halive : env.jwt.expired (env.config.expires .REFRESH) iat m.seconds = false) :
    Given env a m.seconds (before ++ (m, .request ep request) :: after)

/-- How a token has come into the world. -/
def Originates (env : BackendEnv) (events : List (Moment × BackendEvent)) (k : Minted) : Prop :=
  if k.type = .VERIFY then MailedAt env k.account k.iat events else Given env k.account k.iat events

/-- The event shows a token of this type for the account `a`, which the guard or the handshake accepts. -/
inductive Shows (env : BackendEnv) (type : EJwtType) (a : String) : Moment × BackendEvent → Prop
  | request {m : Moment} {ep : Endpoint} {request : Request} {c : Command} (hcommand : Commands env m ep request c)
    (huser : c.user = some a) (htype : c.strategy.type = type) : Shows env type a (m, .request ep request)
  | connects {m : Moment} {id : String} {handshake : Handshake}
    (htoken : SocketIOAdapter.createAuthMiddleware env.jwt env.config.get m.seconds handshake = .ok ⟨a, type⟩) :
    Shows env type a (m, .connects id handshake)

section Step

variable {env : BackendEnv} {events : List (Moment × BackendEvent)} {s s' : Backend} {l : Moment × BackendEvent}
  {a : String} {iat : Nat} {type : EJwtType} {k : Minted}

/-- What has been given has been given ever after. -/
theorem Given.snoc (h : Given env a iat events) : Given env a iat (events ++ [l]) := by
  cases h with
  | login hrun hpassword hverified =>
    rw [List.append_assoc]
    exact .login hrun hpassword hverified
  | refresh hrun hcommand hsession htoken hgiven halive =>
    rw [List.append_assoc]
    exact .refresh hrun hcommand hsession htoken hgiven halive

theorem Originates.snoc (h : Originates env events k) : Originates env (events ++ [l]) k := by
  unfold Originates at h ⊢
  split at h
  · rename_i htype
    rw [if_pos htype]
    exact h.append [l]
  · rename_i htype
    rw [if_neg htype]
    exact h.snoc

/-- Both tokens of a pair. -/
theorem originates_pair {now : Nat} (h : Given env a now events) : ∀ k ∈ pair now a, Originates env events k := by
  intro k hk
  simp only [pair, List.mem_cons, List.not_mem_nil, or_false] at hk
  rcases hk with rfl | rfl
  · exact h
  · exact h

/-- **A token that is shown has left the server, and has not expired.** -/
theorem Shows.minted (hunforged : s.Unforged env l) (h : Shows env type a l) : ∃ iat, ⟨iat, type, a⟩ ∈ s.minted ∧
    env.jwt.expired (env.config.expires type) iat l.1.seconds = false := by
  cases h with
  | request hcommand huser htype =>
    obtain ⟨iat, hk, hverifies, -⟩ := commands_minted hunforged hcommand huser
    subst htype
    exact ⟨iat, hk, hverifies.2⟩
  | connects htoken =>
    obtain ⟨iat, hk, hverifies, -⟩ := handshake_minted hunforged htoken
    exact ⟨iat, hk, hverifies.2⟩

/-- **What leaves the server in a step has an origin.** -/
theorem step_originates (hrun : run (step env) start events = some s) (hhistory : History env events s)
    (h : ∀ k ∈ s.minted, Originates env events k) (hunforged : s.Unforged env l) (hstep : s.step env l = some s') :
    ∀ k ∈ s'.minted, Originates env (events ++ [l]) k := by
  have hold : ∀ k ∈ s.minted, Originates env (events ++ [l]) k := fun k hk => (h k hk).snoc
  cases step_change hstep with
  | @registers m ep request data e db hcommand hcommits hid hadded =>
    refine List.forall_mem_append.mpr ⟨fun k hk => ?_, hold⟩
    unfold verifyToken at hk
    split at hk
    · rename_i hsigns
      rw [List.mem_singleton.mp hk]
      exact once_now hrun ⟨rfl, _, .register hcommand hcommits hid.symm hsigns rfl⟩
    · cases hk
  | logsIn hcommand haccepts hcall hresults =>
    obtain ⟨hpassword, hverified⟩ := hhistory.password hcommand haccepts
    exact List.forall_mem_append.mpr ⟨originates_pair (.login hrun hpassword hverified), hold⟩
  | refreshes hcommand hsession hcall hresults =>
    obtain ⟨iat, hk, hverifies, htoken⟩ := commands_minted hunforged hcommand rfl
    have hgiven : Given env _ iat events := h _ hk
    have htoken := (refreshToken_of_commands hcommand).symm.trans htoken
    injection htoken with htoken
    injection htoken with htoken
    exact List.forall_mem_append.mpr
      ⟨originates_pair (.refresh hrun hcommand hsession htoken hgiven hverifies.2), hold⟩
  | logsOut hcommand hcall => exact hold
  | _ => exact hold

theorem originates_run (hunforged : Along (step env) (Unforged env) start events)
    (hrun : run (step env) start events = some s) :
    ∀ k ∈ s.minted, Originates env events k := by
  have h : History env events s ∧ ∀ k ∈ s.minted, Originates env events k :=
    past_inv (I := fun events s => History env events s ∧ ∀ k ∈ s.minted, Originates env events k)
      ⟨history_start env, fun k hk => absurd hk List.not_mem_nil⟩
      (fun _ _ _ _ ht _ h hc hs => ⟨step_history ht h.1 hc hs, step_originates ht h.1 h.2 hc hs⟩) hunforged hrun
  exact h.2

end Step

/-- **Authority lasts as long as it is renewed.** In every run in which no token is forged: a token that a guard or the
handshake accepts was signed at a time from which it has not expired; a token of verification was handed to the mailer
then, and any other was given then, at the end of a chain of refreshes, each in time, from a login with the password. -/
theorem shown_in_time (env : BackendEnv) (events : List (Moment × BackendEvent)) (s : Backend)
    (hunforged : Along (step env) (Unforged env) start events) (hrun : run (step env) start events = some s)
    (l : Moment × BackendEvent) (hl : s.Unforged env l) (type : EJwtType) (a : String) (hshows : Shows env type a l) :
    ∃ iat, env.jwt.expired (env.config.expires type) iat l.1.seconds = false ∧
      Originates env events ⟨iat, type, a⟩ := by
  obtain ⟨iat, hk, halive⟩ := hshows.minted hl
  exact ⟨iat, halive, originates_run hunforged hrun _ hk⟩

/-- alice asks for her account, less than ten minutes after she has been given her access token. -/
theorem shown_in_time_sample : ∃ iat, decide (iat + 600 ≤ 0) = false ∧
    Originates sampleEnv aliceComes ⟨iat, .ACCESS, aliceId⟩ :=
  shown_in_time sampleEnv aliceComes withAlice aliceComes_unforged aliceComes_run (byAlice .getMe .null)
    (byAlice_unforged .getMe rfl rfl) .ACCESS aliceId (.request (c := .getMe aliceId) rfl rfl rfl)

end Backend

end DiscordClone
