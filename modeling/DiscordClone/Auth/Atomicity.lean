import DiscordClone.User.Actionable

/-!
# What a registration leaves behind

`register` adds the account in a transaction, and signs the token and sends the mail after the commit. A refusal of the
transaction leaves the database as it was. A signer or a mailer that throws leaves the account, which no operation
removes: the same registration is refused from then on.

- `all_or_nothing_iff`: a registration is all-or-nothing exactly when it is refused in its transaction or the mail goes
  out.
- `retry_refused`: once the transaction has committed, the same registration is refused in every state that follows.
-/

namespace DiscordClone

/-- The verification mail for the account with this id. -/
def verificationMail (env : RegisterEnv) (jwt : JwtService) (data : RegisterDto) (id : String) : Mail where
  recipient := data.email
  subject := "Verify Email Address for SChat"
  template := "verify"
  name := data.username
  verificationLink := env.config "WEBAPP_VERIFY_URL" ++ "?token=" ++ signToken jwt env.config env.seconds .VERIFY id

/-- The part of `register` that comes after the commit, for the account with this id. -/
def afterCommit (env : RegisterEnv) (data : RegisterDto) (id : String) : Except Exception Mail := do
  let jwt ← env.jwt
  env.sendMail (verificationMail env jwt data id)
  pure (verificationMail env jwt data id)

/-- The signer signs, and the mailer takes the mail. -/
def Delivered (env : RegisterEnv) (data : RegisterDto) : Prop :=
  ∃ jwt, env.jwt = .ok jwt ∧ env.sendMail (verificationMail env jwt data env.rt.uuid) = .ok ()

/-- A call that rejects leaves the database as it was, and one that resolves has added the account and handed its mail
to the mailer. -/
structure AllOrNothing (env : RegisterEnv) (db : Database) (data : RegisterDto) : Prop where
  rejected : ∀ x, (AuthService.register env db data).1 = .error x → (AuthService.register env db data).2 = db
  resolved : ∀ mail, (AuthService.register env db data).1 = .ok mail →
    ∃ e jwt, Added db (AuthService.register env db data).2 data e ∧ env.jwt = .ok jwt ∧
      mail = verificationMail env jwt data e.id ∧ env.sendMail mail = .ok ()

/-- The email and the username are those of one account. -/
def HasAccount (db : Database) (data : RegisterDto) : Prop :=
  ∃ e ∈ db.accounts.rows, e.email = data.email ∧ e.username = data.username

section Register

variable {env : RegisterEnv} {db db' : Database} {data : RegisterDto} {e : Account} {id : String} {mail : Mail}

/-- What is added is something. -/
theorem Added.ne (h : Added db db' data e) : db' ≠ db := by
  intro heq
  have hrows := h.rows
  rw [heq] at hrows
  exact List.cons_ne_nil e [] (List.self_eq_append_right.mp hrows)

theorem Added.hasAccount (h : Added db db' data e) : HasAccount db' data := by
  refine ⟨e, ?_, h.email, h.username⟩
  rw [h.rows]
  exact List.mem_append_right _ List.mem_cons_self

/-- The mail that is sent is the verification mail, and the mailer has taken it. -/
theorem afterCommit_ok : afterCommit env data id = .ok mail ↔
    ∃ jwt, env.jwt = .ok jwt ∧ mail = verificationMail env jwt data id ∧ env.sendMail mail = .ok () := by
  unfold afterCommit
  rw [bind_eq_ok]
  refine exists_congr fun jwt => and_congr_right fun _ => ?_
  rw [bind_eq_ok]
  constructor
  · rintro ⟨u, hsend, hmail⟩
    cases hmail
    exact ⟨rfl, hsend⟩
  · rintro ⟨rfl, hsend⟩
    exact ⟨(), hsend, rfl⟩

theorem delivered_iff : Delivered env data ↔ ∃ mail, afterCommit env data env.rt.uuid = .ok mail := by
  constructor
  · rintro ⟨jwt, hjwt, hsend⟩
    exact ⟨_, afterCommit_ok.mpr ⟨jwt, hjwt, rfl, hsend⟩⟩
  · rintro ⟨mail, h⟩
    obtain ⟨jwt, hjwt, rfl, hsend⟩ := afterCommit_ok.mp h
    exact ⟨jwt, hjwt, hsend⟩

/-- A registration that is refused leaves the database. -/
theorem register_refused (h : Refused env db data) : ∃ x, AuthService.register env db data = (.error x, db) := by
  rcases registerTx_cases env db data with ⟨-, x, hx⟩ | ⟨hno, -⟩
  · exact ⟨x, by rw [AuthService.register, hx]⟩
  · exact absurd h hno

/-- **After the commit** the account is there, whatever comes of the mail. -/
theorem register_committed (h : ¬Refused env db data) :
    ∃ e db', AuthService.register env db data = (afterCommit env data e.id, db') ∧ e.id = env.rt.uuid ∧
      Added db db' data e := by
  rcases registerTx_cases env db data with ⟨hr, -⟩ | ⟨-, e, db', htx, hid, -, hadded⟩
  · exact absurd hr h
  · refine ⟨e, db', ?_, hid, hadded⟩
    rw [AuthService.register, htx]
    simp only [hadded.email]
    rfl

end Register

/-- **A registration is all-or-nothing exactly when it is refused in its transaction or the mail goes out.** For every
database, every registration and every behaviour of the hash, of other registrations, of the signer and of the
mailer. -/
theorem all_or_nothing_iff (env : RegisterEnv) (db : Database) (data : RegisterDto) :
    AllOrNothing env db data ↔ Refused env db data ∨ Delivered env data := by
  by_cases hr : Refused env db data
  · obtain ⟨x, hx⟩ := register_refused hr
    refine iff_of_true ⟨fun _ _ => by rw [hx], fun mail hmail => ?_⟩ (Or.inl hr)
    rw [hx] at hmail
    cases hmail
  · obtain ⟨e, db', hreg, hid, hadded⟩ := register_committed hr
    rw [or_iff_right hr, delivered_iff, ← hid]
    constructor
    · intro h
      cases hafter : afterCommit env data e.id with
      | ok mail => exact ⟨mail, rfl⟩
      | error x =>
        -- the call rejects, and the account is there
        have hsame := h.rejected x (by rw [hreg, hafter])
        rw [hreg] at hsame
        exact absurd hsame hadded.ne
    · rintro ⟨mail, hafter⟩
      obtain ⟨jwt, hjwt, hmail, hsend⟩ := afterCommit_ok.mp hafter
      constructor
      case rejected =>
        intro x hx
        rw [hreg, hafter] at hx
        cases hx
      case resolved =>
        intro mail' hmail'
        rw [hreg, hafter] at hmail'
        cases hmail'
        rw [hreg]
        exact ⟨e, jwt, hadded, hjwt, hmail, hsend⟩

/-- dave registers, and the mailer throws. -/
def daveUnsent : RegisterEnv × RegisterDto :=
  ({ (sampleRegister "dave").1 with sendMail := fun _ => .error .typeError }, (sampleRegister "dave").2)

/-- The call rejects and the account is there; when the mailer works again, the same registration is refused. -/
theorem all_or_nothing_unsent :
    let after := AuthService.register daveUnsent.1 Database.empty daveUnsent.2
    after.1 = .error .typeError ∧ after.2.accounts.rows.map Account.email = ["dave@mail.test"] ∧
      ¬AllOrNothing daveUnsent.1 Database.empty daveUnsent.2 ∧
      (AuthService.register (sampleRegister "dave").1 after.2 daveUnsent.2).1 =
        .error (.mk CustomErrorMessage.REGISTER__EMAIL_EXISTS HttpStatus.CONFLICT
          CustomErrorCode.REGISTER__EMAIL_EXISTS) := by
  intro after
  refine ⟨rfl, rfl, fun h => ?_, rfl⟩
  have hsame : after.2 = Database.empty := h.rejected .typeError rfl
  have hrows : after.2.accounts.rows.length = 0 := by rw [hsame]; rfl
  cases hrows

/-! ## The same registration again -/

section Again

variable {db db' : Database} {data : RegisterDto}

/-- **No operation removes an account.** -/
theorem hasAccount_perform (h : HasAccount db data) (o : Operation) : HasAccount (db.perform o) data := by
  rcases perform_cases db o with ⟨c, rfl⟩ | ⟨accounts, settings, hkeeps, hdb⟩
  · exact h
  · obtain ⟨e, he, hemail, husername⟩ := h
    obtain ⟨e', he', -, hemail', husername', -⟩ := hkeeps e he
    rw [hdb]
    exact ⟨e', he', hemail'.trans hemail, husername'.trans husername⟩

/-- A registration with the email and the username of an account. -/
theorem register_again (h : HasAccount db data) (hsearch : data.Searchable) (env : RegisterEnv) :
    AuthService.register env db data =
    (.error (.mk CustomErrorMessage.REGISTER__EMAIL_EXISTS HttpStatus.CONFLICT CustomErrorCode.REGISTER__EMAIL_EXISTS),
      db) := by
  obtain ⟨e, he, hemail, husername⟩ := h
  unfold AuthService.register AuthService.registerTx
  rw [if_neg (not_not.mpr hsearch)]
  cases hf : db.accounts.findFirst fun e => e.email = data.email || e.username = data.username with
  | none => exact absurd (Or.inl hemail) (findFirst_taken.mp hf e he)
  | some e' =>
    have hmem : e' ∈ db.accounts.rows := List.mem_of_find?_eq_some hf
    have hkey : e'.email = data.email ∨ e'.username = data.username := by simpa using List.find?_some hf
    -- the email and the username belong to one account
    have hsame : e' = e := by
      rcases hkey with hkey | hkey
      · exact List.inj_on_of_nodup_map db.accounts.email_nodup hmem he (hkey.trans hemail.symm)
      · exact List.inj_on_of_nodup_map db.accounts.username_nodup hmem he (hkey.trans husername.symm)
    subst hsame
    simp only [hemail, if_true]

/-- **A registration that has committed cannot be made again**: whatever operations follow, and whatever became of the
mail, the same registration is refused. -/
theorem retry_refused {env : RegisterEnv} (h : ¬Refused env db data) {operations : List Operation}
    (hrun : Machine.run Database.operate (AuthService.register env db data).2 operations = some db')
    (env' : RegisterEnv) : AuthService.register env' db' data =
      (.error (.mk CustomErrorMessage.REGISTER__EMAIL_EXISTS HttpStatus.CONFLICT
        CustomErrorCode.REGISTER__EMAIL_EXISTS), db') := by
  obtain ⟨e, db₁, hreg, -, hadded⟩ := register_committed h
  have hstart : HasAccount (AuthService.register env db data).2 data := by
    rw [hreg]
    exact hadded.hasAccount
  have hstep : ∀ (db : Database) (o : Operation) (db₂ : Database), HasAccount db data → db.operate o = some db₂ →
      HasAccount db₂ data := by
    intro db o db₂ hdb hs
    cases hs
    exact hasAccount_perform hdb o
  have hsearch : data.Searchable := not_not.mp fun hno => h (.lookup hno)
  exact register_again (Machine.run_inv' hstep hstart hrun) hsearch env'

end Again

end DiscordClone
