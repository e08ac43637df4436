import DiscordClone.Api.Integrity

/-!
# Whose data a step changes

In every reachable state, what a step changes is the data of those for whom it is carried out (`own_data_only`): a row
of a pair by an operation of one of the two, the settings and the sessions of an account by a request or a socket of
that account, its row in the accounts table by its token of verification; a registration and a login touch one account
each. Messages are only added, and only at the request of a connected socket.
-/

namespace DiscordClone

open Machine

namespace Backend

/-- A registration of this account commits. -/
inductive Registers (env : BackendEnv) (a : String) (s : Backend) : Moment × BackendEvent → Prop
  | register {m : Moment} {ep : Endpoint} {request : Request} {data : RegisterDto}
    (hcommand : Commands env m ep request (.register data))
    (hcommits : ¬Refused (m.registration env) s.server.db data) (hid : m.rt.uuid = a) :
    Registers env a s (m, .request ep request)

/-- An operation of this account on its relationships. -/
inductive Relates (env : BackendEnv) (a : String) : Moment × BackendEvent → Prop
  | request {m : Moment} {ep : Endpoint} {request : Request} {c : Call}
    (hcommand : Commands env m ep request (.relationship c)) (haccount : c.account = a) :
    Relates env a (m, .request ep request)

/-- A connected socket sends a message. -/
inductive Sends (s : Backend) : Moment × BackendEvent → Prop
  | send {m : Moment} {client : SocketWithAuth} {data : List (String × Json)} (hclient : client ∈ s.server.sockets) :
    Sends s (m, .socket client (.send data))

/-- The sessions of an account. -/
def sessionsOf (s : Backend) (a : String) : List Session := s.server.db.sessions.filter fun x => x.accountId = a

/-- The row of an account. -/
def rowOf (s : Backend) (a : String) : Option Account := s.server.db.accounts.findFirst fun e => e.id = a

/-- What a step changes is the data of those for whom it is carried out. -/
structure Confined (env : BackendEnv) (s : Backend) (l : Moment × BackendEvent) (s' : Backend) : Prop where
  relationships : ∀ x y, s'.server.db.relationships (x, y) ≠ s.server.db.relationships (x, y) →
    Relates env x l ∨ Relates env y l
  settings : ∀ a, s'.server.db.settings a ≠ s.server.db.settings a → s.ActsFor env a l ∨ s.Registers env a l
  sessions : ∀ a, s'.sessionsOf a ≠ s.sessionsOf a → s.ActsFor env a l ∨ ∃ email, s.GivesPassword env a email l
  accounts : ∀ a, s'.rowOf a ≠ s.rowOf a → PresentsToken env a l ∨ s.Registers env a l
  messages : ∃ new, s'.server.db.directMessages = s.server.db.directMessages ++ new ∧ (new ≠ [] → s.Sends l)

section Step

variable {env : BackendEnv} {s s' : Backend} {l : Moment × BackendEvent}

/-! ## Sessions -/

section Sessions

variable {sessions : List Session} {ids : List String} {x : Session} {b : String}

/-- A write of the session of another account. -/
theorem filter_map_other (ho : OnePerAccount sessions ids) (hx : x ∈ sessions) (hb : x.accountId ≠ b)
    {f : Session → Session} (hkey : ∀ y, (f y).key = y.key) (hf : ∀ y, y.id ≠ x.id → f y = y) :
    (sessions.map f).filter (fun y => y.accountId = b) = sessions.filter fun y => y.accountId = b := by
  have haccount : ∀ y, (f y).accountId = y.accountId := fun y => (Prod.mk.inj (hkey y)).2
  have hpred : ((fun y : Session => decide (y.accountId = b)) ∘ f) = fun y => decide (y.accountId = b) :=
    funext fun y => by simp [haccount y]
  rw [List.filter_map, hpred]
  refine (List.map_congr_left fun y hy => ?_).trans (List.map_id _)
  obtain ⟨hy, hyb⟩ := List.mem_filter.mp hy
  refine hf y fun hid => hb ?_
  rw [← of_decide_eq_true hyb]
  exact (ho.account_inj hx hy).mp hid.symm

/-- A delete of the session of another account. -/
theorem filter_filter_other (ho : OnePerAccount sessions ids) (hx : x ∈ sessions) (hb : x.accountId ≠ b) :
    (sessions.filter fun y => y.id ≠ x.id).filter (fun y => y.accountId = b) =
      sessions.filter fun y => y.accountId = b := by
  rw [List.filter_filter]
  refine List.filter_congr fun y hy => ?_
  by_cases hyb : y.accountId = b
  · have hid : y.id ≠ x.id := fun hid => hb (((ho.account_inj hy hx).mp hid).symm.trans hyb)
    simp [hyb, hid]
  · simp [hyb]

end Sessions

/-- The account of a call. -/
def callee (accounts : Accounts) (env : BackendEnv) (a : String) : AuthEvent → Prop
  | .login data => ∃ e, (env.server.auth accounts).Accepts data e ∧ e.id = a
  | .refresh _ b _ | .logout b _ | .updateConnectionStatus b _ _ => b = a
  | .tick | .resume .. => False

/-- **A call of the auth service touches the sessions of its account only.** -/
theorem calls_sessionsOf (ho : OnePerAccount s.server.db.sessions s.server.ids) {now pick : Nat} {event : AuthEvent}
    {uuid : String} {t : AuthState} (h : s.Calls env now event pick uuid t) {b : String}
    (hb : ¬callee s.server.db.accounts env b event) :
    t.sessions.filter (fun y => y.accountId = b) = s.sessionsOf b := by
  unfold sessionsOf
  cases event with
  | tick =>
    cases h
    rfl
  | resume i pick' uuid' => cases h
  | login data =>
    obtain ⟨-, ⟨-, -, -, hsessions⟩ | ⟨e, hacc, -, ⟨y, hy, hye, -, hsessions⟩ | ⟨-, -, -, hsessions⟩⟩⟩ := login_alone h
    · rw [hsessions]
    · rw [hsessions]
      refine filter_map_other ho hy (fun hyb => hb ⟨e, hacc, hye.symm.trans hyb⟩) (Session.key_store _ _) fun z hz => ?_
      exact if_neg hz
    · rw [hsessions, List.filter_append]
      have hne : e.id ≠ b := fun heb => hb ⟨e, hacc, heb⟩
      simp [hne]
  | refresh data a pick' =>
    obtain ⟨-, -, ⟨-, hsessions⟩ | ⟨y, hy, hya, -, hsessions, -⟩⟩ := refresh_alone h
    · rw [hsessions]
    · rw [hsessions]
      refine filter_map_other ho hy (fun hyb => hb (hya.symm.trans hyb)) (Session.key_store _ _) fun z hz => ?_
      exact if_neg hz
  | logout a pick' =>
    obtain ⟨-, -, -, ⟨-, hsessions⟩ | ⟨y, hy, hya, hsessions⟩⟩ := logout_alone h
    · rw [hsessions]
    · rw [hsessions]
      exact filter_filter_other ho hy fun hyb => hb (hya.symm.trans hyb)
  | updateConnectionStatus a status pick' =>
    obtain ⟨-, -, -, ⟨-, hsessions⟩ | ⟨y, hy, hya, hsessions⟩⟩ := status_alone h
    · rw [hsessions]
    · rw [hsessions]
      refine filter_map_other ho hy (fun hyb => hb (hya.symm.trans hyb)) (Session.key_mark _ _) fun z hz => ?_
      exact if_neg hz

/-- Calls of one account. -/
theorem calls_actsFor (h : Intact env s) {now pick : Nat} {event : AuthEvent} {uuid : String} {t : AuthState}
    (hcall : s.Calls env now event pick uuid t) {a b : String}
    (ha : ∀ b, callee s.server.db.accounts env b event → a = b)
    (hacts : s.ActsFor env a l) (hne : t.sessions.filter (fun y => y.accountId = b) ≠ s.sessionsOf b) :
    s.ActsFor env b l := by
  by_contra hno
  refine hne (calls_sessionsOf h.parties.sound.onePerAccount hcall fun hb => hno ?_)
  exact ha b hb ▸ hacts

theorem step_sessionsOf (h : Intact env s) (hc : s.Change env l s') {a : String}
    (hne : s'.sessionsOf a ≠ s.sessionsOf a) : s.ActsFor env a l ∨ ∃ email, s.GivesPassword env a email l := by
  cases hc with
  | registers hcommand hcommits hid hadded =>
    refine absurd ?_ hne
    show List.filter _ (withDb _ _).server.db.sessions = _
    rw [withDb, hadded.rest]
    rfl
  | logsIn hcommand haccepts hcall hresults =>
    refine Or.inr ?_
    by_contra hno
    refine hne (calls_sessionsOf h.parties.sound.onePerAccount hcall ?_)
    rintro ⟨e, hacc, hid⟩
    exact hno ⟨_, .login hcommand hacc hid rfl⟩
  | refreshes hcommand hsession hcall hresults =>
    exact Or.inl (calls_actsFor h hcall (fun b hb => hb)
      (.request hcommand rfl (by simp [Command.strategy, JwtRtStrategy]))
      hne)
  | logsOut hcommand hcall =>
    exact Or.inl (calls_actsFor h hcall (fun b hb => hb)
      (.request hcommand rfl (by simp [Command.strategy, JwtAtStrategy]))
      hne)
  | connects hid htoken hserver =>
    obtain ⟨t, hcall, rfl⟩ := handleConnection_some hserver
    exact Or.inl (calls_actsFor h hcall (fun b hb => hb) (.connects htoken rfl) hne)
  | disconnects hclient hserver =>
    obtain ⟨t, hcall, rfl⟩ := handleDisconnect_some hserver
    exact Or.inl (calls_actsFor h hcall (fun b hb => hb) (.disconnects hclient rfl) hne)
  | @serves m client r hclient =>
    obtain ⟨-, hsessions, -⟩ := serve_frame env.platform m.rt s.chat client r
    refine absurd ?_ hne
    show List.filter _ (Chat.serve _ _ _ _ _).db.sessions = _
    rw [hsessions]
    rfl
  | _ => exact absurd rfl hne

/-! ## The other tables -/

theorem step_relationships (hc : s.Change env l s') {x y : String}
    (hne : s'.server.db.relationships (x, y) ≠ s.server.db.relationships (x, y)) :
    Relates env x l ∨ Relates env y l := by
  cases hc with
  | @relates m ep request c rel hcommand hexec =>
    have hcommits : c.commits s.server.db.accounts s.server.db.relationships = some rel := by
      rw [Call.commits, hexec]
      rfl
    obtain ⟨z, r, -, -, -, rfl⟩ := commits_cases hcommits
    by_cases h₁ : (x, y) = (c.account, z)
    · exact Or.inl (.request hcommand (Prod.mk.inj h₁).1.symm)
    · by_cases h₂ : (x, y) = (z, c.account)
      · exact Or.inr (.request hcommand (Prod.mk.inj h₂).2.symm)
      · exact absurd (Relationships.setPair_frame h₁ h₂) hne
  | registers hcommand hcommits hid hadded =>
    refine absurd ?_ hne
    rw [withDb, hadded.rest]
  | connects hid htoken hserver =>
    obtain ⟨t, hcall, rfl⟩ := handleConnection_some hserver
    exact absurd rfl hne
  | disconnects hclient hserver =>
    obtain ⟨t, hcall, rfl⟩ := handleDisconnect_some hserver
    exact absurd rfl hne
  | @serves m client r hclient =>
    obtain ⟨-, -, hrel⟩ := serve_frame env.platform m.rt s.chat client r
    refine absurd ?_ hne
    show (Chat.serve _ _ _ _ _).db.relationships _ = _
    rw [hrel]
    rfl
  | _ => exact absurd rfl hne

/-- The gateway writes the settings of the socket's account. -/
theorem serve_settings {platform : Platform} {rt : Runtime} {c : Chat} {client : SocketWithAuth} {r : SocketRequest}
    {a : String} (hne : (c.serve platform rt client r).db.settings a ≠ c.db.settings a) : client.sub = a := by
  by_contra ha
  refine hne ?_
  cases r with
  | join targetId =>
    simp only [Chat.serve, ChatGateway.handleJoinDirectMessageRoom]
    split
    · rename_i newPin settings hpin
      obtain ⟨target, -, -, rfl, -⟩ := pin_ok.mp hpin
      exact Function.update_of_ne (Ne.symm ha) _ _
    · rfl
  | leave targetId => rfl
  | send data =>
    simp only [Chat.serve, ChatGateway.handleSendDirectMessage]
    split
    · rename_i m db hm
      obtain ⟨-, -, -, -, rfl⟩ := createDirectMessage_ok.mp hm
      rfl
    · rfl

theorem step_settingsOf (hc : s.Change env l s') {a : String}
    (hne : s'.server.db.settings a ≠ s.server.db.settings a) : s.ActsFor env a l ∨ s.Registers env a l := by
  cases hc with
  | @registers m ep request data e db hcommand hcommits hid hadded =>
    by_cases hea : e.id = a
    · exact Or.inr (.register hcommand hcommits (hid.symm.trans hea))
    · refine absurd ?_ hne
      rw [withDb, hadded.rest]
      exact Function.update_of_ne (Ne.symm hea) _ _
  | @unpins m ep request b targetId settings hcommand hrun =>
    obtain ⟨-, -, rfl⟩ := unpin_ok.mp hrun
    by_cases hba : b = a
    · exact Or.inl (.request hcommand (congrArg some hba) (by simp [Command.strategy, JwtAtStrategy]))
    · exact absurd (Function.update_of_ne (Ne.symm hba) _ _) hne
  | connects hid htoken hserver =>
    obtain ⟨t, hcall, rfl⟩ := handleConnection_some hserver
    exact absurd rfl hne
  | disconnects hclient hserver =>
    obtain ⟨t, hcall, rfl⟩ := handleDisconnect_some hserver
    exact absurd rfl hne
  | serves hclient => exact Or.inl (.socket hclient (serve_settings (c := s.chat) hne))
  | _ => exact absurd rfl hne

/-- The row of another account after a verification. -/
theorem find_withStatus {rows : List Account} {a b : String} {now : DateTime} (hab : a ≠ b) :
    (rows.map (Accounts.withStatus a .ACTIVE now)).find? (fun e => decide (e.id = b)) =
      rows.find? fun e => decide (e.id = b) := by
  induction rows with
  | nil => rfl
  | cons e rows ih =>
    rw [List.map_cons, List.find?_cons, List.find?_cons, ih]
    by_cases hea : e.id = a
    · simp [Accounts.withStatus, hea, hab]
    · simp [Accounts.withStatus, hea]

theorem step_rowOf (hc : s.Change env l s') {a : String} (hne : s'.rowOf a ≠ s.rowOf a) :
    PresentsToken env a l ∨ s.Registers env a l := by
  cases hc with
  | @registers m ep request data e db hcommand hcommits hid hadded =>
    by_cases hea : e.id = a
    · exact Or.inr (.register hcommand hcommits (hid.symm.trans hea))
    · refine absurd ?_ hne
      show db.accounts.rows.find? _ = _
      rw [hadded.rows, List.find?_append]
      simp [hea, rowOf, Accounts.findFirst]
  | @verifies m ep request b accounts hcommand hupdate =>
    by_cases hba : b = a
    · exact Or.inl (hba ▸ .verify hcommand)
    · refine absurd ?_ hne
      show accounts.rows.find? _ = _
      rw [Accounts.updateStatus_rows hupdate, find_withStatus hba]
      rfl
  | connects hid htoken hserver =>
    obtain ⟨t, hcall, rfl⟩ := handleConnection_some hserver
    exact absurd rfl hne
  | disconnects hclient hserver =>
    obtain ⟨t, hcall, rfl⟩ := handleDisconnect_some hserver
    exact absurd rfl hne
  | @serves m client r hclient =>
    obtain ⟨haccounts, -, -⟩ := serve_frame env.platform m.rt s.chat client r
    refine absurd ?_ hne
    show (Chat.serve _ _ _ _ _).db.accounts.findFirst _ = _
    rw [haccounts]
    rfl
  | _ => exact absurd rfl hne

/-- The gateway adds the messages that sockets send. -/
theorem serve_directMessages (platform : Platform) (rt : Runtime) (c : Chat) (client : SocketWithAuth)
    (r : SocketRequest) : ∃ new, (c.serve platform rt client r).db.directMessages = c.db.directMessages ++ new ∧
      (new ≠ [] → ∃ data, r = .send data) := by
  cases r with
  | join targetId =>
    refine ⟨[], ?_, fun h => absurd rfl h⟩
    simp only [Chat.serve, ChatGateway.handleJoinDirectMessageRoom]
    split <;> simp
  | leave targetId => exact ⟨[], (List.append_nil _).symm, fun h => absurd rfl h⟩
  | send data =>
    simp only [Chat.serve, ChatGateway.handleSendDirectMessage]
    split
    · rename_i m db hm
      obtain ⟨-, -, -, -, rfl⟩ := createDirectMessage_ok.mp hm
      exact ⟨[m], rfl, fun _ => ⟨data, rfl⟩⟩
    · exact ⟨[], (List.append_nil _).symm, fun h => absurd rfl h⟩

theorem step_directMessages (hc : s.Change env l s') :
    ∃ new, s'.server.db.directMessages = s.server.db.directMessages ++ new ∧ (new ≠ [] → s.Sends l) := by
  have hsame : s'.server.db.directMessages = s.server.db.directMessages →
      ∃ new, s'.server.db.directMessages = s.server.db.directMessages ++ new ∧ (new ≠ [] → s.Sends l) :=
    fun h => ⟨[], h.trans (List.append_nil _).symm, fun h => absurd rfl h⟩
  cases hc with
  | registers hcommand hcommits hid hadded =>
    refine hsame ?_
    rw [withDb, hadded.rest]
  | connects hid htoken hserver =>
    obtain ⟨t, hcall, rfl⟩ := handleConnection_some hserver
    exact hsame rfl
  | disconnects hclient hserver =>
    obtain ⟨t, hcall, rfl⟩ := handleDisconnect_some hserver
    exact hsame rfl
  | @serves m client r hclient =>
    obtain ⟨new, hmessages, hsend⟩ := serve_directMessages env.platform m.rt s.chat client r
    refine ⟨new, hmessages, fun hne => ?_⟩
    obtain ⟨data, rfl⟩ := hsend hne
    exact .send hclient
  | _ => exact hsame rfl

end Step

/-- **What a step changes is the data of those for whom it is carried out.** In every state of a run in which no token
is forged, and for every event. -/
theorem own_data_only (env : BackendEnv) (events : List (Moment × BackendEvent)) (s : Backend)
    (hunforged : Along (step env) (Unforged env) start events) (hrun : run (step env) start events = some s)
    (l : Moment × BackendEvent) (s' : Backend) (hstep : s.step env l = some s') : Confined env s l s' := by
  have h := intact_run hunforged hrun
  have hc := step_change hstep
  exact
    { relationships := fun _ _ hne => step_relationships hc hne
      settings := fun _ hne => step_settingsOf hc hne
      sessions := fun _ hne => step_sessionsOf h hc hne
      accounts := fun _ hne => step_rowOf hc hne
      messages := step_directMessages hc }

/-- A logout of alice. -/
theorem own_data_only_sample : ∃ s', withAlice.step sampleEnv (byAlice .logout .null) = some s' ∧
    Confined sampleEnv withAlice (byAlice .logout .null) s' :=
  ⟨_, rfl, own_data_only sampleEnv aliceComes withAlice aliceComes_unforged aliceComes_run _ _ rfl⟩

end Backend

end DiscordClone
