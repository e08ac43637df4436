import DiscordClone.Api.Provenance
import DiscordClone.User.Unverified
import DiscordClone.UserSettings.Pins

/-!
# What every state of the backend holds

The tables refer to each other and to the sockets without a constraint that the model would have to trust: that the
references are good is an invariant of the runs (`Intact`, `step_intact`).

- `step_effects`: a step of the backend is, for the sessions, the tokens and the relationships, a step of the server
  (`Server.Effects`).
- `references_exact`: in every state of a run whose tokens are not forged, sessions, relationships, messages, settings,
  pins, rooms and clients refer to accounts and sockets that there are.
-/

namespace DiscordClone

open Machine

namespace Backend

/-- The access tokens that have left the server have been issued. -/
def Issued (env : BackendEnv) (s : Backend) : Prop :=
  ∀ k ∈ s.minted, k.type = .ACCESS → (k.account, k.token env.toTokenEnv) ∈ s.server.issued

/-- The settings of an account are a list of ids of accounts, and there are none without an account. -/
structure SettingsKept (db : Database) : Prop where
  stored : ∀ {a}, db.accounts.Registered a → ∃ pinned : List String,
    db.settings a = some (AccountSettings.toJson ⟨pinned.map .str⟩) ∧ ∀ t ∈ pinned, db.accounts.Registered t
  absent : ∀ {a}, ¬db.accounts.Registered a → db.settings a = none

/-- The messages have different ids, and are messages between ACTIVE accounts. -/
structure MessagesKept (db : Database) : Prop where
  ids : (db.directMessages.map DirectMessage.id).Nodup
  parties : ∀ m ∈ db.directMessages, db.accounts.Active m.senderId ∧ db.accounts.Active m.targetId

/-- The sockets have different ids, the clients are those of the sockets, and only they are in rooms. -/
structure SocketsKept (s : Backend) : Prop where
  ids : (s.server.sockets.map SocketWithAuth.id).Nodup
  clients : ClientsMatch s.server
  rooms : ∀ e ∈ s.rooms, e.2 ∈ s.server.sockets

/-- The accounts of the tokens are registered, and ACTIVE unless the token is one of verification. -/
structure TokensKept (s : Backend) : Prop where
  registered : ∀ k ∈ s.minted, s.server.db.accounts.Registered k.account
  active : ∀ k ∈ s.minted, k.type ≠ .VERIFY → s.server.db.accounts.Active k.account

/-- **The invariant.** -/
structure Intact (env : BackendEnv) (s : Backend) : Prop where
  issued : Issued env s
  parties : ServerParties s.server
  tokens : TokensKept s
  settings : SettingsKept s.server.db
  messages : MessagesKept s.server.db
  sockets : SocketsKept s
  /-- The sockets are those of registered accounts. -/
  owners : ∀ c ∈ s.server.sockets, s.server.db.accounts.Registered c.sub

section Step

variable {env : BackendEnv} {s s' : Backend} {l : Moment × BackendEvent}

/-! ## The server's part -/

/-- A registration leaves the other accounts as they are. -/
theorem added_keeps {db db' : Database} {data : RegisterDto} {e : Account} (h : Added db db' data e) :
    db.accounts.Keeps db'.accounts := by
  intro x hx
  refine ⟨x, ?_, rfl, rfl, rfl, id⟩
  rw [h.rows]
  exact List.mem_append_left _ hx

/-- A change of the accounts and the settings. -/
theorem effects_accounts {s' : Server} (hkeeps : s.server.db.accounts.Keeps s'.db.accounts)
    (hsessions : s'.db.sessions = s.server.db.sessions) (hids : s'.ids = s.server.ids)
    (hissued : s'.issued = s.server.issued) (hrel : s'.db.relationships = s.server.db.relationships) :
    s.server.Effects s' := by
  refine ⟨hkeeps.extends, ?_, fun p hp => Or.inl (hissued ▸ hp), Or.inl hrel⟩
  rw [hsessions, hids]
  exact .same _ _ _

theorem effects_after {now pick : Nat} {event : AuthEvent} {uuid : String} {t : AuthState}
    (h : s.Calls env now event pick uuid t) : s.server.Effects (s.server.answered t) := by
  have hcall : s.server.call env.server now event pick uuid = some (s.server.answered t) := call_some.mpr ⟨t, h, rfl⟩
  exact call_effects hcall

/-- A call that is not refused is applied. -/
theorem apply_of_exec {accounts : Accounts} {c : Call} {rel rel' : Relationships} (h : c.exec accounts rel = .ok rel') :
    c.apply accounts rel = rel' := by
  rw [Call.apply, h]

/-- **A step of the backend is a step of the server**, as far as sessions, tokens and relationships go. -/
theorem step_effects (hissued : Issued env s) (hunforged : s.Unforged env l) (h : s.Change env l s') :
    s.server.Effects s'.server := by
  cases h with
  | nothing => exact effects_accounts (.refl _) rfl rfl rfl rfl
  | registers hcommand hcommits hid hadded =>
    refine effects_accounts (added_keeps hadded) ?_ rfl rfl ?_
    · rw [withDb, hadded.rest]
    · rw [withDb, hadded.rest]
  | verifies hcommand hupdate => exact effects_accounts (Accounts.keeps_updateStatus hupdate) rfl rfl rfl rfl
  | logsIn hcommand haccepts hcall hresults => exact effects_after hcall
  | refreshes hcommand hsession hcall hresults => exact effects_after hcall
  | logsOut hcommand hcall => exact effects_after hcall
  | relates hcommand hexec =>
    obtain ⟨iat, hk, -⟩ := commands_minted hunforged hcommand rfl
    exact ⟨.refl _, .same _ _ _, fun p hp => Or.inl hp,
      Or.inr ⟨_, _, hissued _ hk rfl, rfl, (apply_of_exec hexec).symm⟩⟩
  | unpins hcommand hrun => exact effects_accounts (.refl _) rfl rfl rfl rfl
  | connects hid htoken hserver =>
    obtain ⟨t, hcall, rfl⟩ := handleConnection_some hserver
    exact { effects_after hcall with }
  | disconnects hclient hserver =>
    obtain ⟨t, hcall, rfl⟩ := handleDisconnect_some hserver
    exact { effects_after hcall with }
  | serves hclient =>
    obtain ⟨haccounts, hsessions, hrel⟩ := serve_frame env.platform _ s.chat _ _
    exact effects_accounts (haccounts ▸ .refl _) hsessions rfl rfl hrel

/-- What the tokens of a call are. -/
theorem issued_login {t : AuthState} {a accessToken refreshToken : String}
    (h : t.results = [.login a accessToken refreshToken] ∨ t.results = [.refresh a accessToken refreshToken]) :
    t.issued = [(a, accessToken)] := by
  rcases h with h | h <;> simp [AuthState.issued, h]

/-- A new pair of tokens has its access token issued. -/
theorem issued_after {t : AuthState} {now : Nat} {a refreshToken : String} (h : Issued env s)
    (hresults : t.results = [.login a (Minted.token env.toTokenEnv ⟨now, .ACCESS, a⟩) refreshToken] ∨
      t.results = [.refresh a (Minted.token env.toTokenEnv ⟨now, .ACCESS, a⟩) refreshToken]) :
    Issued env (s.after t (pair now a)) := by
  intro k hk ht
  have hissued : (s.after t (pair now a)).server.issued = t.issued ++ s.server.issued := rfl
  rw [hissued, issued_login hresults]
  simp only [after, pair, List.cons_append, List.nil_append, List.mem_cons] at hk
  rcases hk with rfl | rfl | hk
  · exact List.mem_cons_self
  · cases ht
  · exact List.mem_cons_of_mem _ (h k hk ht)

theorem step_issued (h : Issued env s) (hc : s.Change env l s') : Issued env s' := by
  cases hc with
  | @registers m ep request data e db hcommand hcommits hid hadded =>
    intro k hk ht
    rcases List.mem_append.mp hk with hk | hk
    · unfold verifyToken at hk
      split at hk
      · rw [List.mem_singleton.mp hk] at ht
        cases ht
      · cases hk
    · exact h k hk ht
  | logsIn hcommand haccepts hcall hresults => exact issued_after h (Or.inl hresults)
  | refreshes hcommand hsession hcall hresults => exact issued_after h (Or.inr hresults)
  | logsOut hcommand hcall => exact fun k hk ht => List.mem_append_right _ (h k hk ht)
  | connects hid htoken hserver =>
    obtain ⟨t, hcall, rfl⟩ := handleConnection_some hserver
    exact fun k hk ht => List.mem_append_right _ (h k hk ht)
  | disconnects hclient hserver =>
    obtain ⟨t, hcall, rfl⟩ := handleDisconnect_some hserver
    exact fun k hk ht => List.mem_append_right _ (h k hk ht)
  | _ => exact h

/-! ## Tokens -/

/-- The tokens stay good, and so do new ones of good accounts. -/
theorem TokensKept.grow {new : List Minted} (h : TokensKept s)
    (haccounts : s.server.db.accounts.Extends s'.server.db.accounts) (hminted : s'.minted = new ++ s.minted)
    (hnew : ∀ k ∈ new, s'.server.db.accounts.Registered k.account ∧
      (k.type ≠ .VERIFY → s'.server.db.accounts.Active k.account)) : TokensKept s' where
  registered k hk := by
    rcases List.mem_append.mp (hminted ▸ hk) with hk | hk
    · exact (hnew k hk).1
    · exact haccounts.registered (h.registered k hk)
  active k hk ht := by
    rcases List.mem_append.mp (hminted ▸ hk) with hk | hk
    · exact (hnew k hk).2 ht
    · exact haccounts.active (h.active k hk ht)

/-- A pair of tokens of an ACTIVE account. -/
theorem pair_active {accounts : Accounts} {now : Nat} {a : String} (ha : accounts.Active a) :
    ∀ k ∈ pair now a, accounts.Registered k.account ∧ (k.type ≠ .VERIFY → accounts.Active k.account) := by
  intro k hk
  simp only [pair, List.mem_cons, List.not_mem_nil, or_false] at hk
  rcases hk with rfl | rfl
  · exact ⟨ha.registered, fun _ => ha⟩
  · exact ⟨ha.registered, fun _ => ha⟩

/-- The accounts after a step. -/
theorem tokens_same (h : TokensKept s) (haccounts : s.server.db.accounts.Extends s'.server.db.accounts)
    (hminted : s'.minted = s.minted) : TokensKept s' :=
  TokensKept.grow h haccounts (by simpa using hminted) (show ∀ k ∈ ([] : List Minted), _ by simp)

theorem step_tokens (hparties : ServerParties s.server) (h : TokensKept s)
    (heffects : s.server.Effects s'.server) (hc : s.Change env l s') : TokensKept s' := by
  have haccounts := heffects.accounts
  cases hc with
  | registers hcommand hcommits hid hadded =>
    refine h.grow haccounts rfl fun k hk => ?_
    unfold verifyToken at hk
    split at hk
    · rw [List.mem_singleton.mp hk]
      refine ⟨⟨_, ?_, rfl⟩, fun ht => absurd rfl ht⟩
      show _ ∈ (withDb _ _).server.db.accounts.rows
      rw [withDb, hadded.rows]
      exact List.mem_append_right _ List.mem_cons_self
    · cases hk
  | logsIn hcommand haccepts hcall hresults => exact h.grow haccounts rfl (pair_active haccepts.active)
  | refreshes hcommand hsession hcall hresults =>
    obtain ⟨x, hx, haccount, -⟩ := hsession
    exact h.grow haccounts rfl (pair_active (hparties.sound.active _ (Or.inl ⟨x, hx, haccount⟩)))
  | _ => exact tokens_same h haccounts rfl

/-! ## Settings -/

/-- A table with the same ids. -/
theorem SettingsKept.same {db db' : Database} (h : SettingsKept db)
    (hids : ∀ a, db'.accounts.Registered a ↔ db.accounts.Registered a) (hsettings : db'.settings = db.settings) :
    SettingsKept db' where
  stored {a} ha := by
    obtain ⟨pinned, hp, hreg⟩ := h.stored ((hids a).mp ha)
    exact ⟨pinned, hsettings ▸ hp, fun t ht => (hids t).mpr (hreg t ht)⟩
  absent {a} ha := by
    rw [hsettings]
    exact h.absent fun hr => ha ((hids a).mpr hr)

/-- A registered account gets another list of registered accounts. -/
theorem SettingsKept.withPinned {db : Database} {a : String} {pinned : List String} (h : SettingsKept db)
    (ha : db.accounts.Registered a) (hp : ∀ t ∈ pinned, db.accounts.Registered t) :
    SettingsKept { db with settings := db.settings.withPinned a (pinned.map .str) } where
  stored {b} hb := by
    by_cases hba : b = a
    · subst hba
      exact ⟨pinned, Function.update_self _ _ _, hp⟩
    · obtain ⟨pinned', hp', hreg⟩ := h.stored hb
      exact ⟨pinned', (Function.update_of_ne hba _ _).trans hp', hreg⟩
  absent {b} hb := by
    have hba : b ≠ a := by
      rintro rfl
      exact hb ha
    exact (Function.update_of_ne hba _ _).trans (h.absent hb)

/-- A new account has an empty list. -/
theorem SettingsKept.registers {db db' : Database} {data : RegisterDto} {e : Account} (h : SettingsKept db)
    (hadded : Added db db' data e) : SettingsKept db' := by
  have hsettings : db'.settings = Function.update db.settings e.id (some (.obj [("pinnedDms", .arr [])])) := by
    rw [hadded.rest]
  have hkeeps := (added_keeps hadded).extends
  constructor
  case stored =>
    intro a ha
    by_cases hae : a = e.id
    · subst hae
      exact ⟨[], hsettings ▸ Function.update_self _ _ _, by simp⟩
    · obtain ⟨x, hx, hxa⟩ := ha
      rw [hadded.rows] at hx
      have hold : db.accounts.Registered a := by
        rcases List.mem_append.mp hx with hx | hx
        · exact ⟨x, hx, hxa⟩
        · rw [List.mem_singleton.mp hx] at hxa
          exact absurd hxa.symm hae
      obtain ⟨pinned, hp, hreg⟩ := h.stored hold
      exact ⟨pinned, hsettings ▸ (Function.update_of_ne hae _ _).trans hp, fun t ht => hkeeps.registered (hreg t ht)⟩
  case absent =>
    intro a ha
    have hae : a ≠ e.id := by
      rintro rfl
      refine ha ⟨e, ?_, rfl⟩
      rw [hadded.rows]
      exact List.mem_append_right _ List.mem_cons_self
    rw [hsettings]
    exact (Function.update_of_ne hae _ _).trans (h.absent fun hr => ha (hkeeps.registered hr))

/-- A change of a status leaves the ids. -/
theorem registered_updateStatus {accounts accounts' : Accounts} {id : String} {status : AccountStatus} {now : DateTime}
    (h : accounts.updateStatus id status now = .ok accounts') (a : String) :
    accounts'.Registered a ↔ accounts.Registered a := by
  have hid : ∀ e, (Accounts.withStatus id status now e).id = e.id := by
    intro e
    unfold Accounts.withStatus
    split <;> rfl
  simp only [Accounts.Registered, Accounts.updateStatus_rows h, List.mem_map]
  constructor
  · rintro ⟨e, ⟨y, hy, rfl⟩, rfl⟩
    exact ⟨y, hy, (hid y).symm⟩
  · rintro ⟨y, hy, rfl⟩
    exact ⟨_, ⟨y, hy, rfl⟩, hid y⟩

theorem SettingsKept.serve {platform : Platform} {rt : Runtime} {c : Chat} {client : SocketWithAuth} {r : SocketRequest}
    (h : SettingsKept c.db) : SettingsKept (c.serve platform rt client r).db := by
  cases r with
  | join targetId =>
    simp only [Chat.serve, ChatGateway.handleJoinDirectMessageRoom]
    split
    · rename_i newPin settings hpin
      obtain ⟨target, hadmits, -, rfl, -⟩ := pin_ok.mp hpin
      have ha := hadmits.active.registered
      obtain ⟨pinned, hp, hreg⟩ := h.stored ha
      have hlist : Json.str target.id :: pinnedOf c.db.settings client.sub = (target.id :: pinned).map .str := by
        rw [pinnedOf_stored hp, List.map_cons]
      rw [hlist]
      exact h.withPinned ha (List.forall_mem_cons.mpr ⟨registered_of_pinTarget hadmits.found, hreg⟩)
    · exact h
  | leave targetId => exact h
  | send data =>
    simp only [Chat.serve, ChatGateway.handleSendDirectMessage]
    split
    · rename_i m db hm
      obtain ⟨-, -, -, -, rfl⟩ := createDirectMessage_ok.mp hm
      exact h.same (fun _ => Iff.rfl) rfl
    · exact h

theorem step_settings (h : SettingsKept s.server.db) (hc : s.Change env l s') : SettingsKept s'.server.db := by
  cases hc with
  | registers hcommand hcommits hid hadded => exact h.registers hadded
  | verifies hcommand hupdate => exact h.same (registered_updateStatus hupdate) rfl
  | unpins hcommand hrun =>
    obtain ⟨ha, -, rfl⟩ := unpin_ok.mp hrun
    obtain ⟨pinned, hp, hreg⟩ := h.stored ha.registered
    rw [pinnedOf_stored hp, filter_same]
    exact h.withPinned ha.registered fun t ht => hreg t (List.mem_of_mem_filter ht)
  | logsIn hcommand haccepts hcall hresults => exact h.same (fun _ => Iff.rfl) rfl
  | refreshes hcommand hsession hcall hresults => exact h.same (fun _ => Iff.rfl) rfl
  | logsOut hcommand hcall => exact h.same (fun _ => Iff.rfl) rfl
  | relates hcommand hexec => exact h.same (fun _ => Iff.rfl) rfl
  | connects hid htoken hserver =>
    obtain ⟨t, hcall, rfl⟩ := handleConnection_some hserver
    exact h.same (fun _ => Iff.rfl) rfl
  | disconnects hclient hserver =>
    obtain ⟨t, hcall, rfl⟩ := handleDisconnect_some hserver
    exact h.same (fun _ => Iff.rfl) rfl
  | serves hclient => exact SettingsKept.serve (c := s.chat) h
  | nothing => exact h

/-! ## Messages -/

theorem MessagesKept.extends {db db' : Database} (h : MessagesKept db) (haccounts : db.accounts.Extends db'.accounts)
    (hmessages : db'.directMessages = db.directMessages) : MessagesKept db' where
  ids := hmessages ▸ h.ids
  parties m hm := (h.parties m (hmessages ▸ hm)).imp haccounts.active haccounts.active

theorem MessagesKept.serve {platform : Platform} {rt : Runtime} {c : Chat} {client : SocketWithAuth} {r : SocketRequest}
    (h : MessagesKept c.db) : MessagesKept (c.serve platform rt client r).db := by
  cases r with
  | join targetId =>
    simp only [Chat.serve, ChatGateway.handleJoinDirectMessageRoom]
    split <;> exact h.extends (.refl _) rfl
  | leave targetId => exact h
  | send data =>
    simp only [Chat.serve, ChatGateway.handleSendDirectMessage]
    split
    · rename_i m db hm
      obtain ⟨hsender, htarget, -, hinsert, rfl⟩ := createDirectMessage_ok.mp hm
      have hfresh := DirectMessages.insert_fresh hinsert
      constructor
      case ids =>
        rw [List.map_append, List.map_singleton, ← List.concat_eq_append]
        refine h.ids.concat fun hmem => ?_
        obtain ⟨n, hn, hid⟩ := List.mem_map.mp hmem
        exact hfresh n hn hid
      case parties =>
        intro n hn
        rcases List.mem_append.mp hn with hn | hn
        · exact h.parties n hn
        · rw [List.mem_singleton.mp hn]
          exact ⟨hsender, htarget⟩
    · exact h

/-- What only a socket changes. -/
theorem step_messages (h : MessagesKept s.server.db) (heffects : s.server.Effects s'.server) (hc : s.Change env l s') :
    MessagesKept s'.server.db := by
  have haccounts := heffects.accounts
  cases hc with
  | registers hcommand hcommits hid hadded =>
    refine h.extends haccounts ?_
    show (withDb _ _).server.db.directMessages = _
    rw [withDb, hadded.rest]
  | connects hid htoken hserver =>
    obtain ⟨t, hcall, rfl⟩ := handleConnection_some hserver
    exact h.extends haccounts rfl
  | disconnects hclient hserver =>
    obtain ⟨t, hcall, rfl⟩ := handleDisconnect_some hserver
    exact h.extends haccounts rfl
  | serves hclient => exact MessagesKept.serve (c := s.chat) h
  | _ => exact h.extends haccounts rfl

/-! ## Sockets -/

/-- The rooms after a request of a connected socket. -/
theorem serve_rooms {platform : Platform} {rt : Runtime} {c : Chat} {client : SocketWithAuth} {r : SocketRequest}
    {sockets : List SocketWithAuth} (hclient : client ∈ sockets) (h : ∀ e ∈ c.rooms, e.2 ∈ sockets) :
    ∀ e ∈ (c.serve platform rt client r).rooms, e.2 ∈ sockets := by
  cases r with
  | join targetId =>
    simp only [Chat.serve, ChatGateway.handleJoinDirectMessageRoom]
    intro e he
    have he : e ∈ ChatGateway.joinRoom platform client targetId c.rooms := by
      split at he <;> exact he
    rcases ChatGateway.mem_joinRoom he with ⟨rfl, -⟩ | he
    · exact hclient
    · exact h e he
  | leave targetId => exact fun e he => h e (ChatGateway.mem_leaveRoom he)
  | send data =>
    simp only [Chat.serve, ChatGateway.handleSendDirectMessage]
    split <;> exact h

theorem step_sockets (h : SocketsKept s) (hc : s.Change env l s') : SocketsKept s' := by
  cases hc with
  | @connects m id handshake user server hid htoken hserver =>
    obtain ⟨t, hcall, rfl⟩ := handleConnection_some hserver
    have hclient : (⟨id, user.sub⟩ : SocketWithAuth) ∉ s.server.sockets := fun hmem => hid _ hmem rfl
    constructor
    case ids =>
      show ((s.server.sockets ++ [_]).map SocketWithAuth.id).Nodup
      rw [List.map_append, List.map_singleton, ← List.concat_eq_append]
      refine h.ids.concat fun hmem => ?_
      obtain ⟨c, hc, hcid⟩ := List.mem_map.mp hmem
      exact hid c hc hcid
    case clients =>
      have hanswered : ClientsMatch (s.server.answered t) := ⟨h.clients.nodup, h.clients.clients⟩
      exact hanswered.connects hclient
    case rooms =>
      intro e he
      rcases List.mem_insert_iff.mp he with rfl | he
      · exact List.mem_append_right _ List.mem_cons_self
      · exact List.mem_append_left _ (h.rooms e he)
  | @disconnects m client server hclient hserver =>
    obtain ⟨t, hcall, rfl⟩ := handleDisconnect_some hserver
    constructor
    case ids => exact h.ids.sublist (List.filter_sublist.map _)
    case clients =>
      have hanswered : ClientsMatch (s.server.answered t) := ⟨h.clients.nodup, h.clients.clients⟩
      exact hanswered.disconnects hclient
    case rooms =>
      intro e he
      obtain ⟨he, hne⟩ := List.mem_filter.mp he
      exact List.mem_filter.mpr ⟨h.rooms e he, hne⟩
  | serves hclient => exact ⟨h.ids, ⟨h.clients.nodup, h.clients.clients⟩, serve_rooms hclient h.rooms⟩
  | registers hcommand hcommits hid hadded => exact ⟨h.ids, ⟨h.clients.nodup, h.clients.clients⟩, h.rooms⟩
  | verifies hcommand hupdate => exact ⟨h.ids, ⟨h.clients.nodup, h.clients.clients⟩, h.rooms⟩
  | logsIn hcommand haccepts hcall hresults => exact ⟨h.ids, ⟨h.clients.nodup, h.clients.clients⟩, h.rooms⟩
  | refreshes hcommand hsession hcall hresults => exact ⟨h.ids, ⟨h.clients.nodup, h.clients.clients⟩, h.rooms⟩
  | logsOut hcommand hcall => exact ⟨h.ids, ⟨h.clients.nodup, h.clients.clients⟩, h.rooms⟩
  | relates hcommand hexec => exact ⟨h.ids, ⟨h.clients.nodup, h.clients.clients⟩, h.rooms⟩
  | unpins hcommand hrun => exact ⟨h.ids, ⟨h.clients.nodup, h.clients.clients⟩, h.rooms⟩
  | nothing => exact h

/-- A socket comes with a token of its account. -/
theorem step_owners (htokens : TokensKept s) (h : ∀ c ∈ s.server.sockets, s.server.db.accounts.Registered c.sub)
    (hunforged : s.Unforged env l) (heffects : s.server.Effects s'.server) (hc : s.Change env l s') :
    ∀ c ∈ s'.server.sockets, s'.server.db.accounts.Registered c.sub := by
  have hold : ∀ c ∈ s.server.sockets, s'.server.db.accounts.Registered c.sub := fun c hc =>
    heffects.accounts.registered (h c hc)
  cases hc with
  | @connects m id handshake user server hid htoken hserver =>
    obtain ⟨iat, hk, -⟩ := handshake_minted hunforged htoken
    obtain ⟨t, hcall, rfl⟩ := handleConnection_some hserver
    refine List.forall_mem_append.mpr ⟨hold, fun c hc => ?_⟩
    rw [List.mem_singleton.mp hc]
    exact heffects.accounts.registered (htokens.registered _ hk)
  | disconnects hclient hserver =>
    obtain ⟨t, hcall, rfl⟩ := handleDisconnect_some hserver
    exact fun c hc => hold c (List.mem_of_mem_filter hc)
  | _ => exact hold

/-! ## Runs -/

/-- **Every step keeps the invariant.** -/
theorem step_intact (h : Intact env s) (hunforged : s.Unforged env l) (hstep : s.step env l = some s') :
    Intact env s' := by
  have hc := step_change hstep
  have heffects := step_effects h.issued hunforged hc
  exact
    { issued := step_issued h.issued hc
      parties := serverParties_step h.parties heffects
      tokens := step_tokens h.parties h.tokens heffects hc
      settings := step_settings h.settings hc
      messages := step_messages h.messages heffects hc
      sockets := step_sockets h.sockets hc
      owners := step_owners h.tokens h.owners hunforged heffects hc }

theorem intact_start (env : BackendEnv) : Intact env start where
  issued k hk := absurd hk List.not_mem_nil
  parties :=
    { sound := sound_start _
      parties := parties_without _
      blocked := fun h => absurd h (by simp [start, Server.start, Database.empty, noRelationships]) }
  tokens := ⟨fun k hk => absurd hk List.not_mem_nil, fun k hk => absurd hk List.not_mem_nil⟩
  settings := ⟨fun ⟨e, he, _⟩ => absurd he List.not_mem_nil, fun _ => rfl⟩
  messages := ⟨List.nodup_nil, fun m hm => absurd hm List.not_mem_nil⟩
  sockets := ⟨List.nodup_nil, ⟨List.nodup_nil, rfl⟩, fun e he => absurd he List.not_mem_nil⟩
  owners c hc := absurd hc List.not_mem_nil

theorem intact_run {events : List (Moment × BackendEvent)} (hunforged : Along (step env) (Unforged env) start events)
    (hrun : run (step env) start events = some s) : Intact env s :=
  run_inv (fun _ _ _ h hc hs => step_intact h hc hs) (intact_start env) hunforged hrun

end Step

/-! ## References -/

/-- Both ends of a row are registered. -/
theorem registered_ends {accounts : Accounts} {rel : Relationships} {x y : String} {p : RelationshipStatus}
    (h : Parties accounts rel) (hb : BlockedActive accounts rel) (hp : rel (x, y) = some p) :
    accounts.Registered x ∧ accounts.Registered y := by
  refine ⟨h.registered hp, ?_⟩
  by_cases hblocked : p = .BLOCKED
  · exact (hb (hblocked ▸ hp)).registered
  · exact h.registered (h.wellPaired.matched hp hblocked)

/-- Everything that is stored refers to accounts and sockets that there are. -/
structure References (s : Backend) : Prop where
  /-- Sessions are one for an account, which is ACTIVE. -/
  sessions : (s.server.db.sessions.map Session.accountId).Nodup ∧
    ∀ x ∈ s.server.db.sessions, s.server.db.accounts.Active x.accountId
  relationships : ∀ {x y p}, s.server.db.relationships (x, y) = some p →
    x ≠ y ∧ s.server.db.accounts.Registered x ∧ s.server.db.accounts.Registered y
  messages : (s.server.db.directMessages.map DirectMessage.id).Nodup ∧
    ∀ m ∈ s.server.db.directMessages, s.server.db.accounts.Active m.senderId ∧ s.server.db.accounts.Active m.targetId
  /-- There are settings exactly for the accounts, and `getMe` shows all that is pinned in them. -/
  settings : ∀ a, (s.server.db.settings a).isSome = true ↔ s.server.db.accounts.Registered a
  pins : ∀ a, s.server.db.accounts.Registered a → ∀ findMany : List Account → List Account,
    (∀ rows, (findMany rows).Perm rows) → ∃ me pinned, UserService.getMe findMany s.server.db a = .ok me ∧
      s.server.db.settings a = some (AccountSettings.toJson ⟨pinned.map .str⟩) ∧ me.pinnedIds = pinned
  sockets : ∀ c ∈ s.server.sockets, s.server.db.accounts.Registered c.sub
  rooms : ∀ e ∈ s.rooms, e.2 ∈ s.server.sockets
  clients : s.server.clients = s.server.sockets.map SocketWithAuth.entry ∧
    (s.server.sockets.map SocketWithAuth.id).Nodup

/-- **Every reference in a reachable state is good**: after any run in which no token is forged. -/
theorem references_exact (env : BackendEnv) (events : List (Moment × BackendEvent)) (s : Backend)
    (hunforged : Along (step env) (Unforged env) start events) (hrun : run (step env) start events = some s) :
    References s := by
  have h := intact_run hunforged hrun
  constructor
  case sessions =>
    exact ⟨h.parties.sound.onePerAccount.accounts_nodup, fun x hx => h.parties.sound.active _ (Or.inl ⟨x, hx, rfl⟩)⟩
  case relationships =>
    intro x y p hp
    exact ⟨h.parties.parties.wellPaired.ne hp, registered_ends h.parties.parties h.parties.blocked hp⟩
  case messages => exact ⟨h.messages.ids, h.messages.parties⟩
  case settings =>
    intro a
    constructor
    · intro hsome
      by_contra ha
      rw [h.settings.absent ha] at hsome
      cases hsome
    · intro ha
      obtain ⟨pinned, hp, -⟩ := h.settings.stored ha
      rw [hp]
      rfl
  case pins =>
    intro a ha findMany hfind
    obtain ⟨pinned, hp, hreg⟩ := h.settings.stored ha
    obtain ⟨me, hme, hids⟩ := getMe_pinned ha hfind hp hreg
    exact ⟨me, pinned, hme, hp, hids⟩
  case sockets => exact h.owners
  case rooms => exact h.sockets.rooms
  case clients => exact ⟨h.sockets.clients.clients, h.sockets.ids⟩

/-- The state in which alice is logged in. -/
theorem references_exact_sample : References withAlice :=
  references_exact sampleEnv aliceComes withAlice aliceComes_unforged aliceComes_run

end Backend

end DiscordClone
