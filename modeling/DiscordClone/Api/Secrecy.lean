import DiscordClone.Api.Stream
import DiscordClone.Lib.Unwinding

/-!
# What others write stays between them

Two runs of the backend whose events are the same but for what the sockets of other accounts write to each other. An
account `x` cannot tell them apart, and nobody else can by anything but reading messages: every answer of a controller
is the same unless it is another account's list of messages, and the sockets of `x` receive the same (`secret_exact`).

- `Indistinct`: the states of the two runs differ in the contents of messages that do not involve `x`, and in what other
  accounts' sockets have received.
- `execute_veil`: the contents of the messages do not matter to any command but the one that lists them.
- `unwinds_step`: a step of the one run is a step of the other.
-/

namespace DiscordClone

open ChatGateway Machine
open Json (Obj)

/-- The two objects have the same entries but for those of this key. -/
def SameBut (key : String) (data data' : List (String × Json)) : Prop :=
  data.filter (fun e => e.1 ≠ key) = data'.filter fun e => e.1 ≠ key

/-- A message that does not involve `x`. -/
def DirectMessage.Hidden (x : String) (n : DirectMessage) : Prop := n.senderId ≠ x ∧ n.targetId ≠ x

/-- The same message, or one that does not involve `x` with another content. -/
def DirectMessage.Veiled (x : String) (n n' : DirectMessage) : Prop :=
  n' = n ∨ n.Hidden x ∧ n' = { n with content := n'.content }

/-! ## Other contents -/

theorem veiled_ids {x : String} {L M : List DirectMessage} (h : List.Forall₂ (DirectMessage.Veiled x) L M) :
    M.map DirectMessage.id = L.map DirectMessage.id := by
  induction h with
  | nil => rfl
  | cons hn _ ih =>
    rw [List.map_cons, List.map_cons, ih]
    rcases hn with rfl | ⟨-, hn⟩
    · rfl
    · rw [hn]

/-- An id that is new among messages with the same ids. -/
theorem fresh_of_ids {L M : List DirectMessage} (hids : M.map DirectMessage.id = L.map DirectMessage.id) {id : String}
    (h : ∀ n ∈ L, n.id ≠ id) : ∀ n ∈ M, n.id ≠ id := by
  intro n hn hid
  have hmem : n.id ∈ L.map DirectMessage.id := hids ▸ List.mem_map_of_mem hn
  obtain ⟨n', hn', heq⟩ := List.mem_map.mp hmem
  exact h n' hn' (heq.trans hid)

/-- What `x` reads of the messages. -/
theorem veiled_filter {x : String} {L M : List DirectMessage} (h : List.Forall₂ (DirectMessage.Veiled x) L M)
    {p : DirectMessage → Bool} (hp : ∀ n, p n = true → ¬n.Hidden x)
    (hcontent : ∀ n content, p { n with content := content } = p n) : M.filter p = L.filter p := by
  induction h with
  | nil => rfl
  | @cons n n' L M hn _ ih =>
    rcases hn with rfl | ⟨hhidden, hn⟩
    · rw [List.filter_cons, List.filter_cons, ih]
    · have hno : ¬p n = true := fun h => hp n h hhidden
      have hno' : ¬p n' = true := by
        rw [hn, hcontent]
        exact hno
      rw [List.filter_cons_of_neg hno, List.filter_cons_of_neg hno', ih]

section Data

variable {M : List DirectMessage} {client : SocketWithAuth} {data data' : List (String × Json)} {key : String}

/-- The other keys have the same values. -/
theorem SameBut.get (h : SameBut key data data') {k : String} (hk : k ≠ key) :
    (Obj.spread data').get k = (Obj.spread data).get k := by
  rw [← Obj.get_spread_filter data (p := fun k => k ≠ key) (by simpa using hk),
    ← Obj.get_spread_filter data' (p := fun k => k ≠ key) (by simpa using hk), ← h]

theorem SameBut.symm (h : SameBut key data data') : SameBut key data' data := Eq.symm h

theorem SameBut.sendData (h : SameBut key data data') {k : String} (hk : k ≠ key) :
    (sendData client data').get k = (sendData client data).get k := by
  by_cases hsender : k = "senderId"
  · subst hsender
    rw [ChatGateway.sendData, ChatGateway.sendData, Obj.get_cons_spread, Obj.get_cons_spread, h.get hk]
  · rw [ChatGateway.sendData, ChatGateway.sendData, Obj.get_cons_ne (Ne.symm hsender),
      Obj.get_cons_ne (Ne.symm hsender), h.get hk]

theorem sendData_content : (sendData client data).get "content" = (Obj.spread data).get "content" :=
  Obj.get_cons_ne (by decide) _ _

/-- What `create` is given. -/
def created (client : SocketWithAuth) (data : List (String × Json)) : Obj :=
  sendData client data ++ [("type", memberOf ((sendData client data).get "type"))]

theorem created_get {k : String} (h : SameBut "content" data data') (hk : k ≠ "content") :
    (created client data').get k = (created client data).get k := by
  unfold created
  by_cases htype : k = "type"
  · subst htype
    rw [Obj.get_append_self, Obj.get_append_self, h.sendData (by decide)]
  · rw [Obj.get_append_ne (Ne.symm htype), Obj.get_append_ne (Ne.symm htype), h.sendData hk]

theorem created_content : (created client data).get "content" = (Obj.spread data).get "content" := by
  rw [created, Obj.get_append_ne (by decide), sendData_content]

/-- An entry of another key comes from the same entry. -/
theorem mem_created (h : SameBut "content" data data') {e : String × Option Json} (he : e ∈ created client data')
    (hk : e.1 ≠ "content") : e.1 ∈ DirectMessages.scalarFields ∨ e ∈ created client data := by
  rcases List.mem_append.mp he with he | he
  · rcases List.mem_cons.mp he with rfl | he
    · exact Or.inl (by decide : "senderId" ∈ DirectMessages.scalarFields)
    · obtain ⟨p, hp, rfl⟩ := List.mem_map.mp he
      have hp : p ∈ data'.filter fun e => e.1 ≠ "content" := List.mem_filter.mpr ⟨hp, by simpa using hk⟩
      rw [← h] at hp
      refine Or.inr (List.mem_append_left _ (List.mem_cons_of_mem _ (List.mem_map.mpr ⟨p, ?_, rfl⟩)))
      exact (List.mem_filter.mp hp).1
  · rw [List.mem_singleton.mp he]
    exact Or.inl (by decide : "type" ∈ DirectMessages.scalarFields)

/-- **Another content is stored as well**, in a message that is the same otherwise. -/
theorem insert_sameBut {rt : Runtime} {L : List DirectMessage} {n : DirectMessage} {u v : String}
    (hids : M.map DirectMessage.id = L.map DirectMessage.id) (h : SameBut "content" data data')
    (hcontent : (Obj.spread data).get "content" = some (.str u))
    (hcontent' : (Obj.spread data').get "content" = some (.str v)) (hstorable : Storable u ↔ Storable v)
    (hn : DirectMessages.insert rt L (ChatGateway.sendData client data) = .ok n) :
    DirectMessages.insert rt M (ChatGateway.sendData client data') = .ok { n with content := v } := by
  obtain ⟨hstring, hn⟩ := DirectMessages.insert_ok.mp hn
  have hn : DirectMessages.create rt L (created client data) = .ok n := hn
  obtain ⟨hknown, hid, hsender, htarget, hu, htype, hcreated, hupdated, hfresh, htexts⟩ :=
    DirectMessages.create_ok.mp hn
  rw [created_content, DirectMessages.stringField_ok, hcontent] at hu
  cases hu
  refine DirectMessages.insert_ok.mpr ⟨by rwa [h.sendData (by decide)], ?_⟩
  show DirectMessages.create rt M (created client data') = _
  refine DirectMessages.create_ok.mpr ⟨fun e he hsome => ?_, ?_, ?_, ?_, ?_, ?_, ?_, ?_,
    fresh_of_ids hids hfresh, ?_⟩
  · by_cases hk : e.1 = "content"
    · rw [hk]
      decide
    · rcases mem_created h he hk with hmem | hmem
      · exact hmem
      · rw [created_get h hk] at hsome
        exact hknown e hmem hsome
  · rw [created_get h (by decide)]
    exact hid
  · rw [created_get h (by decide)]
    exact hsender
  · rw [created_get h (by decide)]
    exact htarget
  · rw [created_content, hcontent']
    rfl
  · rw [created_get h (by decide)]
    exact htype
  · rw [created_get h (by decide)]
    exact hcreated
  · rw [created_get h (by decide)]
    exact hupdated
  · simp only [List.forall_mem_cons] at htexts ⊢
    obtain ⟨hidtext, hsendertext, htargettext, hcontenttext, hnil⟩ := htexts
    exact ⟨hidtext, hsendertext, htargettext, hstorable.mp hcontenttext, hnil⟩

/-- The same for the service. -/
theorem createDirectMessage_sameBut {rt : Runtime} {db db' : Database} {n : DirectMessage} {u v : String}
    (hids : M.map DirectMessage.id = db.directMessages.map DirectMessage.id) (h : SameBut "content" data data')
    (hcontent : (Obj.spread data).get "content" = some (.str u))
    (hcontent' : (Obj.spread data').get "content" = some (.str v)) (hstorable : Storable u ↔ Storable v)
    (hn : DirectMessageService.createDirectMessage rt db (sendData client data) = .ok (n, db')) :
    DirectMessageService.createDirectMessage rt { db with directMessages := M } (sendData client data') =
      .ok ({ n with content := v }, { db with directMessages := M ++ [{ n with content := v }] }) := by
  obtain ⟨hsender, htarget, hblocked, hinsert, -⟩ := createDirectMessage_ok.mp hn
  exact createDirectMessage_ok.mpr ⟨hsender, htarget, hblocked,
    insert_sameBut hids h hcontent hcontent' hstorable hinsert, rfl⟩

/-- The same message is stored among messages with the same ids. -/
theorem createDirectMessage_ids {rt : Runtime} {db db' : Database} {n : DirectMessage} {o : Obj}
    (hids : M.map DirectMessage.id = db.directMessages.map DirectMessage.id)
    (hn : DirectMessageService.createDirectMessage rt db o = .ok (n, db')) :
    DirectMessageService.createDirectMessage rt { db with directMessages := M } o =
      .ok (n, { db with directMessages := M ++ [n] }) := by
  obtain ⟨hsender, htarget, hblocked, hinsert, -⟩ := createDirectMessage_ok.mp hn
  refine createDirectMessage_ok.mpr ⟨hsender, htarget, hblocked, ?_, rfl⟩
  obtain ⟨hstring, hcreate⟩ := DirectMessages.insert_ok.mp hinsert
  obtain ⟨hknown, hid, hs, ht, hc, htype, hcreated, hupdated, hfresh, htexts⟩ := DirectMessages.create_ok.mp hcreate
  exact DirectMessages.insert_ok.mpr ⟨hstring, DirectMessages.create_ok.mpr ⟨hknown, hid, hs, ht, hc, htype, hcreated,
    hupdated, fresh_of_ids hids hfresh, htexts⟩⟩

end Data

/-! ## Two runs -/

namespace Backend

/-- The same event, or another content of a message of another account to somebody else than `x`. -/
inductive Alike (x : String) : Moment × BackendEvent → Moment × BackendEvent → Prop
  | same (l : Moment × BackendEvent) : Alike x l l
  | writes (m : Moment) (client : SocketWithAuth) {data data' : List (String × Json)} {u v : String}
    (hclient : client.sub ≠ x) (hsender : (Obj.spread data).get "senderId" ≠ some (.str x))
    (htarget : (Obj.spread data).get "targetId" ≠ some (.str x)) (hsame : SameBut "content" data data')
    (hcontent : (Obj.spread data).get "content" = some (.str u))
    (hcontent' : (Obj.spread data').get "content" = some (.str v)) (hstorable : Storable u ↔ Storable v) :
    Alike x (m, .socket client (.send data)) (m, .socket client (.send data'))

/-- The command lists messages to another account than `x`. -/
def ReadsFor (x : String) (c : Command) : Prop := ∃ a query, c = .getDirectMessages a query ∧ a ≠ x

open Classical in
/-- What a step answers, unless it lists messages to another account than `x`. -/
noncomputable def answer (env : BackendEnv) (x : String) (s : Backend) : Moment × BackendEvent → List Response
  | (m, .request ep request) =>
    if ∃ c, Commands env m ep request c ∧ ReadsFor x c then []
    else ((s.respond env m ep request).map Prod.fst).toList
  | _ => []

/-- What the sockets of `x` have received. -/
def emittedTo (x : String) (s : Backend) : List Emission := s.emitted.filter fun e => e.socket.sub = x

/-- The backend with other messages, and with something else emitted. -/
def veil (s : Backend) (M : List DirectMessage) (E : List Emission) : Backend :=
  { s.withDb { s.server.db with directMessages := M } with emitted := E }

/-- What `x` cannot tell apart. -/
def Indistinct (x : String) (s t : Backend) : Prop :=
  ∃ M E, t = s.veil M E ∧ List.Forall₂ (DirectMessage.Veiled x) s.server.db.directMessages M ∧
    E.filter (fun e => e.socket.sub = x) = s.emittedTo x

section Veil

variable {env : BackendEnv} {m : Moment} {s : Backend} {M : List DirectMessage} {E : List Emission}

/-! ## What the contents do not matter to -/

theorem registerTx_veil (renv : RegisterEnv) (db : Database) (data : RegisterDto) :
    AuthService.registerTx renv { db with directMessages := M } data =
      (AuthService.registerTx renv db data).map fun r => (r.1, { r.2 with directMessages := M }) := by
  unfold AuthService.registerTx
  dsimp only
  split
  · rfl
  · split
    · split <;> rfl
    · cases renv.hash data.password AuthService.saltRounds with
      | error e => rfl
      | ok password =>
        dsimp only [bind, Except.bind]
        split
        · rfl
        · split
          · rfl
          · split
            · rfl
            · generalize db.accounts.create _ = created
              cases created <;> rfl

theorem verify_veil (now : DateTime) (db : Database) (a : String) :
    AuthService.verify now { db with directMessages := M } a =
      (AuthService.verify now db a).map fun db => { db with directMessages := M } := by
  unfold AuthService.verify
  dsimp only
  split
  · rfl
  · split
    · rfl
    · generalize db.accounts.updateStatus a .ACTIVE now = updated
      cases updated <;> rfl

theorem call_veil (now pick : Nat) (e : AuthEvent) (uuid : String) :
    (s.veil M E).call env now e pick uuid = (s.call env now e pick uuid).map fun r => (r.1, r.2.veil M E) := by
  unfold call
  show ((AuthState.idle now s.server.db.sessions s.server.ids).alone (env.server.auth s.server.db.accounts) e pick
    uuid).bind _ = _
  cases (AuthState.idle now s.server.db.sessions s.server.ids).alone (env.server.auth s.server.db.accounts) e pick
    uuid with
  | none => rfl
  | some t =>
    simp only [Option.bind_some, Option.map_map]
    rfl

/-- **The contents of the messages do not matter to a command that does not list them.** -/
theorem execute_veil (c : Command) (hc : ∀ a query, c ≠ .getDirectMessages a query) :
    (s.veil M E).execute env m c = (s.execute env m c).map fun r => (r.1, r.2.veil M E) := by
  cases c with
  | register data =>
    have h := registerTx_veil (M := M) (m.registration env) s.server.db data
    simp only [execute, mailed, AuthService.register, veil, withDb] at h ⊢
    rw [h]
    cases AuthService.registerTx (m.registration env) s.server.db data <;> rfl
  | verify a =>
    have h : AuthService.verify m.rt.now (s.veil M E).server.db a =
        (AuthService.verify m.rt.now s.server.db a).map fun db => { db with directMessages := M } := verify_veil ..
    simp only [execute, h]
    cases AuthService.verify m.rt.now s.server.db a <;> rfl
  | login data => exact call_veil ..
  | refresh data a => exact call_veil ..
  | logout a => exact call_veil ..
  | getMe a => rfl
  | getFriends a => rfl
  | getPendingFriendRequest a => rfl
  | getBlockedUsers a => rfl
  | getUserProfile a => rfl
  | relationship c =>
    show some (transact _ _ (c.exec s.server.db.accounts s.server.db.relationships)) = _
    simp only [execute]
    cases c.exec s.server.db.accounts s.server.db.relationships <;> rfl
  | getDirectMessages a query => exact absurd rfl (hc a query)
  | unpinDirectMessage a t =>
    show some (transact _ _ ((UserSettingsService.unpinDirectMessage s.server.db a t).run s.server.db.settings)) = _
    simp only [execute]
    cases (UserSettingsService.unpinDirectMessage s.server.db a t).run s.server.db.settings <;> rfl

theorem attempt_veil (c : Command) (hc : ∀ a query, c ≠ .getDirectMessages a query) :
    (s.veil M E).attempt env m c = (s.attempt env m c).map fun r => (r.1, r.2.veil M E) := by
  have hqueried : (s.veil M E).queried c = s.queried c := rfl
  unfold attempt
  rw [hqueried, execute_veil c hc]
  split <;> rfl

theorem handleConnection_veil (client : SocketWithAuth) : (s.veil M E).handleConnection env m client =
    (s.handleConnection env m client).map fun t => t.veil M E := by
  unfold handleConnection Server.handleConnection Server.call
  show (((AuthState.alone _ (AuthState.idle 0 s.server.db.sessions s.server.ids) _ _ _).map _).map _).map _ = _
  simp only [Option.map_map]
  rfl

theorem handleDisconnect_veil (client : SocketWithAuth) : (s.veil M E).handleDisconnect env m client =
    (s.handleDisconnect env m client).map fun t => t.veil M E := by
  unfold handleDisconnect Server.handleDisconnect Server.call
  show (((AuthState.alone _ (AuthState.idle 0 s.server.db.sessions s.server.ids) _ _ _).map _).map _).map _ = _
  simp only [Option.map_map]
  rfl

/-- A join, with what it emits. -/
theorem join_veil (platform : Platform) (rt : Runtime) (client : SocketWithAuth) (targetId : Option Json) :
    ∃ F, (s.withChat (s.chat.serve platform rt client (.join targetId))).emitted = s.emitted ++ F ∧
      (s.veil M E).withChat ((s.veil M E).chat.serve platform rt client (.join targetId)) =
        (s.withChat (s.chat.serve platform rt client (.join targetId))).veil M (E ++ F) := by
  simp only [Chat.serve, handleJoinDirectMessageRoom]
  have hpin : UserSettingsService.pinDirectMessage platform (s.veil M E).chat.db client.sub targetId =
      UserSettingsService.pinDirectMessage platform s.chat.db client.sub targetId := rfl
  have hsettings : (s.veil M E).chat.db.settings = s.chat.db.settings := rfl
  rw [hpin, hsettings]
  cases (UserSettingsService.pinDirectMessage platform s.chat.db client.sub targetId).run s.chat.db.settings with
  | error e => exact ⟨[], by simp [withChat, chat], by simp [withChat, withDb, chat, veil]⟩
  | ok r => exact ⟨_, rfl, rfl⟩

/-- A message that is stored, with what is emitted. -/
theorem send_ok {rt : Runtime} {client : SocketWithAuth} {data : List (String × Json)} {n : DirectMessage}
    {db : Database} (platform : Platform)
    (h : DirectMessageService.createDirectMessage rt s.server.db (sendData client data) = .ok (n, db)) :
    s.withChat (s.chat.serve platform rt client (.send data)) = s.veil (s.server.db.directMessages ++ [n])
      (s.emitted ++ (s.rooms.members (roomOf platform client.sub ((Obj.spread data).get "targetId"))).map
        (⟨·, .receiveDirectMessage n⟩)) := by
  obtain ⟨-, -, -, -, rfl⟩ := createDirectMessage_ok.mp h
  have hdb : s.chat.db = s.server.db := rfl
  simp only [Chat.serve, handleSendDirectMessage, hdb, h]
  rfl

/-- A message that is not stored. -/
theorem send_error {rt : Runtime} {client : SocketWithAuth} {data : List (String × Json)} {x : Exception}
    (platform : Platform)
    (h : DirectMessageService.createDirectMessage rt s.server.db (sendData client data) = .error x) :
    s.withChat (s.chat.serve platform rt client (.send data)) = s.veil s.server.db.directMessages
      (s.emitted ++ [⟨client, .receiveFailedDirectMessage (Obj.spread data ++
        [("senderId", some (.str client.sub)), ("createdAt", some (.str (platform.toISOString rt.now)))])⟩]) := by
  have hdb : s.chat.db = s.server.db := rfl
  simp only [Chat.serve, handleSendDirectMessage, hdb, h]
  rfl

/-- What `x` lists does not show the contents of others. -/
theorem list_veil {x : String} (hM : List.Forall₂ (DirectMessage.Veiled x) s.server.db.directMessages M)
    (order : List DirectMessage → List DirectMessage) (query : QueryFields) :
    DirectMessageController.getDirectMessages order (s.veil M E).server.db x query =
      DirectMessageController.getDirectMessages order s.server.db x query := by
  unfold DirectMessageController.getDirectMessages
  cases GetDirectMessagesQuery.validate query with
  | error e => rfl
  | ok data =>
    show (if x ≠ data.senderId then _ else _) = if x ≠ data.senderId then _ else _
    split
    · rfl
    · rename_i hx
      rw [not_not] at hx
      have hbetween : messagesBetween (s.veil M E).server.db data.senderId data.targetId =
          messagesBetween s.server.db data.senderId data.targetId := by
        refine veiled_filter hM (fun n hn hhidden => ?_) fun n content => rfl
        simp only [exchanged, Bool.or_eq_true, Bool.and_eq_true, decide_eq_true_eq] at hn
        rcases hn with ⟨h, -⟩ | ⟨-, h⟩
        · exact hhidden.1 (h.trans hx.symm)
        · exact hhidden.2 (h.trans hx.symm)
      rw [DirectMessageService.getDirectMessages, hbetween]
      rfl

/-! ## Who is in the room of others -/

theorem roomOf_cases (platform : Platform) (a : String) (t : Option Json) :
    (roomOf platform a t).length = a.length + 1 ∨ ∃ w, roomOf platform a t = roomOf platform a (some (.str w)) := by
  have hleft : (JsString.join "-" [a, ""]).length = a.length + 1 := by
    rw [JsString.join_pair, String.length_append, String.length_append]
    rfl
  have hright : (JsString.join "-" ["", a]).length = a.length + 1 := by
    rw [JsString.join_pair, String.length_append, String.length_append, Nat.add_comm]
    rfl
  match t with
  | none => exact Or.inl hleft
  | some .null =>
    refine Or.inl ?_
    simp only [roomOf]
    split
    · exact hleft
    · exact hright
  | some (.bool b) => exact Or.inr ⟨platform.toString (.bool b), by rw [roomOf_string]; rfl⟩
  | some (.num n) => exact Or.inr ⟨platform.toString (.num n), by rw [roomOf_string]; rfl⟩
  | some (.str u) => exact Or.inr ⟨u, rfl⟩
  | some (.arr u) => exact Or.inr ⟨platform.toString (.arr u), by rw [roomOf_string]; rfl⟩
  | some (.obj u) => exact Or.inr ⟨platform.toString (.obj u), by rw [roomOf_string]; rfl⟩

/-- Rooms are named after a socket, or after an account and what it has joined. -/
def RoomsNamed (env : BackendEnv) (s : Backend) : Prop :=
  ∀ e ∈ s.rooms, e.1.length = 20 ∨ e.1.length = 37 ∨ ∃ w, e.1 = roomOf env.platform e.2.sub (some (.str w))

theorem step_named {s' : Backend} {l : Moment × BackendEvent} (h : RoomsNamed env s) (hkept : Kept env s)
    (hsized : Sized l) (hstep : s.step env l = some s') : RoomsNamed env s' := by
  cases step_change hstep with
  | @connects m id handshake user server hid htoken hserver =>
    intro e he
    rcases List.mem_insert_iff.mp he with rfl | he
    · exact Or.inl (hsized.2 id handshake rfl)
    · exact h e he
  | disconnects hclient hserver => exact fun e he => h e (List.mem_of_mem_filter he)
  | @serves m client r hclient =>
    intro e he
    cases r with
    | join targetId =>
      have he : e ∈ joinRoom env.platform client targetId s.rooms := by
        simp only [Chat.serve, handleJoinDirectMessageRoom, withChat] at he
        split at he <;> exact he
      rcases mem_joinRoom he with ⟨rfl, -⟩ | he
      · rcases roomOf_cases env.platform client.sub targetId with hlen | hroom
        · exact Or.inr (Or.inl (by rw [hlen, hkept.length_sub hclient]))
        · exact Or.inr (Or.inr hroom)
      · exact h e he
    | leave targetId => exact h e (mem_leaveRoom he)
    | send data =>
      simp only [Chat.serve, handleSendDirectMessage, withChat] at he
      split at he <;> exact h e he
  | _ => exact h

/-- **In the room of two accounts are sockets of the two only.** -/
theorem members_sub (hnamed : RoomsNamed env s) {a t : String} (ha : a.length = 36) (ht : t.length = 36)
    {c : SocketWithAuth} (hsub : c.sub.length = 36)
    (hc : c ∈ s.rooms.members (roomOf env.platform a (some (.str t)))) : c.sub = a ∨ c.sub = t := by
  rcases hnamed _ (mem_members.mp hc) with hlen | hlen | ⟨w, hroom⟩
  · rw [length_roomOf] at hlen
    omega
  · rw [length_roomOf] at hlen
    omega
  · rcases Sym2.eq_iff.mp ((roomOf_inj ha ht hsub).mp hroom.symm) with ⟨h, -⟩ | ⟨h, -⟩
    · exact Or.inl h
    · exact Or.inr h

end Veil

/-! ## Steps of both runs -/

section Step

variable {env : BackendEnv} {x : String} {m : Moment} {s s' : Backend} {M : List DirectMessage} {E : List Emission}

/-- What is emitted to others in the one run, and in the other. -/
theorem emitted_append {E E' F F' : List Emission}
    (h : E.filter (fun e => e.socket.sub = x) = E'.filter fun e => e.socket.sub = x)
    (hF : F.filter (fun e => e.socket.sub = x) = F'.filter fun e => e.socket.sub = x) :
    (E ++ F).filter (fun e => e.socket.sub = x) = (E' ++ F').filter fun e => e.socket.sub = x := by
  rw [List.filter_append, List.filter_append, h, hF]

/-- A request of a controller. -/
theorem request_veil {ep : Endpoint} {request : Request} {r : Response × Backend}
    (hM : List.Forall₂ (DirectMessage.Veiled x) s.server.db.directMessages M)
    (h : s.respond env m ep request = some r) :
    ∃ r', (s.veil M E).respond env m ep request = some (r', r.2.veil M E) ∧
      (r' = r.1 ∨ ∃ c, Commands env m ep request c ∧ ReadsFor x c) ∧
      List.Forall₂ (DirectMessage.Veiled x) r.2.server.db.directMessages M ∧ r.2.emitted = s.emitted := by
  unfold respond at h ⊢
  cases hcommand : ep.command env.toTokenEnv m.checks m.seconds request with
  | error failure =>
    rw [hcommand] at h
    cases h
    exact ⟨_, rfl, Or.inl rfl, hM, rfl⟩
  | ok c =>
    rw [hcommand] at h
    obtain ⟨r₀, hr₀, rfl⟩ := Option.map_eq_some_iff.mp h
    have hframe : r₀.2.server.db.directMessages = s.server.db.directMessages ∧ r₀.2.emitted = s.emitted := by
      rcases attempt_cases hr₀ with ⟨-, hexec⟩ | ⟨-, rfl⟩
      · obtain ⟨hstored, -, hemitted⟩ := request_frame (execute_change hcommand hexec)
        exact ⟨hstored, hemitted⟩
      · exact ⟨rfl, rfl⟩
    obtain ⟨hstored, hemitted⟩ := hframe
    by_cases hread : ∃ a query, c = .getDirectMessages a query
    · obtain ⟨a, query, rfl⟩ := hread
      have hplain : s.attempt env m (.getDirectMessages a query) = s.execute env m (.getDirectMessages a query) :=
        attempt_of_nil rfl
      have hveil : (s.veil M E).attempt env m (.getDirectMessages a query) =
          (s.veil M E).execute env m (.getDirectMessages a query) := attempt_of_nil rfl
      rw [hplain] at hr₀
      simp only [hveil]
      cases hr₀
      refine ⟨_, rfl, ?_, hM, rfl⟩
      by_cases ha : a = x
      · subst ha
        exact Or.inl (by rw [list_veil hM])
      · exact Or.inr ⟨_, hcommand, a, query, rfl, ha⟩
    · have hno : ∀ a query, c ≠ .getDirectMessages a query := fun a query heq => hread ⟨a, query, heq⟩
      refine ⟨_, by simp only [attempt_veil c hno, hr₀]; rfl, Or.inl rfl, ?_, hemitted⟩
      rw [hstored]
      exact hM

/-- The same event in both runs. -/
theorem step_same {l : Moment × BackendEvent}
    (hM : List.Forall₂ (DirectMessage.Veiled x) s.server.db.directMessages M)
    (hE : E.filter (fun e => e.socket.sub = x) = s.emittedTo x) (hstep : s.step env l = some s') :
    ∃ t', (s.veil M E).step env l = some t' ∧ Indistinct x s' t' ∧
      answer env x (s.veil M E) l = answer env x s l := by
  obtain ⟨m, event⟩ := l
  have hids := veiled_ids hM
  have hsockets : (s.veil M E).server.sockets = s.server.sockets := rfl
  cases event with
  | request ep request =>
    obtain ⟨r, hr, rfl⟩ := Option.map_eq_some_iff.mp hstep
    obtain ⟨r', hr', hanswer, hM', hemitted⟩ := request_veil hM hr
    refine ⟨_, by rw [step, hr']; rfl, ⟨M, E, rfl, hM', ?_⟩, ?_⟩
    · rw [emittedTo, hemitted]
      exact hE
    · simp only [answer]
      rcases hanswer with rfl | hread
      · rw [hr', hr]
        rfl
      · rw [if_pos hread, if_pos hread]
  | connects id handshake =>
    simp only [step, hsockets] at hstep ⊢
    split at hstep
    · cases hstep
    · rename_i hid
      rw [if_neg hid]
      split at hstep
      · cases hstep
        exact ⟨_, rfl, ⟨M, E, rfl, hM, hE⟩, rfl⟩
      · rw [handleConnection_veil, hstep]
        obtain ⟨server, hserver, rfl⟩ := Option.map_eq_some_iff.mp hstep
        obtain ⟨t, -, rfl⟩ := handleConnection_some hserver
        exact ⟨_, rfl, ⟨M, E, rfl, hM, hE⟩, rfl⟩
  | disconnects client =>
    simp only [step, hsockets] at hstep ⊢
    split at hstep
    · rename_i hclient
      rw [if_pos hclient, handleDisconnect_veil, hstep]
      obtain ⟨server, hserver, rfl⟩ := Option.map_eq_some_iff.mp hstep
      obtain ⟨t, -, rfl⟩ := handleDisconnect_some hserver
      exact ⟨_, rfl, ⟨M, E, rfl, hM, hE⟩, rfl⟩
    · cases hstep
  | socket client r =>
    simp only [step, hsockets] at hstep ⊢
    split at hstep
    · rename_i hclient
      cases hstep
      rw [if_pos hclient]
      refine ⟨_, rfl, ?_, rfl⟩
      cases r with
      | join targetId =>
        obtain ⟨F, hemitted, hveil⟩ := join_veil (s := s) (M := M) (E := E) env.platform m.rt client targetId
        rw [hveil]
        refine ⟨M, E ++ F, rfl, ?_, ?_⟩
        · have hsame : (s.withChat (s.chat.serve env.platform m.rt client (.join targetId))).server.db.directMessages =
              s.server.db.directMessages := by
            simp only [Chat.serve, handleJoinDirectMessageRoom]
            split <;> rfl
          rw [hsame]
          exact hM
        · rw [emittedTo, hemitted]
          exact emitted_append hE rfl
      | leave targetId => exact ⟨M, E, rfl, hM, hE⟩
      | send data =>
        cases hm : DirectMessageService.createDirectMessage m.rt s.server.db (sendData client data) with
        | ok r =>
          obtain ⟨n, db⟩ := r
          have hm' : DirectMessageService.createDirectMessage m.rt (s.veil M E).server.db (sendData client data) =
            .ok (n, { s.server.db with directMessages := M ++ [n] }) := createDirectMessage_ids hids hm
          rw [send_ok env.platform hm, send_ok env.platform hm']
          exact ⟨M ++ [n], _, rfl, List.rel_append hM (.cons (Or.inl rfl) .nil), emitted_append hE rfl⟩
        | error e =>
          cases hm' : DirectMessageService.createDirectMessage m.rt (s.veil M E).server.db (sendData client data) with
          | ok r =>
            have hback := createDirectMessage_ids hids.symm hm'
            exact absurd (hm.symm.trans hback) (by simp)
          | error e' =>
            rw [send_error env.platform hm, send_error env.platform hm']
            exact ⟨M, _, rfl, hM, emitted_append hE rfl⟩
    · cases hstep

/-- Nobody of `x` hears of it. -/
theorem emitted_other {E' F F' : List Emission}
    (h : E.filter (fun e => e.socket.sub = x) = E'.filter fun e => e.socket.sub = x)
    (hF : ∀ e ∈ F, e.socket.sub ≠ x) (hF' : ∀ e ∈ F', e.socket.sub ≠ x) :
    (E ++ F).filter (fun e => e.socket.sub = x) = (E' ++ F').filter fun e => e.socket.sub = x := by
  refine emitted_append h ?_
  rw [List.filter_eq_nil_iff.mpr fun e he => by simpa using hF e he,
    List.filter_eq_nil_iff.mpr fun e he => by simpa using hF' e he]

/-- Another content in a message of others. -/
theorem step_writes {client : SocketWithAuth} {data data' : List (String × Json)} {u v : String}
    (hkept : Kept env s) (hnamed : RoomsNamed env s)
    (hM : List.Forall₂ (DirectMessage.Veiled x) s.server.db.directMessages M)
    (hE : E.filter (fun e => e.socket.sub = x) = s.emittedTo x) (hclient : client.sub ≠ x)
    (hsender : (Obj.spread data).get "senderId" ≠ some (.str x))
    (htarget : (Obj.spread data).get "targetId" ≠ some (.str x)) (hsame : SameBut "content" data data')
    (hcontent : (Obj.spread data).get "content" = some (.str u))
    (hcontent' : (Obj.spread data').get "content" = some (.str v)) (hstorable : Storable u ↔ Storable v)
    (hstep : s.step env (m, .socket client (.send data)) = some s') :
    ∃ t', (s.veil M E).step env (m, .socket client (.send data')) = some t' ∧ Indistinct x s' t' := by
  have hids := veiled_ids hM
  have hsockets : (s.veil M E).server.sockets = s.server.sockets := rfl
  simp only [step, hsockets] at hstep ⊢
  split at hstep
  · rename_i hconnected
    cases hstep
    rw [if_pos hconnected]
    refine ⟨_, rfl, ?_⟩
    cases hm : DirectMessageService.createDirectMessage m.rt s.server.db (sendData client data) with
    | ok r =>
      obtain ⟨n, db⟩ := r
      have hm' : DirectMessageService.createDirectMessage m.rt (s.veil M E).server.db (sendData client data') =
          .ok ({ n with content := v }, { s.server.db with directMessages := M ++ [{ n with content := v }] }) :=
        createDirectMessage_sameBut hids hsame hcontent hcontent' hstorable hm
      have hn := (stored_message hm).2.1
      have hhidden : n.Hidden x := by
        constructor
        · intro heq
          have hs := (stored_message hm).1
          rw [heq] at hs
          cases hget : (Obj.spread data).get "senderId" with
          | none =>
            rw [hget] at hs
            exact hclient (by simpa using hs)
          | some w =>
            rw [hget] at hs
            exact hsender (hget.trans (by simpa using hs))
        · intro heq
          rw [heq] at hn
          exact htarget hn
      have hmembers : ∀ c ∈ s.rooms.members (roomOf env.platform client.sub (some (.str n.targetId))), c.sub ≠ x := by
        intro c hc
        obtain ⟨-, hactive, -⟩ := createDirectMessage_ok.mp hm
        have hsub := hkept.length_sub (hkept.intact.sockets.rooms _ (mem_members.mp hc))
        rcases members_sub hnamed (hkept.length_sub hconnected) (hkept.lengths _ hactive.registered) hsub hc with h | h
        · rw [h]
          exact hclient
        · rw [h]
          exact hhidden.2
      have hemits : ∀ n', ∀ e ∈ (s.rooms.members (roomOf env.platform client.sub (some (.str n.targetId)))).map
          fun c => (⟨c, .receiveDirectMessage n'⟩ : Emission), e.socket.sub ≠ x := by
        intro n' e he
        obtain ⟨c, hc, rfl⟩ := List.mem_map.mp he
        exact hmembers c hc
      rw [send_ok env.platform hm, send_ok env.platform hm', hsame.get (by decide), hn]
      refine ⟨M ++ [{ n with content := v }], _, rfl, List.rel_append hM (.cons (Or.inr ⟨hhidden, rfl⟩) .nil), ?_⟩
      exact emitted_other hE (hemits _) (hemits _)
    | error e =>
      have hfailed : ∀ message, ∀ e ∈ [(⟨client, .receiveFailedDirectMessage message⟩ : Emission)],
          e.socket.sub ≠ x := by
        intro message e he
        rw [List.mem_singleton.mp he]
        exact hclient
      cases hm' : DirectMessageService.createDirectMessage m.rt (s.veil M E).server.db (sendData client data') with
      | ok r =>
        have hback := createDirectMessage_sameBut hids.symm hsame.symm hcontent' hcontent hstorable.symm hm'
        exact absurd (hm.symm.trans hback) (by simp)
      | error e' =>
        rw [send_error env.platform hm, send_error env.platform hm']
        exact ⟨M, _, rfl, hM, emitted_other hE (hfailed _) (hfailed _)⟩
  · cases hstep

/-- **A step of the one run is a step of the other.** -/
theorem unwinds_step (env : BackendEnv) (x : String) :
    Unwinds (step env) (fun s l => Sized l ∧ s.Unforged env l) (Alike x) (answer env x)
      fun s t => (Kept env s ∧ RoomsNamed env s) ∧ Indistinct x s t := by
  intro s t l l' s' hR hC hl hstep
  obtain ⟨⟨hkept, hnamed⟩, M, E, rfl, hM, hE⟩ := hR
  have hnext : Kept env s' ∧ RoomsNamed env s' := ⟨step_kept s l s' hkept hC hstep, step_named hnamed hkept hC.1 hstep⟩
  cases hl with
  | same =>
    obtain ⟨t', ht', hR, hanswer⟩ := step_same hM hE hstep
    exact ⟨t', ht', ⟨hnext, hR⟩, hanswer⟩
  | writes m client hclient hsender htarget hsame hcontent hcontent' hstorable =>
    obtain ⟨t', ht', hR⟩ := step_writes hkept hnamed hM hE hclient hsender htarget hsame hcontent hcontent'
      hstorable hstep
    exact ⟨t', ht', ⟨hnext, hR⟩, rfl⟩

end Step

/-- **What others write stays between them.** In every run in which no token is forged and ids have their lengths,
replace contents of messages that other accounts' sockets send to others than `x`, not in the name of `x`, by other
strings that the database takes exactly when it takes the old ones: the events still make a run, every request gets the
same answer but those that list messages to another account, and the sockets of `x` receive the same. -/
theorem secret_exact (env : BackendEnv) (x : String) (events events' : List (Moment × BackendEvent)) (s : Backend)
    (hunforged : Along (step env) (Unforged env) start events) (hsized : ∀ l ∈ events, Sized l)
    (hrun : run (step env) start events = some s) (halike : List.Forall₂ (Alike x) events events') :
    ∃ s', run (step env) start events' = some s' ∧ s'.emittedTo x = s.emittedTo x ∧
      outputs (step env) (answer env x) start events' = outputs (step env) (answer env x) start events := by
  have hstart : (Kept env start ∧ RoomsNamed env start) ∧ Indistinct x start start :=
    ⟨⟨kept_start env, fun e he => absurd he List.not_mem_nil⟩, [], [], rfl, .nil, rfl⟩
  obtain ⟨s', hs', ⟨-, M, E, rfl, -, hE⟩, hout⟩ := (unwinds_step env x).run halike hstart
    ((along_of_mem start hsized).and hunforged) hrun
  exact ⟨_, hs', hE, hout⟩

/-- alice's note with another text. -/
def aliceWritesOther : Moment × BackendEvent :=
  (aliceWrites.1, .socket aliceSocket
    (.send [("targetId", .str aliceId), ("content", .str "another note"), ("type", .str "TEXT")]))

/-- The token of this type for bob. -/
def bobToken (type : EJwtType) : String := Minted.token sampleEnv.toTokenEnv ⟨0, type, bobId⟩

def bobSocket : SocketWithAuth := ⟨"socket-0000000000002", bobId⟩

/-- bob registers, verifies his account, logs in and connects. -/
def bobComes : List (Moment × BackendEvent) :=
  [bobRegisters,
    (sampleMoment bobId, .request .verify { body := .obj [("verifyToken", .str (bobToken .VERIFY))] }),
    (sampleMoment "00000000-0000-4000-8000-0000000005e6", .request .login
      { body := .obj [("email", .str "bob@mail.test"), ("password", .str "bob")] }),
    (sampleMoment bobId, .connects bobSocket.id { authToken := some (.str (bobToken .ACCESS)) })]

theorem bobComes_unforged : Along (step sampleEnv) (Unforged sampleEnv) withSocket (bobComes ++ [aliceWrites]) := by
  refine along_cons rfl (unforged_of_nothing rfl) (along_cons rfl ?_ (along_cons rfl (unforged_of_nothing rfl)
    (along_cons rfl (unforged_of_minted fun token htoken => Or.inr ?_)
    (along_cons rfl (unforged_of_minted fun token htoken => ?_) trivial))))
  · exact unforged_of_verify (k := ⟨0, .VERIFY, bobId⟩) rfl List.mem_cons_self
  · exact ⟨⟨0, .ACCESS, bobId⟩, List.mem_cons_self, List.mem_singleton.mp htoken⟩
  · cases htoken

/-- bob, who is connected, does not tell alice's notes apart. -/
theorem secret_exact_sample : ∃ s s',
    run (step sampleEnv) start ((aliceComes ++ [aliceConnects, aliceJoins]) ++ (bobComes ++ [aliceWrites])) = some s ∧
    run (step sampleEnv) start ((aliceComes ++ [aliceConnects, aliceJoins]) ++ (bobComes ++ [aliceWritesOther])) =
      some s' ∧
    bobSocket ∈ s.server.sockets ∧ s'.emittedTo bobId = s.emittedTo bobId := by
  have halike : List.Forall₂ (Alike bobId)
      ((aliceComes ++ [aliceConnects, aliceJoins]) ++ (bobComes ++ [aliceWrites]))
      ((aliceComes ++ [aliceConnects, aliceJoins]) ++ (bobComes ++ [aliceWritesOther])) :=
    List.rel_append (List.forall₂_same.mpr fun l _ => .same l)
      (List.rel_append (List.forall₂_same.mpr fun l _ => .same l)
        (.cons (.writes (u := "a note") (v := "another note") _ aliceSocket (by decide)
          (by simp [Obj.spread, Obj.get, Obj.last])
          (by simp [Obj.spread, Obj.get, Obj.last, aliceId, bobId]) rfl rfl rfl
          (iff_of_true (by decide) (by decide))) .nil))
  have hunforged : Along (step sampleEnv) (Unforged sampleEnv) start
      ((aliceComes ++ [aliceConnects, aliceJoins]) ++ (bobComes ++ [aliceWrites])) := by
    refine along_append.mpr ⟨(along_append.mp aliceWrites_unforged).1, fun t ht => ?_⟩
    cases withSocket_run.symm.trans ht
    exact bobComes_unforged
  have hsized : ∀ l ∈ (aliceComes ++ [aliceConnects, aliceJoins]) ++ (bobComes ++ [aliceWrites]), Sized l := by
    intro l hl
    rcases List.mem_append.mp hl with hl | hl
    · exact aliceWrites_sized l (List.mem_append_left _ hl)
    · simp only [bobComes, List.cons_append, List.nil_append, List.mem_cons, List.not_mem_nil, or_false] at hl
      rcases hl with rfl | rfl | rfl | rfl | rfl
      all_goals
        refine ⟨by decide, fun id handshake h => ?_⟩
        cases h
      decide
  have hrun : run (step sampleEnv) withSocket (bobComes ++ [aliceWrites]) = some _ := rfl
  obtain ⟨s', hs', hemitted, -⟩ := secret_exact sampleEnv bobId _ _ _ hunforged hsized
    (run_append.mpr ⟨withSocket, withSocket_run, hrun⟩) halike
  exact ⟨_, s', run_append.mpr ⟨withSocket, withSocket_run, hrun⟩, hs', List.mem_append_right _ List.mem_cons_self,
    hemitted⟩

end Backend

end DiscordClone
