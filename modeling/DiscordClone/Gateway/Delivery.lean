import DiscordClone.Gateway.Authorship

/-!
# Who receives a message

A run of the gateway is a list of requests of its sockets, each handled to its end. Ids of accounts are strings of
length 36 and ids of sockets are strings of length 20.

- `roomOf_inj`: the room of a conversation of two accounts tells which two accounts they are, even among rooms that were
  joined with arbitrary strings.
- `Tracks`: the rooms of length-36 targets hold exactly the sockets that have joined them and not left since
  (`tracks_handle`, `tracks_run`).
- `delivery_exact`: a message is stored and delivered to exactly the sockets that are in the conversation, or nothing is
  stored and the sender alone is told.
-/

namespace DiscordClone

open ChatGateway
open Json (Obj)

/-- A request of a socket. -/
inductive ChatRequest where
  | join (client : SocketWithAuth) (targetId : String)
  | leave (client : SocketWithAuth) (targetId : String)
  | send (rt : Runtime) (client : SocketWithAuth) (data : List (String × Json))

namespace ChatRequest

def client : ChatRequest → SocketWithAuth
  | .join c _ | .leave c _ | .send _ c _ => c

/-- Whether `c` has joined `w`, after a request. -/
def joined (c : SocketWithAuth) (w : String) (before : Bool) : ChatRequest → Bool
  | .join c' w' => if c' = c ∧ w' = w then true else before
  | .leave c' w' => if c' = c ∧ w' = w then false else before
  | .send .. => before

end ChatRequest

/-- Whether `c` has joined `w` and not left it since. -/
def hasJoined (requests : List ChatRequest) (c : SocketWithAuth) (w : String) : Bool :=
  requests.foldl (ChatRequest.joined c w) false

/-- The server after a request. -/
def Chat.handle (platform : Platform) (s : Chat) : ChatRequest → Chat
  | .join c w => handleJoinDirectMessageRoom platform s c (some (.str w))
  | .leave c w => handleLeaveDirectMessageRoom platform s c (some (.str w))
  | .send rt c data => handleSendDirectMessage platform rt s c data

/-! ## Names of rooms -/

section Names

variable {platform : Platform} {a t u w : String}

theorem roomOf_string (platform : Platform) (a t : String) :
    roomOf platform a (some (.str t)) = JsString.join "-" (JsString.sort [a, t]) := by
  rw [roomOf, platform.toString_string]
  intro h
  cases h

theorem length_roomOf : (roomOf platform a (some (.str t))).length = a.length + 1 + t.length := by
  rw [roomOf_string, JsString.length_join_sort]
  rfl

/-- **Rooms do not collide.** -/
theorem roomOf_inj (ha : a.length = 36) (ht : t.length = 36) (hu : u.length = 36) :
    roomOf platform u (some (.str w)) = roomOf platform a (some (.str t)) ↔ s(u, w) = s(a, t) := by
  constructor
  · intro h
    have hlen := congrArg String.length h
    rw [length_roomOf, length_roomOf] at hlen
    rw [roomOf_string, roomOf_string] at h
    exact JsString.join_sort_inj hu (by omega) ha ht h
  · intro h
    rw [roomOf_string, roomOf_string, JsString.join_sort_congr h]

/-- A socket's rooms of account ids are as many as the ids. -/
theorem roomOf_inj_right (ha : a.length = 36) (ht : t.length = 36) :
    roomOf platform a (some (.str w)) = roomOf platform a (some (.str t)) ↔ w = t := by
  rw [roomOf_inj ha ht ha, Sym2.congr_right]

end Names

/-! ## Rooms and requests -/

/-- The rooms follow what the sockets have asked for, as far as targets of length 36 go; `joined` says who has joined
what. -/
structure Tracks (platform : Platform) (joined : SocketWithAuth → String → Bool) (rooms : Rooms) : Prop where
  nodup : rooms.Nodup
  exact : ∀ c w, c.sub.length = 36 → w.length = 36 →
    ((roomOf platform c.sub (some (.str w)), c) ∈ rooms ↔ joined c w = true)
  named : ∀ r c, (r, c) ∈ rooms →
    r.length = 20 ∨ c.sub.length = 36 ∧ ∃ w, r = roomOf platform c.sub (some (.str w))
  clients : ∀ c w, joined c w = true → c.sub.length = 36

section Requests

variable {platform : Platform} {s : Chat} {joined : SocketWithAuth → String → Bool}

/-- What a request leaves alone. -/
theorem handle_accounts (platform : Platform) (s : Chat) (r : ChatRequest) :
    (s.handle platform r).db.accounts = s.db.accounts := by
  cases r with
  | join c w =>
    simp only [Chat.handle, handleJoinDirectMessageRoom]
    split <;> rfl
  | leave c w => rfl
  | send rt c data =>
    simp only [Chat.handle, handleSendDirectMessage]
    split
    · rename_i m db hm
      obtain ⟨-, -, -, -, rfl⟩ := createDirectMessage_ok.mp hm
      rfl
    · rfl

/-- The rooms after a request: the answer to a join is no matter. -/
theorem handle_rooms (platform : Platform) (s : Chat) (r : ChatRequest) :
    (s.handle platform r).rooms = match r with
      | .join c w => s.rooms.insert (roomOf platform c.sub (some (.str w)), c)
      | .leave c w => s.rooms.filter (· ≠ (roomOf platform c.sub (some (.str w)), c))
      | .send .. => s.rooms := by
  cases r with
  | join c w =>
    simp only [Chat.handle, handleJoinDirectMessageRoom]
    split <;> rfl
  | leave c w => rfl
  | send rt c data =>
    simp only [Chat.handle, handleSendDirectMessage]
    split <;> rfl

/-- **A request keeps the rooms in step.** -/
theorem tracks_handle (h : Tracks platform joined s.rooms) (r : ChatRequest) (hr : r.client.sub.length = 36) :
    Tracks platform (fun c w => r.joined c w (joined c w)) (s.handle platform r).rooms := by
  have hroom : ∀ {c c' : SocketWithAuth} {w w' : String}, c.sub.length = 36 → w.length = 36 →
      ((roomOf platform c.sub (some (.str w)), c) = (roomOf platform c'.sub (some (.str w')), c') ↔
        c' = c ∧ w' = w) := by
    intro c c' w w' hc hw
    rw [Prod.mk.injEq]
    constructor
    · rintro ⟨hroom, rfl⟩
      exact ⟨rfl, (roomOf_inj_right hc hw).mp hroom.symm⟩
    · rintro ⟨rfl, rfl⟩
      exact ⟨rfl, rfl⟩
  rw [handle_rooms]
  cases r with
  | join c' w' =>
    refine ⟨h.nodup.insert, fun c w hc hw => ?_, fun r c hrc => ?_, fun c w hj => ?_⟩
    · rw [List.mem_insert_iff, hroom hc hw, h.exact c w hc hw]
      by_cases heq : c' = c ∧ w' = w <;> simp [ChatRequest.joined, heq]
    · rcases List.mem_insert_iff.mp hrc with heq | hrc
      · cases heq
        exact Or.inr ⟨hr, w', rfl⟩
      · exact h.named r c hrc
    · by_cases heq : c' = c ∧ w' = w
      · rw [← heq.1]
        exact hr
      · simp only [ChatRequest.joined, heq, if_false] at hj
        exact h.clients c w hj
  | leave c' w' =>
    refine ⟨h.nodup.filter _, fun c w hc hw => ?_, fun r c hrc => ?_, fun c w hj => ?_⟩
    · rw [List.mem_filter, decide_eq_true_eq, ne_eq, hroom hc hw, h.exact c w hc hw]
      by_cases heq : c' = c ∧ w' = w <;> simp [ChatRequest.joined, heq]
    · exact h.named r c (List.mem_filter.mp hrc).1
    · by_cases heq : c' = c ∧ w' = w
      · simp [ChatRequest.joined, heq] at hj
      · simp only [ChatRequest.joined, heq, if_false] at hj
        exact h.clients c w hj
  | send rt c' data => exact h

/-- The rooms stay in step over a run. -/
theorem tracks_run : ∀ (requests : List ChatRequest) {s : Chat} {joined : SocketWithAuth → String → Bool},
    Tracks platform joined s.rooms → (∀ r ∈ requests, r.client.sub.length = 36) →
    Tracks platform (fun c w => requests.foldl (ChatRequest.joined c w) (joined c w))
      (requests.foldl (Chat.handle platform) s).rooms
  | [], _, _, h, _ => h
  | r :: requests, s, joined, h, hr => by
    have hnext := tracks_handle h r (hr r List.mem_cons_self)
    exact tracks_run requests hnext fun r' hr' => hr r' (List.mem_cons_of_mem _ hr')

theorem accounts_run : ∀ (requests : List ChatRequest) (s : Chat),
    (requests.foldl (Chat.handle platform) s).db.accounts = s.db.accounts
  | [], _ => rfl
  | r :: requests, s => (accounts_run requests _).trans (handle_accounts platform s r)

/-- Nobody has joined anything yet. -/
theorem tracks_connected {db : Database} {sockets : List SocketWithAuth}
    (hsockets : ∀ c ∈ sockets, c.id.length = 20) :
    Tracks platform (fun _ _ => false) (Chat.connected db sockets).rooms where
  nodup := List.nodup_dedup _
  exact c w hc hw := by
    refine ⟨fun h => ?_, fun h => by cases h⟩
    obtain ⟨c', hc', heq⟩ := List.mem_map.mp (List.mem_dedup.mp h)
    have hlen := congrArg (fun e => e.1.length) heq
    simp only [length_roomOf, hsockets c' hc'] at hlen
    omega
  named r c h := by
    obtain ⟨c', hc', heq⟩ := List.mem_map.mp (List.mem_dedup.mp h)
    cases heq
    exact Or.inl (hsockets c hc')
  clients _ _ h := by cases h

/-- The sockets in the room of two accounts are those that have joined their conversation. -/
theorem Tracks.mem_members (h : Tracks platform joined s.rooms) {a t : String} (ha : a.length = 36)
    (ht : t.length = 36) (c : SocketWithAuth) :
    c ∈ s.rooms.members (roomOf platform a (some (.str t))) ↔ ∃ w, joined c w = true ∧ s(c.sub, w) = s(a, t) := by
  have hmem : c ∈ s.rooms.members (roomOf platform a (some (.str t))) ↔
      (roomOf platform a (some (.str t)), c) ∈ s.rooms := by
    simp [Rooms.members]
  rw [hmem]
  constructor
  · intro hc
    rcases h.named _ _ hc with hlen | ⟨hsub, w, hroom⟩
    · rw [length_roomOf] at hlen
      omega
    · have hlen := congrArg String.length hroom
      rw [length_roomOf, length_roomOf] at hlen
      have hw : w.length = 36 := by omega
      rw [hroom] at hc
      exact ⟨w, (h.exact c w hsub hw).mp hc, (roomOf_inj ha ht hsub).mp hroom.symm⟩
  · rintro ⟨w, hj, heq⟩
    have hsub := h.clients c w hj
    have hw : w.length = 36 := by
      rcases Sym2.eq_iff.mp heq with ⟨-, rfl⟩ | ⟨-, rfl⟩
      · exact ht
      · exact ha
    rw [← (roomOf_inj ha ht hsub).mpr heq]
    exact (h.exact c w hsub hw).mpr hj

theorem Tracks.nodup_members (h : Tracks platform joined s.rooms) (r : String) : (s.rooms.members r).Nodup := by
  refine (h.nodup.filter _).map_on fun e he e' he' heq => ?_
  have h₁ : e.1 = r := by simpa using (List.mem_filter.mp he).2
  have h₂ : e'.1 = r := by simpa using (List.mem_filter.mp he').2
  exact Prod.ext (h₁.trans h₂.symm) heq

end Requests

/-- The parties and the content of a message that is stored; the sender is the one in the data, or else the account of
the socket. -/
theorem stored_message {rt : Runtime} {db db' : Database} {client : SocketWithAuth} {data : List (String × Json)}
    {m : DirectMessage} (h : DirectMessageService.createDirectMessage rt db (sendData client data) = .ok (m, db')) :
    ((Obj.spread data).get "senderId").or (some (.str client.sub)) = some (.str m.senderId) ∧
      (Obj.spread data).get "targetId" = some (.str m.targetId) ∧
      (Obj.spread data).get "content" = some (.str m.content) := by
  obtain ⟨-, -, -, hinsert, -⟩ := createDirectMessage_ok.mp h
  obtain ⟨-, -, hs, ht, hc, -⟩ := DirectMessages.create_ok.mp (DirectMessages.insert_ok.mp hinsert).2
  rw [DirectMessages.stringField_ok, Obj.get_append_ne (by decide), sendData] at hs ht hc
  rw [Obj.get_cons_spread] at hs
  rw [Obj.get_cons_ne (by decide)] at ht hc
  exact ⟨hs, ht, hc⟩

/-- **Live delivery is exact and all-or-nothing.** After any requests, a message from `A` to the string `T` is either
stored, once, and delivered once to each of the sockets that have joined a conversation of `A` and `T` and not left it
since, and to nobody else; or nothing is stored and the sending socket alone is told. -/
theorem delivery_exact (platform : Platform) (db : Database) (sockets : List SocketWithAuth)
    (requests : List ChatRequest) (hids : ∀ e ∈ db.accounts.rows, e.id.length = 36)
    (hsockets : ∀ c ∈ sockets, c.id.length = 20) (hsubs : ∀ r ∈ requests, r.client.sub.length = 36) (rt : Runtime)
    (client : SocketWithAuth) (hclient : client.sub.length = 36) (data : List (String × Json)) (targetId : String)
    (htarget : (Obj.spread data).get "targetId" = some (.str targetId)) :
    let s := requests.foldl (Chat.handle platform) (Chat.connected db sockets)
    let s' := handleSendDirectMessage platform rt s client data
    (∃ (m : DirectMessage) (recipients : List SocketWithAuth),
      (((Obj.spread data).get "senderId").or (some (.str client.sub)) = some (.str m.senderId) ∧ m.targetId = targetId ∧
        (Obj.spread data).get "content" = some (.str m.content)) ∧
      s'.db = { s.db with directMessages := s.db.directMessages ++ [m] } ∧
      s'.emitted = s.emitted ++ recipients.map (⟨·, .receiveDirectMessage m⟩) ∧ recipients.Nodup ∧
      ∀ c, c ∈ recipients ↔ ∃ w, hasJoined requests c w = true ∧ s(c.sub, w) = s(client.sub, targetId)) ∨
    (s'.db = s.db ∧ ∃ message, s'.emitted = s.emitted ++ [⟨client, .receiveFailedDirectMessage message⟩]) := by
  intro s s'
  have htracks : Tracks platform (hasJoined requests) s.rooms := tracks_run requests (tracks_connected hsockets) hsubs
  have hsend : s' = handleSendDirectMessage platform rt s client data := rfl
  unfold handleSendDirectMessage at hsend
  cases hm : DirectMessageService.createDirectMessage rt s.db (sendData client data) with
  | ok r =>
    obtain ⟨m, db'⟩ := r
    rw [hm] at hsend
    obtain ⟨hsender, ht, hcontent⟩ := stored_message hm
    obtain ⟨-, ⟨e, he, hid, -⟩, -, -, rfl⟩ := createDirectMessage_ok.mp hm
    have hmt : m.targetId = targetId := by
      cases htarget.symm.trans ht
      rfl
    have hlen : targetId.length = 36 := by
      rw [← hmt, ← hid]
      have haccounts : s.db.accounts = db.accounts := accounts_run requests _
      exact hids e (haccounts ▸ he)
    refine Or.inl ⟨m, s.rooms.members (roomOf platform client.sub (some (.str targetId))), ⟨hsender, hmt, hcontent⟩, ?_,
      ?_, htracks.nodup_members _, htracks.mem_members hclient hlen⟩
    · rw [hsend]
    · rw [hsend, ← htarget]
  | error e =>
    rw [hm] at hsend
    exact Or.inr ⟨by rw [hsend], _, by rw [hsend]⟩

/-- Two ACTIVE accounts with ids as `uuid()` makes them. -/
def uuidAccounts : Accounts where
  rows := ["00000000-0000-4000-8000-00000000000a", "00000000-0000-4000-8000-00000000000b"].map (sampleAccount · .ACTIVE)
  id_nodup := by decide
  email_nodup := by decide
  username_nodup := by decide

/-- A socket of each account, and one of the second that leaves again. -/
def conversation : List ChatRequest :=
  let a := "00000000-0000-4000-8000-00000000000a"
  let b := "00000000-0000-4000-8000-00000000000b"
  [.join ⟨"socket-0000000000001", a⟩ b, .join ⟨"socket-0000000000002", b⟩ a, .join ⟨"socket-0000000000003", b⟩ a,
    .leave ⟨"socket-0000000000003", b⟩ a, .join ⟨"socket-0000000000003", b⟩ "no account"]

theorem delivery_exact_sample :
    let a := "00000000-0000-4000-8000-00000000000a"
    let b := "00000000-0000-4000-8000-00000000000b"
    let s := conversation.foldl (Chat.handle stringPlatform)
      (Chat.connected ⟨uuidAccounts, fun _ => some (.obj []), [], fun _ => none, []⟩ [])
    let s' := handleSendDirectMessage stringPlatform (runtimeAt "m1" 7) s ⟨"socket-0000000000001", a⟩
      [("targetId", .str b), ("content", .str "hi"), ("type", .str "TEXT")]
    ∃ (m : DirectMessage) (recipients : List SocketWithAuth),
      s'.emitted = s.emitted ++ recipients.map (⟨·, .receiveDirectMessage m⟩) ∧
      ⟨"socket-0000000000002", b⟩ ∈ recipients ∧ ⟨"socket-0000000000003", b⟩ ∉ recipients := by
  intro a b s s'
  rcases delivery_exact stringPlatform ⟨uuidAccounts, fun _ => some (.obj []), [], fun _ => none, []⟩ [] conversation
    (by decide) (by decide) (by decide) (runtimeAt "m1" 7) ⟨"socket-0000000000001", a⟩ (by decide)
    [("targetId", .str b), ("content", .str "hi"), ("type", .str "TEXT")] b rfl with
    ⟨m, recipients, -, -, hemitted, -, hmem⟩ | ⟨hdb, -⟩
  · refine ⟨m, recipients, hemitted, (hmem _).mpr ⟨a, by decide, Sym2.eq_swap⟩, fun h => ?_⟩
    obtain ⟨w, hw, heq⟩ := (hmem _).mp h
    rcases Sym2.eq_iff.mp heq with ⟨hba, -⟩ | ⟨-, rfl⟩
    · exact absurd hba (by decide)
    · exact absurd hw (by decide)
  · have hstored : s'.db.directMessages.length = s.db.directMessages.length + 1 := by decide
    rw [show s'.db = s.db from hdb] at hstored
    omega

end DiscordClone
