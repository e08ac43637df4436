import DiscordClone.Api.Integrity
import DiscordClone.Gateway.Delivery
import DiscordClone.Lib.PubSub

/-!
# The gateway publishes

The gateway is a publisher: the rooms are the topics, who has joined a room subscribes to it, and who sends a message
that is stored publishes it. `pubsub` reads a step of the backend as events of that kind.

- `mirrors_step`: the stored messages are the published ones, what a socket receives is its inbox, and the rooms are the
  subscriptions; the requests of the controllers, between them, touch none of it (`mirrors_run`).
- `stream_exact`: over any part of a run, a socket that stays in a conversation receives exactly the messages that are
  stored through that conversation, in their order and once each, and never a message that is not stored.
-/

namespace DiscordClone

open ChatGateway Machine
open Json (Obj)

/-- The message that an event brings. -/
def SocketEvent.directMessage : SocketEvent → Option DirectMessage
  | .receiveDirectMessage message => some message
  | .receiveFailedDirectMessage _ | .receiveDmPin _ => none

/-- A message, with the socket that has sent it. -/
abbrev Post := SocketWithAuth × DirectMessage

namespace Emission

/-- The message that an emission brings to a socket. -/
def messageTo (c : SocketWithAuth) (e : Emission) : Option DirectMessage :=
  if e.socket = c then e.event.directMessage else none

end Emission

namespace Backend

/-- The messages that a socket has received. -/
def received (s : Backend) (c : SocketWithAuth) : List DirectMessage := s.emitted.filterMap (Emission.messageTo c)

/-- Who is in which room. -/
def subscribed (s : Backend) : PubSub.Subs SocketWithAuth String := fun c room => (room, c) ∈ s.rooms

/-- A step, as publishing and subscribing. -/
def pubsub (env : BackendEnv) (s : Backend) : Moment × BackendEvent → List (PubSub.Event SocketWithAuth String Post)
  | (_, .request _ _) => []
  | (m, .connects id handshake) =>
    match SocketIOAdapter.createAuthMiddleware env.jwt env.config.get m.seconds handshake with
    | .error _ => []
    | .ok user => [.subscribe ⟨id, user.sub⟩ id]
  | (_, .disconnects client) => [.disconnect client]
  | (_, .socket client (.join targetId)) =>
    if targetId.any Json.stringless then [] else [.subscribe client (roomOf env.platform client.sub targetId)]
  | (_, .socket client (.leave targetId)) =>
    if targetId.any Json.stringless then [] else [.unsubscribe client (roomOf env.platform client.sub targetId)]
  | (m, .socket client (.send data)) =>
    match DirectMessageService.createDirectMessage m.rt s.server.db (sendData client data) with
    | .ok (message, _) =>
      [.publish (roomOf env.platform client.sub ((Obj.spread data).get "targetId")) (client, message)]
    | .error _ => []

/-- The messages that are stored during a run, with the sockets that have sent them. -/
def posts (env : BackendEnv) (s : Backend) (events : List (Moment × BackendEvent)) : List Post :=
  (PubSub.posts (outputs (step env) (pubsub env) s events)).map Prod.snd

/-- The messages that a socket receives during a run, with the sockets that have sent them. -/
noncomputable def deliveries (env : BackendEnv) (s : Backend) (c : SocketWithAuth)
    (events : List (Moment × BackendEvent)) : List Post :=
  (PubSub.inbox s.subscribed c (outputs (step env) (pubsub env) s events)).map Prod.snd

/-- The events of a run say what becomes of the gateway. -/
structure Mirrors (s : Backend) (es : List (PubSub.Event SocketWithAuth String Post)) (s' : Backend) : Prop where
  stored : s'.server.db.directMessages = s.server.db.directMessages ++ (PubSub.posts es).map (·.2.2)
  received : ∀ c, s'.received c = s.received c ++ (PubSub.inbox s.subscribed c es).map (·.2.2)
  rooms : s'.subscribed = s.subscribed.run es

namespace Mirrors

variable {s s' s'' : Backend} {es es' : List (PubSub.Event SocketWithAuth String Post)}

theorem refl (s : Backend) : Mirrors s [] s where
  stored := by simp [PubSub.posts]
  received c := by simp [PubSub.inbox]
  rooms := rfl

theorem trans (h : Mirrors s es s') (h' : Mirrors s' es' s'') : Mirrors s (es ++ es') s'' where
  stored := by rw [h'.stored, h.stored, PubSub.posts_append, List.map_append, List.append_assoc]
  received c := by
    rw [h'.received, h.received, h.rooms, PubSub.inbox_append, List.map_append, List.append_assoc]
  rooms := by rw [h'.rooms, h.rooms, PubSub.run_append]

/-- A step that leaves the messages, the rooms and what has been emitted. -/
theorem of_same (hstored : s'.server.db.directMessages = s.server.db.directMessages) (hrooms : s'.rooms = s.rooms)
    (hemitted : s'.emitted = s.emitted) : Mirrors s [] s' where
  stored := by simpa [PubSub.posts] using hstored
  received c := by simp [PubSub.inbox, Backend.received, hemitted]
  rooms := by
    unfold subscribed
    rw [hrooms]
    rfl

/-- A step that publishes nothing. -/
theorem of_silent (hes : ∀ e ∈ es, e.published = none)
    (hstored : s'.server.db.directMessages = s.server.db.directMessages)
    (hreceived : ∀ c, s'.received c = s.received c) (hrooms : s'.subscribed = s.subscribed.run es) :
    Mirrors s es s' where
  stored := by rw [hstored, PubSub.posts_silent hes, List.map_nil, List.append_nil]
  received c := by rw [hreceived, PubSub.inbox_nil hes, List.map_nil, List.append_nil]
  rooms := hrooms

end Mirrors

section Step

variable {env : BackendEnv} {s s' : Backend} {m : Moment}

/-- **A request of a controller does not reach the gateway.** -/
theorem request_frame {ep : Endpoint} {request : Request} (hc : s.Change env (m, .request ep request) s') :
    s'.server.db.directMessages = s.server.db.directMessages ∧ s'.rooms = s.rooms ∧ s'.emitted = s.emitted := by
  cases hc with
  | registers hcommand hcommits hid hadded =>
    refine ⟨?_, rfl, rfl⟩
    rw [withDb, hadded.rest]
  | _ => exact ⟨rfl, rfl, rfl⟩

/-- The messages of an emission to a room: each socket in it gets one. -/
theorem filterMap_members {members : List SocketWithAuth} (h : members.Nodup) (c : SocketWithAuth)
    (message : DirectMessage) :
    (members.map fun x => (⟨x, .receiveDirectMessage message⟩ : Emission)).filterMap (Emission.messageTo c) =
      if c ∈ members then [message] else [] := by
  induction members with
  | nil => rfl
  | cons x members ih =>
    obtain ⟨hx, hmembers⟩ := List.nodup_cons.mp h
    rw [List.map_cons, List.filterMap_cons]
    by_cases hxc : x = c
    · subst hxc
      simp [Emission.messageTo, SocketEvent.directMessage, ih hmembers, hx]
    · simp [Emission.messageTo, hxc, ih hmembers, Ne.symm hxc]

theorem mem_members {rooms : Rooms} {room : String} {c : SocketWithAuth} :
    c ∈ rooms.members room ↔ (room, c) ∈ rooms := by
  simp [Rooms.members]

theorem nodup_members {rooms : Rooms} (h : rooms.Nodup) (room : String) : (rooms.members room).Nodup := by
  refine (h.filter _).map_on fun e he e' he' heq => ?_
  have h₁ : e.1 = room := by simpa using (List.mem_filter.mp he).2
  have h₂ : e'.1 = room := by simpa using (List.mem_filter.mp he').2
  exact Prod.ext (h₁.trans h₂.symm) heq

/-- An event that brings no message. -/
theorem received_other {emitted : List Emission} {e : Emission} (h : e.event.directMessage = none)
    (c : SocketWithAuth) :
    (emitted ++ [e]).filterMap (Emission.messageTo c) = emitted.filterMap (Emission.messageTo c) := by
  simp [Emission.messageTo, h]

theorem pubsub_join {client : SocketWithAuth} {targetId : Option Json}
    {e : PubSub.Event SocketWithAuth String Post} (he : e ∈ pubsub env s (m, .socket client (.join targetId))) :
    targetId.any Json.stringless = false ∧ e = .subscribe client (roomOf env.platform client.sub targetId) := by
  simp only [pubsub] at he
  split at he
  · cases he
  · rename_i hstring
    exact ⟨Bool.eq_false_iff.mpr hstring, List.mem_singleton.mp he⟩

theorem pubsub_leave {client : SocketWithAuth} {targetId : Option Json}
    {e : PubSub.Event SocketWithAuth String Post} (he : e ∈ pubsub env s (m, .socket client (.leave targetId))) :
    targetId.any Json.stringless = false ∧ e = .unsubscribe client (roomOf env.platform client.sub targetId) := by
  simp only [pubsub] at he
  split at he
  · cases he
  · rename_i hstring
    exact ⟨Bool.eq_false_iff.mpr hstring, List.mem_singleton.mp he⟩

theorem mirrors_join (client : SocketWithAuth) (targetId : Option Json) :
    Mirrors s (pubsub env s (m, .socket client (.join targetId)))
      (s.withChat (s.chat.serve env.platform m.rt client (.join targetId))) := by
  refine .of_silent (fun e he => by rw [(pubsub_join he).2]; rfl) ?_ (fun c => ?_) ?_
  · simp only [Chat.serve, handleJoinDirectMessageRoom]
    split <;> simp [withChat, withDb, chat]
  · simp only [Chat.serve, handleJoinDirectMessageRoom]
    split
    · exact received_other rfl c
    · rfl
  · have hrooms : (s.withChat (s.chat.serve env.platform m.rt client (.join targetId))).rooms =
        joinRoom env.platform client targetId s.rooms := by
      simp only [Chat.serve, handleJoinDirectMessageRoom]
      split <;> rfl
    funext c room
    show ((room, c) ∈ Backend.rooms _) = _
    rw [hrooms, joinRoom]
    simp only [pubsub]
    split
    · rfl
    · simp [PubSub.Subs.run, PubSub.Subs.after, subscribed, List.mem_insert_iff, and_comm]

theorem mirrors_leave (client : SocketWithAuth) (targetId : Option Json) :
    Mirrors s (pubsub env s (m, .socket client (.leave targetId)))
      (s.withChat (s.chat.serve env.platform m.rt client (.leave targetId))) := by
  refine .of_silent (fun e he => by rw [(pubsub_leave he).2]; rfl) rfl (fun c => rfl) ?_
  funext c room
  have hne : ((room, c) ≠ (roomOf env.platform client.sub targetId, client)) ↔
      ¬(c = client ∧ room = roomOf env.platform client.sub targetId) := by
    rw [ne_eq, Prod.mk.injEq, and_comm]
  show ((room, c) ∈ leaveRoom env.platform client targetId s.rooms) = _
  rw [leaveRoom]
  simp only [pubsub]
  split
  · rfl
  · show ((room, c) ∈ s.rooms.filter _) = ((room, c) ∈ s.rooms ∧ _)
    rw [List.mem_filter, decide_eq_true_eq, hne]

/-- **A message that is stored is published to its room**; nothing is told to it of another one. -/
theorem mirrors_send (hnodup : s.rooms.Nodup) (client : SocketWithAuth) (data : List (String × Json)) :
    Mirrors s (pubsub env s (m, .socket client (.send data)))
      (s.withChat (s.chat.serve env.platform m.rt client (.send data))) := by
  have hdb : s.chat.db = s.server.db := rfl
  cases hm : DirectMessageService.createDirectMessage m.rt s.server.db (sendData client data) with
  | error e =>
    simp only [pubsub, Chat.serve, handleSendDirectMessage, hdb, hm]
    refine ⟨by simp [PubSub.posts, withChat, withDb], fun c => ?_, rfl⟩
    show (s.emitted ++ _).filterMap _ = _
    rw [received_other rfl]
    simp [PubSub.inbox, Backend.received]
  | ok r =>
    obtain ⟨message, db⟩ := r
    obtain ⟨-, -, -, -, rfl⟩ := createDirectMessage_ok.mp hm
    simp only [pubsub, Chat.serve, handleSendDirectMessage, hdb, hm]
    refine ⟨by simp [PubSub.posts, PubSub.Event.published, withChat, withDb], fun c => ?_, rfl⟩
    have hmembers := filterMap_members
      (nodup_members hnodup (roomOf env.platform client.sub ((Obj.spread data).get "targetId"))) c message
    show (s.emitted ++ _).filterMap _ = s.received c ++ _
    rw [List.filterMap_append]
    refine congrArg (s.received c ++ ·) (hmembers.trans ?_)
    by_cases hin : (roomOf env.platform client.sub ((Obj.spread data).get "targetId"), c) ∈ s.rooms
    · simp [mem_members, PubSub.inbox, PubSub.gets, subscribed, hin]
    · simp [mem_members, PubSub.inbox, PubSub.gets, subscribed, hin]

/-- **A step of the backend is what it is read as.** -/
theorem mirrors_step {l : Moment × BackendEvent} (hnodup : s.rooms.Nodup) (hstep : s.step env l = some s') :
    Mirrors s (pubsub env s l) s' := by
  obtain ⟨m, event⟩ := l
  cases event with
  | request ep request =>
    obtain ⟨hstored, hrooms, hemitted⟩ := request_frame (step_change hstep)
    exact .of_same hstored hrooms hemitted
  | connects id handshake =>
    simp only [step] at hstep
    split at hstep
    · cases hstep
    · split at hstep
      · rename_i heq
        cases hstep
        simp only [pubsub, heq]
        exact .refl s
      · rename_i user heq
        obtain ⟨server, hserver, rfl⟩ := Option.map_eq_some_iff.mp hstep
        obtain ⟨t, -, rfl⟩ := handleConnection_some hserver
        simp only [pubsub, heq]
        refine ⟨by simp [PubSub.posts, PubSub.Event.published, Server.answered],
          fun c => by simp [PubSub.inbox, PubSub.gets, Backend.received], ?_⟩
        funext c room
        simp [subscribed, PubSub.Subs.run, PubSub.Subs.after, and_comm]
  | disconnects client =>
    simp only [step] at hstep
    split at hstep
    · obtain ⟨server, hserver, rfl⟩ := Option.map_eq_some_iff.mp hstep
      obtain ⟨t, -, rfl⟩ := handleDisconnect_some hserver
      refine ⟨by simp [pubsub, PubSub.posts, PubSub.Event.published, Server.answered],
        fun c => by simp [pubsub, PubSub.inbox, PubSub.gets, Backend.received], ?_⟩
      funext c room
      simp [subscribed, pubsub, PubSub.Subs.run, PubSub.Subs.after]
    · cases hstep
  | socket client r =>
    simp only [step] at hstep
    split at hstep
    · cases hstep
      cases r with
      | join targetId => exact mirrors_join client targetId
      | leave targetId => exact mirrors_leave client targetId
      | send data => exact mirrors_send hnodup client data
    · cases hstep

/-- No socket is in a room twice. -/
theorem rooms_nodup {l : Moment × BackendEvent} (h : s.rooms.Nodup) (hstep : s.step env l = some s') :
    s'.rooms.Nodup := by
  cases step_change hstep with
  | connects hid htoken hserver => exact h.insert
  | disconnects hclient hserver => exact h.filter _
  | @serves m client r hclient =>
    cases r with
    | join targetId =>
      simp only [Chat.serve, handleJoinDirectMessageRoom, withChat]
      split <;> exact nodup_joinRoom h
    | leave targetId => exact nodup_leaveRoom h
    | send data =>
      simp only [Chat.serve, handleSendDirectMessage, withChat]
      split <;> exact h
  | _ => exact h

/-- **A run of the backend is a run of publishing and subscribing.** -/
theorem mirrors_run : ∀ {events : List (Moment × BackendEvent)} {s s' : Backend}, s.rooms.Nodup →
    run (step env) s events = some s' → Mirrors s (outputs (step env) (pubsub env) s events) s'
  | [], s, _, _, hrun => by
    cases hrun
    exact .refl s
  | l :: events, s, s', hnodup, hrun => by
    obtain ⟨t, hstep, hrun⟩ := run_cons.mp hrun
    rw [outputs_cons hstep]
    exact (mirrors_step hnodup hstep).trans (mirrors_run (rooms_nodup hnodup hstep) hrun)

/-! ## Conversations -/

/-- Ids of accounts are as long as `uuid()` makes them. -/
def Lengths (s : Backend) : Prop := ∀ a, s.server.db.accounts.Registered a → a.length = 36

/-- A step draws an id of that length, and a socket comes with an id of length 20. -/
def Sized (l : Moment × BackendEvent) : Prop :=
  l.1.rt.uuid.length = 36 ∧ ∀ id handshake, l.2 = .connects id handshake → id.length = 20

theorem lengths_start : Lengths start := by
  rintro a ⟨e, he, -⟩
  cases he

theorem step_lengths {l : Moment × BackendEvent} (h : Lengths s) (hsized : Sized l) (hstep : s.step env l = some s') :
    Lengths s' := by
  intro a ha
  cases step_change hstep with
  | @registers m ep request data e db hcommand hcommits hid hadded =>
    obtain ⟨x, hx, rfl⟩ := ha
    have hx : x ∈ db.accounts.rows := hx
    rw [hadded.rows] at hx
    rcases List.mem_append.mp hx with hx | hx
    · exact h _ ⟨x, hx, rfl⟩
    · rw [List.mem_singleton.mp hx, hid]
      exact hsized.1
  | verifies hcommand hupdate => exact h a ((registered_updateStatus hupdate a).mp ha)
  | connects hid htoken hserver =>
    obtain ⟨t, hcall, rfl⟩ := handleConnection_some hserver
    exact h a ha
  | disconnects hclient hserver =>
    obtain ⟨t, hcall, rfl⟩ := handleDisconnect_some hserver
    exact h a ha
  | @serves m client r hclient =>
    obtain ⟨haccounts, -, -⟩ := serve_frame env.platform m.rt s.chat client r
    have ha : (s.chat.serve env.platform m.rt client r).db.accounts.Registered a := ha
    rw [haccounts] at ha
    exact h a ha
  | _ => exact h a ha

/-- What a post shows: its room is that of its sender's account and its target. -/
def Named (env : BackendEnv) (e : PubSub.Event SocketWithAuth String Post) : Prop :=
  ∀ room p, e.published = some (room, p) → room = roomOf env.platform p.1.sub (some (.str p.2.targetId)) ∧
    p.1.sub.length = 36 ∧ p.2.targetId.length = 36

/-- A step that publishes is one in which a socket sends a message that is stored. -/
theorem pubsub_publish {l : Moment × BackendEvent} {e : PubSub.Event SocketWithAuth String Post} {room : String}
    {p : Post} (he : e ∈ pubsub env s l) (hp : e.published = some (room, p)) :
    ∃ m data db, l = (m, .socket p.1 (.send data)) ∧
      DirectMessageService.createDirectMessage m.rt s.server.db (sendData p.1 data) = .ok (p.2, db) ∧
      room = roomOf env.platform p.1.sub ((Obj.spread data).get "targetId") := by
  obtain ⟨m, event⟩ := l
  cases e with
  | subscribe | unsubscribe | disconnect => cases hp
  | publish room' p' =>
    cases hp
    cases event with
    | request ep request => cases he
    | connects id handshake =>
      simp only [pubsub] at he
      split at he
      · cases he
      · cases List.mem_singleton.mp he
    | disconnects client => cases List.mem_singleton.mp he
    | socket client r =>
      cases r with
      | join targetId => cases (pubsub_join he).2
      | leave targetId => cases (pubsub_leave he).2
      | send data =>
        simp only [pubsub] at he
        split at he
        · rename_i message db hm
          cases List.mem_singleton.mp he
          exact ⟨m, data, db, rfl, hm, rfl⟩
        · cases he

theorem pubsub_named {l : Moment × BackendEvent} (hintact : Intact env s) (h : Lengths s)
    (hstep : s.step env l = some s') : ∀ e ∈ pubsub env s l, Named env e := by
  intro e he room p hp
  obtain ⟨m, data, db, rfl, hm, rfl⟩ := pubsub_publish he hp
  simp only [step] at hstep
  split at hstep
  · rename_i hclient
    obtain ⟨-, htarget, -⟩ := createDirectMessage_ok.mp hm
    rw [(stored_message hm).2.1]
    exact ⟨rfl, h _ (hintact.owners p.1 hclient), h _ htarget.registered⟩
  · cases hstep

/-- `c` has joined `w`. -/
def InRoom (env : BackendEnv) (s : Backend) (c : SocketWithAuth) (w : String) : Prop :=
  s.subscribed c (roomOf env.platform c.sub (some (.str w)))

/-- `c` leaves `w`, or goes. -/
def Leaves (env : BackendEnv) (c : SocketWithAuth) (w : String) (l : Moment × BackendEvent) : Prop :=
  l.2 = .disconnects c ∨ ∃ t, l.2 = .socket c (.leave t) ∧ t.any Json.stringless = false ∧
    roomOf env.platform c.sub t = roomOf env.platform c.sub (some (.str w))

/-- `c` joins `w`. -/
def Joins (env : BackendEnv) (c : SocketWithAuth) (w : String) (l : Moment × BackendEvent) : Prop :=
  ∃ t, l.2 = .socket c (.join t) ∧ t.any Json.stringless = false ∧
    roomOf env.platform c.sub t = roomOf env.platform c.sub (some (.str w))

/-- Sent in the conversation of the accounts `a` and `w`. -/
def Between (a w : String) (p : Post) : Prop := s(p.1.sub, p.2.targetId) = s(a, w)

instance (a w : String) (p : Post) : Decidable (Between a w p) := inferInstanceAs (Decidable (_ = _))

theorem pubsub_stays {l : Moment × BackendEvent} {c : SocketWithAuth} {w : String} (h : ¬Leaves env c w l) :
    ∀ e ∈ pubsub env s l, PubSub.Stays c (roomOf env.platform c.sub (some (.str w))) e := by
  obtain ⟨m, event⟩ := l
  intro e he
  cases event with
  | request ep request => cases he
  | connects id handshake =>
    simp only [pubsub] at he
    split at he
    · cases he
    · cases List.mem_singleton.mp he
      simp [PubSub.Stays]
  | disconnects client =>
    cases List.mem_singleton.mp he
    refine ⟨by simp, fun heq => h (Or.inl ?_)⟩
    cases heq
    rfl
  | socket client r =>
    cases r with
    | join targetId =>
      rw [(pubsub_join he).2]
      simp [PubSub.Stays]
    | leave targetId =>
      obtain ⟨hstring, rfl⟩ := pubsub_leave he
      refine ⟨fun heq => h (Or.inr ?_), by simp⟩
      injection heq with hclient hroom
      exact ⟨targetId, by rw [hclient], hstring, hclient ▸ hroom⟩
    | send data =>
      simp only [pubsub] at he
      split at he
      · cases List.mem_singleton.mp he
        simp [PubSub.Stays]
      · cases he

theorem pubsub_silent {l : Moment × BackendEvent} {c : SocketWithAuth} {w : String} (hsized : Sized l)
    (hw : w.length = 36) (h : ¬Joins env c w l) :
    ∀ e ∈ pubsub env s l, e ≠ .subscribe c (roomOf env.platform c.sub (some (.str w))) := by
  obtain ⟨m, event⟩ := l
  intro e he
  cases event with
  | request ep request => cases he
  | connects id handshake =>
    simp only [pubsub] at he
    split at he
    · cases he
    · cases List.mem_singleton.mp he
      intro heq
      injection heq with hclient hroom
      have hid := hsized.2 id handshake rfl
      rw [hroom, length_roomOf] at hid
      omega
  | disconnects client =>
    cases List.mem_singleton.mp he
    simp
  | socket client r =>
    cases r with
    | join targetId =>
      obtain ⟨hstring, rfl⟩ := pubsub_join he
      intro heq
      injection heq with hclient hroom
      exact h ⟨targetId, by rw [hclient], hstring, hclient ▸ hroom⟩
    | leave targetId =>
      rw [(pubsub_leave he).2]
      simp
    | send data =>
      simp only [pubsub] at he
      split at he
      · cases List.mem_singleton.mp he
        simp
      · cases he

/-- The conversation of a post can be read off its room. -/
theorem between_iff {a w room : String} {p : Post} (hw : w.length = 36)
    (hroom : room = roomOf env.platform p.1.sub (some (.str p.2.targetId))) (hsender : p.1.sub.length = 36)
    (htarget : p.2.targetId.length = 36) : Between a w p ↔ room = roomOf env.platform a (some (.str w)) := by
  constructor
  · intro h
    have ha : a.length = 36 := by
      rcases Sym2.eq_iff.mp h with ⟨rfl, -⟩ | ⟨-, rfl⟩
      · exact hsender
      · exact htarget
    rw [hroom, roomOf_inj ha hw hsender]
    exact h
  · intro h
    rw [hroom] at h
    have hlen := congrArg String.length h
    rw [length_roomOf, length_roomOf] at hlen
    have ha : a.length = 36 := by omega
    exact (roomOf_inj ha hw hsender).mp h

/-- The posts of a conversation are those of its room. -/
theorem filter_between {a w : String} (hw : w.length = 36) {L : List (String × Post)}
    {es : List (PubSub.Event SocketWithAuth String Post)} (hes : ∀ e ∈ es, Named env e)
    (hL : ∀ x ∈ L, x ∈ PubSub.posts es) : (L.map Prod.snd).filter (fun p => Between a w p) =
      (L.filter fun x => x.1 = roomOf env.platform a (some (.str w))).map Prod.snd := by
  rw [List.filter_map]
  refine congrArg (List.map Prod.snd) (List.filter_congr fun x hx => ?_)
  obtain ⟨e, he, hpublished⟩ := List.mem_filterMap.mp (hL x hx)
  obtain ⟨hroom, hsender, htarget⟩ := hes e he x.1 x.2 hpublished
  exact decide_eq_decide.mpr (between_iff hw hroom hsender htarget)

end Step

/-! ## Whole runs -/

section Runs

variable {env : BackendEnv} {before events : List (Moment × BackendEvent)} {s s' : Backend} {c : SocketWithAuth}
  {w : String}

/-- What every step keeps. -/
structure Kept (env : BackendEnv) (s : Backend) : Prop where
  intact : Intact env s
  lengths : Lengths s
  nodup : s.rooms.Nodup

/-- A connected socket is one of an account with an id of that length. -/
theorem Kept.length_sub (h : Kept env s) (hc : c ∈ s.server.sockets) : c.sub.length = 36 :=
  h.lengths _ (h.intact.owners c hc)

theorem kept_start (env : BackendEnv) : Kept env start := ⟨intact_start env, lengths_start, List.nodup_nil⟩

theorem step_kept (s : Backend) (l : Moment × BackendEvent) (s' : Backend) (h : Kept env s)
    (hl : Sized l ∧ s.Unforged env l) (hstep : s.step env l = some s') : Kept env s' :=
  ⟨step_intact h.intact hl.2 hstep, step_lengths h.lengths hl.1 hstep, rooms_nodup h.nodup hstep⟩

/-- A run in two parts: what the steps keep holds after the first part, and the second part posts to rooms that show
their conversations. -/
theorem run_named (hunforged : Along (step env) (Unforged env) start (before ++ events))
    (hsized : ∀ l ∈ before ++ events, Sized l) (hbefore : run (step env) start before = some s) :
    Kept env s ∧ ∀ e ∈ outputs (step env) (pubsub env) s events, Named env e := by
  have hsized' : Along (step env) (fun _ l => Sized l) start (before ++ events) := along_of_mem start hsized
  have halong := along_append.mp (hsized'.and hunforged)
  have hs := run_inv step_kept (kept_start env) halong.1 hbefore
  exact ⟨hs, outputs_inv step_kept (fun t l t' h _ hstep => pubsub_named h.intact h.lengths hstep) hs
    (halong.2 s hbefore)⟩

/-- The deliveries are some of the posts. -/
theorem deliveries_sublist : (deliveries env s c events).Sublist (posts env s events) :=
  (PubSub.inbox_sublist s.subscribed c (outputs (step env) (pubsub env) s events)).map _

/-- Whoever stays in a conversation receives all its posts. -/
theorem deliveries_stays (hnamed : ∀ e ∈ outputs (step env) (pubsub env) s events, Named env e) (hw : w.length = 36)
    (hin : s.InRoom env c w) (hstays : ∀ l ∈ events, ¬Leaves env c w l) :
    (deliveries env s c events).filter (fun p => Between c.sub w p) =
      (posts env s events).filter fun p => Between c.sub w p := by
  have hsublist := PubSub.inbox_sublist s.subscribed c (outputs (step env) (pubsub env) s events)
  have hin : s.subscribed c (roomOf env.platform c.sub (some (.str w))) := hin
  have hes : ∀ e ∈ outputs (step env) (pubsub env) s events,
      PubSub.Stays c (roomOf env.platform c.sub (some (.str w))) e :=
    outputs_inv (I := fun _ => True) (fun _ _ _ _ _ _ => trivial) (fun t l t' _ hl _ => pubsub_stays hl) trivial
      (along_of_mem s hstays)
  rw [deliveries, posts, filter_between hw hnamed fun x hx => hsublist.subset hx,
    filter_between hw hnamed fun x hx => hx,
    PubSub.inbox_stream hin hes]

/-- Whoever is not in a conversation and does not join it receives none of its posts. -/
theorem deliveries_silent (hnamed : ∀ e ∈ outputs (step env) (pubsub env) s events, Named env e)
    (hsized : ∀ l ∈ events, Sized l) (hw : w.length = 36) (hout : ¬s.InRoom env c w)
    (hsilent : ∀ l ∈ events, ¬Joins env c w l) :
    (deliveries env s c events).filter (fun p => Between c.sub w p) = [] := by
  have hsublist := PubSub.inbox_sublist s.subscribed c (outputs (step env) (pubsub env) s events)
  have hout : ¬s.subscribed c (roomOf env.platform c.sub (some (.str w))) := hout
  have hes : ∀ e ∈ outputs (step env) (pubsub env) s events,
      e ≠ .subscribe c (roomOf env.platform c.sub (some (.str w))) :=
    outputs_inv (I := fun _ => True) (fun _ _ _ _ _ _ => trivial)
      (fun t l t' _ hl _ => pubsub_silent hl.1 hw hl.2) trivial
      ((along_of_mem s hsized).and (along_of_mem s hsilent))
  rw [deliveries, filter_between hw hnamed fun x hx => hsublist.subset hx, PubSub.inbox_silent hout hes]
  rfl

/-- The messages that are stored, and those that a socket receives. -/
theorem Mirrors.stored_posts (h : Mirrors s (outputs (step env) (pubsub env) s events) s') :
    s'.server.db.directMessages = s.server.db.directMessages ++ (posts env s events).map Prod.snd := by
  rw [h.stored, posts, List.map_map]
  rfl

theorem Mirrors.received_deliveries (h : Mirrors s (outputs (step env) (pubsub env) s events) s') :
    s'.received c = s.received c ++ (deliveries env s c events).map Prod.snd := by
  rw [h.received, deliveries, List.map_map]
  rfl

end Runs

/-- **Live delivery is exact over whole runs.** Take any part of a run in which no token is forged and ids have their
lengths. The messages stored in it are added behind those there were. What a socket receives in it is, in the order of
the store and once each, some of the messages stored in it; of those of a conversation that it has joined and does not
leave, all; of those of a conversation that it has not joined and does not join, none. Requests, connections and
whatever other sockets do may come in between. -/
theorem stream_exact (env : BackendEnv) (before events : List (Moment × BackendEvent)) (s s' : Backend)
    (hunforged : Along (step env) (Unforged env) start (before ++ events)) (hsized : ∀ l ∈ before ++ events, Sized l)
    (hbefore : run (step env) start before = some s) (hevents : run (step env) s events = some s')
    (c : SocketWithAuth) :
    s'.server.db.directMessages = s.server.db.directMessages ++ (posts env s events).map Prod.snd ∧
      s'.received c = s.received c ++ (deliveries env s c events).map Prod.snd ∧
      (deliveries env s c events).Sublist (posts env s events) ∧
      ∀ w, w.length = 36 →
        (s.InRoom env c w → (∀ l ∈ events, ¬Leaves env c w l) →
          (deliveries env s c events).filter (fun p => Between c.sub w p) =
            (posts env s events).filter fun p => Between c.sub w p) ∧
        (¬s.InRoom env c w → (∀ l ∈ events, ¬Joins env c w l) →
          (deliveries env s c events).filter (fun p => Between c.sub w p) = []) := by
  obtain ⟨hkept, hnamed⟩ := run_named hunforged hsized hbefore
  have hmirrors := mirrors_run hkept.nodup hevents
  refine ⟨hmirrors.stored_posts, hmirrors.received_deliveries, deliveries_sublist, fun w hw => ⟨fun hin hstays => ?_,
    fun hout hsilent => ?_⟩⟩
  · exact deliveries_stays hnamed hw hin hstays
  · exact deliveries_silent hnamed (fun l hl => hsized l (List.mem_append_right _ hl)) hw hout hsilent

/-- A socket of alice. -/
def aliceSocket : SocketWithAuth := ⟨"socket-0000000000001", aliceId⟩

def aliceConnects : Moment × BackendEvent :=
  (sampleMoment "00000000-0000-4000-8000-000000000000", .connects aliceSocket.id
    { authToken := some (.str (aliceToken .ACCESS)) })

/-- alice opens the conversation with herself. -/
def aliceJoins : Moment × BackendEvent :=
  (sampleMoment "00000000-0000-4000-8000-000000000000", .socket aliceSocket (.join (some (.str aliceId))))

def aliceWrites : Moment × BackendEvent :=
  (sampleMoment "00000000-0000-4000-8000-000000000001", .socket aliceSocket
    (.send [("targetId", .str aliceId), ("content", .str "a note"), ("type", .str "TEXT")]))

/-- alice has opened the conversation with herself, which is not pinned. -/
def withSocket : Backend :=
  { withAlice with
    server :=
      { withAlice.server with
        db := { withAlice.server.db with sessions := [⟨sessionId, aliceId, aliceToken .REFRESH, .ONLINE⟩] }
        sockets := [aliceSocket]
        clients := [aliceSocket.entry] }
    rooms := [(aliceId ++ "-" ++ aliceId, aliceSocket), (aliceSocket.id, aliceSocket)] }

theorem aliceJoins_run : run (step sampleEnv) withAlice [aliceConnects, aliceJoins] = some withSocket := rfl

/-- alice's note. -/
def aliceNote : DirectMessage where
  id := "00000000-0000-4000-8000-000000000001"
  senderId := aliceId
  targetId := aliceId
  content := "a note"
  createdAt := 0
  updatedAt := 0

/-- alice has written her note. -/
def withNote : Backend :=
  { withSocket.withDb { withSocket.server.db with directMessages := [aliceNote] } with
    emitted := [⟨aliceSocket, .receiveDirectMessage aliceNote⟩] }

theorem withNote_run : run (step sampleEnv) withSocket [aliceWrites] = some withNote := rfl

theorem withSocket_run : run (step sampleEnv) start (aliceComes ++ [aliceConnects, aliceJoins]) = some withSocket :=
  run_append.mpr ⟨withAlice, aliceComes_run, aliceJoins_run⟩

theorem aliceWrites_unforged : Along (step sampleEnv) (Unforged sampleEnv) start
    ((aliceComes ++ [aliceConnects, aliceJoins]) ++ [aliceWrites]) := by
  rw [List.append_assoc]
  refine along_append.mpr ⟨aliceComes_unforged, fun t ht => ?_⟩
  cases aliceComes_run.symm.trans ht
  refine along_cons rfl (unforged_of_minted fun token htoken => Or.inr ?_)
    (along_cons rfl (unforged_of_minted fun token htoken => ?_)
      (along_cons rfl (unforged_of_minted fun token htoken => ?_) trivial))
  · exact ⟨⟨0, .ACCESS, aliceId⟩, List.mem_cons_self, List.mem_singleton.mp htoken⟩
  · cases htoken
  · cases htoken

theorem aliceWrites_sized : ∀ l ∈ (aliceComes ++ [aliceConnects, aliceJoins]) ++ [aliceWrites], Sized l := by
  intro l hl
  simp only [aliceComes, List.cons_append, List.nil_append, List.mem_cons, List.not_mem_nil, or_false] at hl
  rcases hl with rfl | rfl | rfl | rfl | rfl | rfl
  case inr.inr.inr.inl =>
    refine ⟨by decide, fun id handshake h => ?_⟩
    cases h
    decide
  all_goals exact ⟨by decide, fun id handshake h => by cases h⟩

/-- alice receives her note. -/
theorem stream_exact_sample : (posts sampleEnv withSocket [aliceWrites]).length = 1 ∧
    (deliveries sampleEnv withSocket aliceSocket [aliceWrites]).filter (fun p => Between aliceId aliceId p) =
      (posts sampleEnv withSocket [aliceWrites]).filter fun p => Between aliceId aliceId p := by
  obtain ⟨-, -, -, h⟩ := stream_exact sampleEnv (aliceComes ++ [aliceConnects, aliceJoins]) [aliceWrites]
    withSocket withNote aliceWrites_unforged aliceWrites_sized withSocket_run withNote_run aliceSocket
  have hin : withSocket.InRoom sampleEnv aliceSocket aliceId := List.mem_cons_self
  refine ⟨rfl, (h aliceId (by decide)).1 hin fun l hl => ?_⟩
  rw [List.mem_singleton.mp hl]
  rintro (h | ⟨t, h, -⟩)
  · cases h
  · cases h

end Backend

end DiscordClone
