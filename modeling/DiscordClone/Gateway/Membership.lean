import DiscordClone.Gateway.Delivery
import DiscordClone.Lib.Machine

/-!
# Joins that wait

The handler of `join-dm-room` waits for `pinDirectMessage` before it joins, and the handler of `leave-dm-room` runs at
once. A run is a list of events: a socket asks to join or to leave a room, or a pin that was waited for has ended, in
whatever way and order.

- `roomOf_inj_target`: a socket's rooms of different strings are different rooms.
- `reached_step`: what an event does to whether a socket is in a room or about to join it.
- `membership_iff`: once nothing is waited for, a socket is in the rooms it has asked for exactly when no leave that
  was its last word about a target has overtaken a join.
-/

namespace DiscordClone

open ChatGateway

/-- The server with the joins that wait for their pin. -/
structure Handlers where
  chat : Chat
  joining : List (SocketWithAuth × String)

/-- What happens to the rooms: a socket asks to join or to leave, or the pin of a waiting join has ended. -/
inductive RoomEvent where
  | joins (client : SocketWithAuth) (targetId : String)
  | leaves (client : SocketWithAuth) (targetId : String)
  | pinned (i : Nat) (result : Except (Transaction.Abort Exception) (ConnectedUserDto × Settings))

namespace RoomEvent

/-- What a socket has asked for. -/
def request : RoomEvent → Option ChatRequest
  | .joins c t => some (.join c t)
  | .leaves c t => some (.leave c t)
  | .pinned .. => none

/-- A request of `c` about `t`. -/
def About (c : SocketWithAuth) (t : String) (e : RoomEvent) : Prop := e = .joins c t ∨ e = .leaves c t

end RoomEvent

/-- The rest of the handler of `join-dm-room`, after the pin. -/
def Chat.joinPinned (platform : Platform) (s : Chat) (client : SocketWithAuth) (targetId : String)
    (result : Except (Transaction.Abort Exception) (ConnectedUserDto × Settings)) : Chat :=
  let s : Chat :=
    match result with
    | .ok (newPin, settings) =>
      { s with
        db := { s.db with settings := settings }
        emitted := s.emitted ++ [⟨client, .receiveDmPin newPin⟩] }
    | .error _ => s
  { s with rooms := s.rooms.insert (roomOf platform client.sub (some (.str targetId)), client) }

/-- An event. -/
def Handlers.step (platform : Platform) (s : Handlers) : RoomEvent → Option Handlers
  | .joins c t => some { s with joining := s.joining ++ [(c, t)] }
  | .leaves c t => some { s with chat := handleLeaveDirectMessageRoom platform s.chat c (some (.str t)) }
  | .pinned i result => s.joining[i]?.map fun (c, t) =>
      { chat := s.chat.joinPinned platform c t result, joining := s.joining.eraseIdx i }

/-- Nothing has been asked for yet. -/
def Handlers.connected (db : Database) (sockets : List SocketWithAuth) : Handlers := ⟨.connected db sockets, []⟩

/-- The last request of `c` about `t` was a join. -/
def lastJoined (events : List RoomEvent) (c : SocketWithAuth) (t : String) : Bool :=
  hasJoined (events.filterMap RoomEvent.request) c t

/-- `c` is in the room of `t`. -/
def Handlers.InRoom (platform : Platform) (s : Handlers) (c : SocketWithAuth) (t : String) : Prop :=
  (roomOf platform c.sub (some (.str t)), c) ∈ s.chat.rooms

/-- `c` is in the room of `t` or about to join it. -/
def Handlers.Reached (platform : Platform) (s : Handlers) (c : SocketWithAuth) (t : String) : Prop :=
  (c, t) ∈ s.joining ∨ s.InRoom platform c t

/-- A string as `uuid()` makes them: 36 characters, four of them dashes. -/
def IsUuid (s : String) : Prop :=
  s.length = 36 ∧ ∀ i < 36, s.toList[i]? = some '-' ↔ i ∈ [8, 13, 18, 23]

instance (s : String) : Decidable (IsUuid s) := inferInstanceAs (Decidable (_ ∧ _))

/-- When `c` leaves `t` and does not come back to it, no join of it waits. -/
def LeavesSettled (platform : Platform) (s : Handlers) (events : List RoomEvent) (c : SocketWithAuth) : Prop :=
  ∀ t before after, events = before ++ .leaves c t :: after → (∀ e ∈ after, ¬e.About c t) →
    ∀ s', Machine.run (Handlers.step platform) s before = some s' → (c, t) ∉ s'.joining

/-! ## Rooms of any strings -/

section Names

variable {platform : Platform} {a t u : String}

/-- **The rooms of different targets are different**, whatever the targets are. -/
theorem roomOf_inj_target (ha : IsUuid a) :
    roomOf platform a (some (.str t)) = roomOf platform a (some (.str u)) ↔ t = u := by
  refine ⟨fun h => ?_, fun h => by rw [h]⟩
  rw [roomOf_string, roomOf_string] at h
  have hdash : JsString.join (Char.toString '-') (JsString.sort [a, t]) =
      JsString.join (Char.toString '-') (JsString.sort [a, u]) := h
  refine JsString.join_sort_inj_right (fun n hn => ⟨8, ?_⟩) hdash
  have hlt : n < 36 := by
    rw [← ha.1, ← String.length_toList]
    exact (List.getElem?_eq_some_iff.mp hn).1
  have hdash := (ha.2 n hlt).mp hn
  simp only [List.mem_cons, List.not_mem_nil, or_false] at hdash
  have h8 := (ha.2 8 (by decide)).mpr (by decide)
  have hbound : n + 1 + 8 < a.length := by
    rw [ha.1]
    omega
  refine ⟨hbound, fun heq => ?_⟩
  -- nine characters after a dash there is none
  have hnext := (ha.2 (n + 1 + 8) (by omega)).mp (heq ▸ h8)
  simp only [List.mem_cons, List.not_mem_nil, or_false] at hnext
  omega

end Names

/-! ## Events -/

section Events

variable {platform : Platform} {s s' : Handlers} {c : SocketWithAuth} {t : String} {e : RoomEvent}

/-- A join whose pin ends at once is the handler as one step. -/
theorem join_pinned (platform : Platform) (s : Chat) (client : SocketWithAuth) (targetId : String) :
    s.joinPinned platform client targetId
        ((UserSettingsService.pinDirectMessage platform s.db client.sub (some (.str targetId))).run s.db.settings) =
      handleJoinDirectMessageRoom platform s client (some (.str targetId)) := by
  unfold Chat.joinPinned handleJoinDirectMessageRoom
  rfl

theorem joinPinned_rooms (platform : Platform) (s : Chat) (client : SocketWithAuth) (targetId : String)
    (result : Except (Transaction.Abort Exception) (ConnectedUserDto × Settings)) :
    (s.joinPinned platform client targetId result).rooms =
      s.rooms.insert (roomOf platform client.sub (some (.str targetId)), client) := by
  unfold Chat.joinPinned
  split <;> rfl

/-- A room entry of another request is another entry. -/
theorem entry_inj (hc : IsUuid c.sub) {c' : SocketWithAuth} {t' : String} :
    (roomOf platform c.sub (some (.str t)), c) = (roomOf platform c'.sub (some (.str t')), c') ↔ (c, t) = (c', t') := by
  simp only [Prod.mk.injEq]
  constructor
  · rintro ⟨hroom, rfl⟩
    exact ⟨rfl, (roomOf_inj_target hc).mp hroom⟩
  · rintro ⟨rfl, rfl⟩
    exact ⟨rfl, rfl⟩

/-- **What an event does to a room**: a join is on its way, a leave takes the socket out, and nothing else matters. -/
theorem reached_step (hc : IsUuid c.sub) (h : s.step platform e = some s') :
    (e = .joins c t → s'.Reached platform c t) ∧
      (e = .leaves c t → (s'.Reached platform c t ↔ (c, t) ∈ s.joining)) ∧
      (¬e.About c t → (s'.Reached platform c t ↔ s.Reached platform c t)) := by
  unfold Handlers.Reached Handlers.InRoom
  cases e with
  | joins c' t' =>
    cases h
    refine ⟨fun he => Or.inl ?_, nofun, fun hne => ?_⟩
    · cases he
      exact List.mem_append_right _ List.mem_cons_self
    · have hother : (c, t) ≠ (c', t') := fun he => hne (Or.inl (by cases he; rfl))
      rw [List.mem_append, List.mem_singleton, or_iff_left hother]
  | leaves c' t' =>
    cases h
    simp only [handleLeaveDirectMessageRoom, leaveRoom_string, List.mem_filter, decide_eq_true_eq, ne_eq, entry_inj hc]
    refine ⟨nofun, fun he => ?_, fun hne => ?_⟩
    · cases he
      simp
    · have hother : (c, t) ≠ (c', t') := fun he => hne (Or.inr (by cases he; rfl))
      rw [and_iff_left hother]
  | pinned i result =>
    obtain ⟨⟨c', t'⟩, hi, rfl⟩ := Option.map_eq_some_iff.mp h
    refine ⟨nofun, nofun, fun _ => ?_⟩
    simp only [joinPinned_rooms, List.mem_insert_iff, entry_inj hc]
    have hmem : (c', t') ∈ s.joining := List.mem_of_getElem? hi
    -- a join that has waited is done, the others go on waiting
    by_cases heq : (c, t) = (c', t')
    · rw [heq]
      simp [hmem]
    · have herase : (c, t) ∈ s.joining.eraseIdx i ↔ (c, t) ∈ s.joining := by
        refine ⟨List.mem_of_mem_eraseIdx, fun hm => ?_⟩
        obtain ⟨j, hj⟩ := List.mem_iff_getElem?.mp hm
        refine List.mem_eraseIdx_iff_getElem?.mpr ⟨j, fun hij => heq ?_, hj⟩
        rw [hij, hi] at hj
        exact (Option.some.inj hj).symm
      rw [herase, or_iff_right heq]

/-- Events about something else leave a room alone. -/
theorem reached_run (hc : IsUuid c.sub) : ∀ {events : List RoomEvent} {s s' : Handlers},
    (∀ e ∈ events, ¬e.About c t) → Machine.run (Handlers.step platform) s events = some s' →
    (s'.Reached platform c t ↔ s.Reached platform c t)
  | [], _, _, _, h => by cases h; rfl
  | e :: events, s, s', hne, h => by
    obtain ⟨u, hu, h⟩ := Machine.run_cons.mp h
    have hrest := reached_run hc (fun e' he' => hne e' (List.mem_cons_of_mem _ he')) h
    exact hrest.trans ((reached_step hc hu).2.2 (hne e List.mem_cons_self))

/-- Events about something else do not change the last request. -/
theorem lastJoined_append {before after : List RoomEvent} (h : ∀ e ∈ after, ¬e.About c t) :
    lastJoined (before ++ after) c t = lastJoined before c t := by
  induction after using List.reverseRecOn with
  | nil => rw [List.append_nil]
  | append_singleton after e ih =>
    have hrest := ih fun e' he' => h e' (List.mem_append_left _ he')
    rw [← hrest, ← List.append_assoc]
    have he := h e (List.mem_append_right _ List.mem_cons_self)
    simp only [lastJoined, hasJoined, List.filterMap_append, List.foldl_append]
    cases e with
    | joins c' t' =>
      have hother : ¬(c' = c ∧ t' = t) := fun ⟨h₁, h₂⟩ => he (Or.inl (by rw [h₁, h₂]))
      simp [RoomEvent.request, ChatRequest.joined, hother]
    | leaves c' t' =>
      have hother : ¬(c' = c ∧ t' = t) := fun ⟨h₁, h₂⟩ => he (Or.inr (by rw [h₁, h₂]))
      simp [RoomEvent.request, ChatRequest.joined, hother]
    | pinned i result => rfl

theorem lastJoined_joins (before : List RoomEvent) : lastJoined (before ++ [.joins c t]) c t = true := by
  simp [lastJoined, hasJoined, RoomEvent.request, ChatRequest.joined]

theorem lastJoined_leaves (before : List RoomEvent) : lastJoined (before ++ [.leaves c t]) c t = false := by
  simp [lastJoined, hasJoined, RoomEvent.request, ChatRequest.joined]

/-- After its last request about `t`, whatever else happens does not move a socket. -/
theorem reached_after (hc : IsUuid c.sub) {before after : List RoomEvent} (hafter : ∀ e' ∈ after, ¬e'.About c t)
    (h : Machine.run (Handlers.step platform) s (before ++ e :: after) = some s') :
    ∃ u u', Machine.run (Handlers.step platform) s before = some u ∧ u.step platform e = some u' ∧
      (s'.Reached platform c t ↔ u'.Reached platform c t) := by
  obtain ⟨u, hu, h⟩ := Machine.run_append.mp h
  obtain ⟨u', hu', h⟩ := Machine.run_cons.mp h
  exact ⟨u, u', hu, hu', reached_run hc hafter h⟩

/-- The last request, read off the list. -/
theorem lastJoined_split {before after : List RoomEvent} (hafter : ∀ e' ∈ after, ¬e'.About c t) :
    lastJoined (before ++ e :: after) c t = lastJoined (before ++ [e]) c t := by
  have happend : before ++ e :: after = before ++ [e] ++ after := by simp
  rw [happend, lastJoined_append hafter]

end Events

/-- **A socket is where its last requests put it, unless a leave has overtaken a join.** For every run of join and leave
events of any sockets with any string targets, whose handlers interleave and whose pins end in any way: once no handler
is pending, a socket is in the room of each target exactly when its last event for that target was a join, if and only
if no leave that is its last event for a target was received while a join of that target was pending. -/
theorem membership_iff (platform : Platform) (db : Database) (sockets : List SocketWithAuth)
    (hsockets : ∀ c ∈ sockets, c.id.length = 20) (events : List RoomEvent) (s : Handlers)
    (hrun : Machine.run (Handlers.step platform) (.connected db sockets) events = some s) (hdone : s.joining = [])
    (c : SocketWithAuth) (hc : IsUuid c.sub) :
    (∀ t, s.InRoom platform c t ↔ lastJoined events c t = true) ↔
      LeavesSettled platform (.connected db sockets) events c := by
  have hdone' : ∀ t, s.Reached platform c t ↔ s.InRoom platform c t := fun t => by simp [Handlers.Reached, hdone]
  constructor
  · intro hall t before after heq hafter u hu hwaits
    subst heq
    obtain ⟨u', v, hu', hv, hreached⟩ := reached_after hc hafter hrun
    cases hu.symm.trans hu'
    have hin : s.InRoom platform c t :=
      (hdone' t).mp (hreached.mpr (((reached_step hc hv).2.1 rfl).mpr hwaits))
    have hlast := (hall t).mp hin
    rw [lastJoined_split hafter, lastJoined_leaves] at hlast
    cases hlast
  · intro hsettled t
    rw [← hdone']
    rcases Machine.exists_last (p := RoomEvent.About c t) events with hnone | ⟨before, e, after, rfl, he, hafter⟩
    · have hstart : ¬(Handlers.connected db sockets).Reached platform c t := by
        rintro (hwaits | hin)
        · cases hwaits
        · obtain ⟨c', hc', heq⟩ := List.mem_map.mp (List.mem_dedup.mp hin)
          have hlen := congrArg (fun e => e.1.length) heq
          simp only [length_roomOf, hsockets c' hc', hc.1] at hlen
          omega
      have hlast : lastJoined events c t = false := by
        rw [← List.nil_append events, lastJoined_append hnone]
        rfl
      rw [reached_run hc hnone hrun, hlast]
      exact iff_of_false hstart (by decide)
    · obtain ⟨u, v, hu, hv, hreached⟩ := reached_after hc hafter hrun
      rw [hreached, lastJoined_split hafter]
      rcases he with rfl | rfl
      · exact iff_of_true ((reached_step hc hv).1 rfl) (lastJoined_joins before)
      · rw [(reached_step hc hv).2.1 rfl, lastJoined_leaves]
        exact iff_of_false (hsettled t before after rfl hafter u hu) (by decide)

/-- Two accounts without settings yet, and a socket of the first. -/
def uuidDatabase : Database := ⟨uuidAccounts, fun _ => some (.obj []), [], fun _ => none, []⟩

def socketOfA : SocketWithAuth := ⟨"socket-0000000000001", "00000000-0000-4000-8000-00000000000a"⟩

/-- What the pin of `socketOfA` for the other account answers. -/
def pinOfB : Except (Transaction.Abort Exception) (ConnectedUserDto × Settings) :=
  (UserSettingsService.pinDirectMessage stringPlatform uuidDatabase socketOfA.sub
    (some (.str "00000000-0000-4000-8000-00000000000b"))).run uuidDatabase.settings

/-- A join, its pin, and a leave. -/
theorem membership_sample :
    let b := "00000000-0000-4000-8000-00000000000b"
    let events : List RoomEvent := [.joins socketOfA b, .pinned 0 pinOfB, .leaves socketOfA b]
    ∃ s, Machine.run (Handlers.step stringPlatform) (.connected uuidDatabase [socketOfA]) events = some s ∧
      ∀ t, s.InRoom stringPlatform socketOfA t ↔ lastJoined events socketOfA t = true := by
  intro b events
  refine ⟨_, rfl, (membership_iff stringPlatform uuidDatabase [socketOfA] (by decide) events _ rfl rfl socketOfA
    (by decide)).mpr ?_⟩
  intro t before after heq hafter s hs
  rcases before with _ | ⟨e, _ | ⟨e', before⟩⟩
  · simp [events] at heq
  · simp [events] at heq
  · simp only [events, List.cons_append, List.cons.injEq] at heq
    obtain ⟨rfl, rfl, heq⟩ := heq
    rcases before with _ | ⟨e, before⟩
    · cases hs
      exact List.not_mem_nil
    · simp at heq

/-- A leave that overtakes the join: the socket has left last, and is in the room. -/
theorem membership_overtaken :
    let b := "00000000-0000-4000-8000-00000000000b"
    let events : List RoomEvent := [.joins socketOfA b, .leaves socketOfA b, .pinned 0 pinOfB]
    ∃ s, Machine.run (Handlers.step stringPlatform) (.connected uuidDatabase [socketOfA]) events = some s ∧
      s.joining = [] ∧ s.InRoom stringPlatform socketOfA b ∧ lastJoined events socketOfA b = false := by
  intro b events
  refine ⟨_, rfl, rfl, ?_, rfl⟩
  show _ ∈ (Chat.joinPinned _ _ _ _ _).rooms
  rw [joinPinned_rooms]
  exact List.mem_insert_self

end DiscordClone
