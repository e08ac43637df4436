import Mathlib.Data.List.Dedup
import DiscordClone.Lib.JsString
import DiscordClone.Dm.Service
import DiscordClone.UserSettings.Service

/-!
# The chat gateway

The handlers of `chatGateway.ts` for the rooms of conversations and for sent messages. A room is a name; the sockets in
it are those that have joined it, and every socket is in the room of its own id. What the server emits is recorded
socket by socket, but for the `exception` with which the framework answers a handler that throws.
-/

namespace DiscordClone

open Json (Obj)

/-- `SocketWithAuth`: its id, and the account `auth.sub` it is authenticated as. -/
structure SocketWithAuth where
  id : String
  sub : String
  deriving DecidableEq, Repr

/-- What a socket receives, by its `SocketEvents`. -/
inductive SocketEvent where
  | receiveDirectMessage (message : DirectMessage)
  | receiveFailedDirectMessage (message : Obj)
  | receiveDmPin (newPin : ConnectedUserDto)

/-- An event that the server has emitted to a socket. -/
structure Emission where
  socket : SocketWithAuth
  event : SocketEvent

/-- The rooms, as pairs of a room and a socket in it. -/
abbrev Rooms := List (String × SocketWithAuth)

/-- The sockets in a room. -/
def Rooms.members (rooms : Rooms) (room : String) : List SocketWithAuth :=
  (rooms.filter fun e => e.1 = room).map Prod.snd

/-- The server: its database, its rooms and what it has emitted. -/
structure Chat where
  db : Database
  rooms : Rooms
  emitted : List Emission

/-- Nothing has been sent yet, and every socket is in its own room. -/
def Chat.connected (db : Database) (sockets : List SocketWithAuth) : Chat where
  db := db
  rooms := (sockets.map fun client => (client.id, client)).dedup
  emitted := []

namespace ChatGateway

/-- `[client.auth.sub, data.targetId].sort().join('-')` for a `targetId` that has a string; for another one it
throws. -/
def roomOf (platform : Platform) (sub : String) (targetId : Option Json) : String :=
  match targetId with
  -- `undefined` is sorted to the end, `null` is sorted by its name; both are joined as the empty string
  | none => JsString.join "-" [sub, ""]
  | some .null => JsString.join "-" (if JsString.utf16 sub ≤ JsString.utf16 "null" then [sub, ""] else ["", sub])
  | some v => JsString.join "-" (JsString.sort [sub, platform.toString v])

/-- `client.join(...)`, which is not reached when the name of the room cannot be made. -/
def joinRoom (platform : Platform) (client : SocketWithAuth) (targetId : Option Json) (rooms : Rooms) : Rooms :=
  if targetId.any Json.stringless then rooms else rooms.insert (roomOf platform client.sub targetId, client)

/-- `client.leave(...)`. -/
def leaveRoom (platform : Platform) (client : SocketWithAuth) (targetId : Option Json) (rooms : Rooms) : Rooms :=
  if targetId.any Json.stringless then rooms else rooms.filter (· ≠ (roomOf platform client.sub targetId, client))

/-- A string names a room. -/
theorem leaveRoom_string (platform : Platform) (client : SocketWithAuth) (targetId : String) (rooms : Rooms) :
    leaveRoom platform client (some (.str targetId)) rooms =
      rooms.filter (· ≠ (roomOf platform client.sub (some (.str targetId)), client)) := rfl

theorem nodup_joinRoom {platform : Platform} {client : SocketWithAuth} {targetId : Option Json} {rooms : Rooms}
    (h : rooms.Nodup) : (joinRoom platform client targetId rooms).Nodup := by
  unfold joinRoom
  split
  · exact h
  · exact h.insert

theorem nodup_leaveRoom {platform : Platform} {client : SocketWithAuth} {targetId : Option Json} {rooms : Rooms}
    (h : rooms.Nodup) : (leaveRoom platform client targetId rooms).Nodup := by
  unfold leaveRoom
  split
  · exact h
  · exact h.filter _

/-- The rooms that a request leaves are among those there have been. -/
theorem mem_leaveRoom {platform : Platform} {client : SocketWithAuth} {targetId : Option Json} {rooms : Rooms}
    {e : String × SocketWithAuth} (h : e ∈ leaveRoom platform client targetId rooms) : e ∈ rooms := by
  unfold leaveRoom at h
  split at h
  · exact h
  · exact List.mem_of_mem_filter h

/-- The rooms that a request joins: the room of a `targetId` that has a string. -/
theorem mem_joinRoom {platform : Platform} {client : SocketWithAuth} {targetId : Option Json} {rooms : Rooms}
    {e : String × SocketWithAuth} (h : e ∈ joinRoom platform client targetId rooms) :
    e = (roomOf platform client.sub targetId, client) ∧ targetId.any Json.stringless = false ∨ e ∈ rooms := by
  unfold joinRoom at h
  split at h
  · exact Or.inr h
  · rename_i hstring
    exact (List.mem_insert_iff.mp h).imp_left fun he => ⟨he, Bool.eq_false_iff.mpr hstring⟩

def handleJoinDirectMessageRoom (platform : Platform) (s : Chat) (client : SocketWithAuth) (targetId : Option Json) :
    Chat :=
  let s : Chat :=
    match (UserSettingsService.pinDirectMessage platform s.db client.sub targetId).run s.db.settings with
    | .ok (newPin, settings) =>
      { s with
        db := { s.db with settings := settings }
        emitted := s.emitted ++ [⟨client, .receiveDmPin newPin⟩] }
    | .error _ => s
  { s with rooms := joinRoom platform client targetId s.rooms }

def handleLeaveDirectMessageRoom (platform : Platform) (s : Chat) (client : SocketWithAuth) (targetId : Option Json) :
    Chat :=
  { s with rooms := leaveRoom platform client targetId s.rooms }

/-- `{ senderId: client.auth.sub, ...data }`. -/
def sendData (client : SocketWithAuth) (data : List (String × Json)) : Obj :=
  ("senderId", some (.str client.sub)) :: Obj.spread data

def handleSendDirectMessage (platform : Platform) (rt : Runtime) (s : Chat) (client : SocketWithAuth)
    (data : List (String × Json)) : Chat :=
  match DirectMessageService.createDirectMessage rt s.db (sendData client data) with
  | .ok (message, db) =>
    -- the `targetId` of a message that is stored is a string
    { s with
      db := db
      emitted := s.emitted ++ (s.rooms.members (roomOf platform client.sub ((Obj.spread data).get "targetId"))).map
        (⟨·, .receiveDirectMessage message⟩) }
  | .error _ =>
    let message := Obj.spread data ++
      [("senderId", some (.str client.sub)), ("createdAt", some (.str (platform.toISOString rt.now)))]
    { s with emitted := s.emitted ++ [⟨client, .receiveFailedDirectMessage message⟩] }

end ChatGateway

/-! ## A moment -/

/-- A moment at which the client draws this id and reads no dates. -/
def runtimeAt (uuid : String) (now : DateTime) : Runtime := ⟨uuid, now, fun _ => none⟩

end DiscordClone
