import DiscordClone.User.Rows

/-!
# Sending a direct message

`createDirectMessage` of `dm.service.ts`. Its argument is a JavaScript object: the gateway builds it from what the
client sent, of which nothing is checked, and the whole object is spread into the arguments of `directMessages.create`.
Prisma takes each scalar field of the model that it finds there as given, generates the ones with a default that are
absent, and rejects a field it does not know or a value of the wrong type; the database refuses a text with a NUL.
-/

namespace DiscordClone

open Json (Obj)

/-! ## `directMessages.create` -/

namespace DirectMessages

/-- The scalar fields of the model. -/
def scalarFields : List String := ["id", "senderId", "targetId", "content", "type", "createdAt", "updatedAt"]

def stringField (v : Option Json) : Except Exception String :=
  match v with
  | some (.str s) => .ok s
  | _ => .error .prismaValidation

/-- `id String @id @default(uuid())`. -/
def idField (rt : Runtime) (v : Option Json) : Except Exception String :=
  match v with
  | none => .ok rt.uuid
  | some v => stringField (some v)

/-- `type MessageTypes @default(TEXT)`. -/
def typeField (v : Option Json) : Except Exception MessageTypes :=
  match v with
  | none => .ok .TEXT
  | some (.str "TEXT") => .ok .TEXT
  | some (.str "IMAGE") => .ok .IMAGE
  | _ => .error .prismaValidation

/-- `createdAt DateTime @default(now())` and `updatedAt DateTime @updatedAt()`. -/
def dateField (rt : Runtime) (v : Option Json) : Except Exception DateTime :=
  match v with
  | none => .ok rt.now
  | some (.str s) =>
    match rt.parseDateTime s with
    | some d => .ok d
    | none => .error .prismaValidation
  | _ => .error .prismaValidation

/-- The row that `directMessages.create({ data })` inserts. -/
def create (rt : Runtime) (messages : List DirectMessage) (data : Obj) : Except Exception DirectMessage := do
  if data.any fun e => (data.get e.1).isSome && e.1 ∉ scalarFields then
    .error .prismaValidation
  else
    let id ← idField rt (data.get "id")
    let senderId ← stringField (data.get "senderId")
    let targetId ← stringField (data.get "targetId")
    let content ← stringField (data.get "content")
    let type ← typeField (data.get "type")
    let createdAt ← dateField rt (data.get "createdAt")
    let updatedAt ← dateField rt (data.get "updatedAt")
    if ¬∀ text ∈ [id, senderId, targetId, content], Storable text then
      .error .prismaUnknown
    else if messages.any fun m => m.id = id then
      .error (.prisma .uniqueConstraint)
    else
      .ok { id, senderId, targetId, content, type, createdAt, updatedAt }

end DirectMessages

/-- The property name of a value that has one: an array of one element is named by its element, and the names of the
other values are no members of an enum. -/
def propertyKey : Json → String
  | .str s => s
  | .arr [v] => propertyKey v
  | _ => ""

/-- The members that every object inherits. -/
def inheritedMembers : List String :=
  ["constructor", "__defineGetter__", "__defineSetter__", "hasOwnProperty", "__lookupGetter__", "__lookupSetter__",
    "isPrototypeOf", "propertyIsEnumerable", "toString", "valueOf", "__proto__", "toLocaleString"]

/-- A member's string, an inherited member, which is an object, or `undefined`. -/
def memberOf (type : Option Json) : Option Json :=
  match type.map propertyKey with
  | some "TEXT" => some (.str "TEXT")
  | some "IMAGE" => some (.str "IMAGE")
  | some key => if key ∈ inheritedMembers then some (.obj []) else none
  | none => none

/-- `MessageTypes[type]`, which converts `type` to a string. -/
def messageTypeOf (type : Option Json) : Except Exception (Option Json) :=
  if type.any Json.stringless then .error .typeError else .ok (memberOf type)

/-- `directMessages.create({ data: { ...data, type: MessageTypes[data.type] } })`. -/
def DirectMessages.insert (rt : Runtime) (messages : List DirectMessage) (data : Obj) :
    Except Exception DirectMessage := do
  let type ← messageTypeOf (data.get "type")
  DirectMessages.create rt messages (data ++ [("type", type)])

namespace DirectMessageService

/-- The same checks as those of the relationship operations, on the rows as they are. -/
def verifyAccounts (db : Database) (accountId targetId : String) :
    Except Exception (SelectedAccount × SelectedAccount) :=
  match db.accounts.findFirst fun e => e.id = accountId && e.status = .ACTIVE with
  | none => .error accountNotFound
  | some account =>
    match db.accounts.findFirst fun e => e.id = targetId && e.status = .ACTIVE with
    | none => .error targetNotFound
    | some target =>
      .ok (selectWith db.relationships targetId account, selectWith db.relationships accountId target)

/-- The message stored and the database after it; a call that throws stores nothing. -/
def createDirectMessage (rt : Runtime) (db : Database) (data : Obj) : Except Exception (DirectMessage × Database) :=
  match data.get "senderId", data.get "targetId" with
  | some (.str senderId), some (.str targetId) => do
    let (_, target) ← verifyAccounts db senderId targetId
    if target.relationship[0]? = some .BLOCKED then
      .error (.mk CustomErrorMessage.SEND_DM__BLOCKED HttpStatus.FORBIDDEN CustomErrorCode.SEND_DM__BLOCKED)
    else
      let message ← DirectMessages.insert rt db.directMessages data
      .ok (message, { db with directMessages := db.directMessages ++ [message] })
  -- a value that is no string may pass as a filter in the lookups, but whatever they find, `create` rejects it
  | _, _ => .error .prismaValidation

end DirectMessageService

/-! ## What is stored -/

/-- `create` inserts the row whose fields are read off the data, which has no other fields. -/
theorem DirectMessages.create_ok {rt : Runtime} {messages : List DirectMessage} {data : Obj} {m : DirectMessage} :
    DirectMessages.create rt messages data = .ok m ↔
      (∀ e ∈ data, (data.get e.1).isSome = true → e.1 ∈ scalarFields) ∧
      idField rt (data.get "id") = .ok m.id ∧ stringField (data.get "senderId") = .ok m.senderId ∧
      stringField (data.get "targetId") = .ok m.targetId ∧ stringField (data.get "content") = .ok m.content ∧
      typeField (data.get "type") = .ok m.type ∧ dateField rt (data.get "createdAt") = .ok m.createdAt ∧
      dateField rt (data.get "updatedAt") = .ok m.updatedAt ∧ (∀ n ∈ messages, n.id ≠ m.id) ∧
      ∀ text ∈ [m.id, m.senderId, m.targetId, m.content], Storable text := by
  have hknown : (data.any fun e => (data.get e.1).isSome && e.1 ∉ scalarFields) = true ↔
      ¬∀ e ∈ data, (data.get e.1).isSome = true → e.1 ∈ scalarFields := by
    simp
  unfold DirectMessages.create
  split
  · rename_i h
    constructor
    · intro hm
      cases hm
    · intro hm
      exact absurd hm.1 (hknown.mp h)
  · rename_i h
    rw [hknown, not_not] at h
    simp only [bind_eq_ok]
    constructor
    · rintro ⟨id, hid, senderId, hs, targetId, ht, content, hc, type, hty, createdAt, hca, updatedAt, hua, hm⟩
      split at hm
      · cases hm
      · rename_i htexts
        split at hm
        · cases hm
        · rename_i hn
          cases hm
          exact ⟨h, hid, hs, ht, hc, hty, hca, hua, by simpa using hn, not_not.mp htexts⟩
    · rintro ⟨-, hid, hs, ht, hc, hty, hca, hua, hn, htexts⟩
      refine ⟨m.id, hid, m.senderId, hs, m.targetId, ht, m.content, hc, m.type, hty, m.createdAt, hca, m.updatedAt,
        hua, ?_⟩
      rw [if_neg (not_not.mpr htexts), if_neg (by simpa using hn)]

theorem DirectMessages.insert_ok {rt : Runtime} {messages : List DirectMessage} {data : Obj} {m : DirectMessage} :
    DirectMessages.insert rt messages data = .ok m ↔ (data.get "type").any Json.stringless = false ∧
      DirectMessages.create rt messages (data ++ [("type", memberOf (data.get "type"))]) = .ok m := by
  unfold DirectMessages.insert messageTypeOf
  cases (data.get "type").any Json.stringless with
  | true => exact iff_of_false nofun fun h => absurd h.1 (by decide)
  | false => exact (and_iff_right rfl).symm

/-- A message that is inserted has a new id. -/
theorem DirectMessages.insert_fresh {rt : Runtime} {messages : List DirectMessage} {data : Obj} {m : DirectMessage}
    (h : DirectMessages.insert rt messages data = .ok m) : ∀ n ∈ messages, n.id ≠ m.id :=
  (create_ok.mp (insert_ok.mp h).2).2.2.2.2.2.2.2.2.1

theorem DirectMessages.stringField_ok {v : Option Json} {s : String} : stringField v = .ok s ↔ v = some (.str s) := by
  unfold stringField
  split <;> simp_all

theorem DirectMessages.idField_ok {rt : Runtime} {v : Option Json} {id : String} :
    idField rt v = .ok id ↔ v = none ∧ rt.uuid = id ∨ v = some (.str id) := by
  cases v with
  | none => simp [idField]
  | some v => simp [idField, stringField_ok]

theorem DirectMessages.dateField_ok {rt : Runtime} {v : Option Json} {d : DateTime} :
    dateField rt v = .ok d ↔ v = none ∧ rt.now = d ∨ ∃ s, v = some (.str s) ∧ rt.parseDateTime s = some d := by
  unfold dateField
  split
  · simp
  · rename_i s
    cases h : rt.parseDateTime s <;> simp [h]
  · rename_i hn hs
    simp only [reduceCtorEq, false_iff, not_or, not_and, not_exists]
    exact ⟨fun h => absurd h hn, fun s h => absurd h (hs s)⟩

theorem DirectMessageService.verifyAccounts_eq (db : Database) (x y : String) :
    DirectMessageService.verifyAccounts db x y =
      if db.accounts.Active x then
        if db.accounts.Active y then
          .ok (⟨x, (db.relationships (x, y)).toList⟩, ⟨y, (db.relationships (y, x)).toList⟩)
        else .error targetNotFound
      else .error accountNotFound := by
  have hx := select_active db.accounts db.relationships x y
  have hy := select_active db.accounts db.relationships y x
  unfold DirectMessageService.verifyAccounts
  split_ifs at hx with ha
  · obtain ⟨e, he, hse⟩ := Option.map_eq_some_iff.mp hx
    split_ifs at hy with hb
    · obtain ⟨e', he', hse'⟩ := Option.map_eq_some_iff.mp hy
      simp only [he, he', hse, hse', ha, hb, if_true]
    · rw [Option.map_eq_none_iff] at hy
      simp only [he, hy, ha, hb, if_true, if_false]
  · rw [Option.map_eq_none_iff] at hx
    simp only [hx, ha, if_false]

/-- **A stored message** has passed the checks for the two accounts that its row names, and is appended to the
store. -/
theorem createDirectMessage_ok {rt : Runtime} {db db' : Database} {data : Obj} {m : DirectMessage} :
    DirectMessageService.createDirectMessage rt db data = .ok (m, db') ↔
      db.accounts.Active m.senderId ∧ db.accounts.Active m.targetId ∧
      db.relationships (m.targetId, m.senderId) ≠ some .BLOCKED ∧
      DirectMessages.insert rt db.directMessages data = .ok m ∧
      db' = { db with directMessages := db.directMessages ++ [m] } := by
  have hkeys : DirectMessages.insert rt db.directMessages data = .ok m →
      data.get "senderId" = some (.str m.senderId) ∧ data.get "targetId" = some (.str m.targetId) := by
    intro hm
    obtain ⟨-, -, hs, ht, -⟩ := DirectMessages.create_ok.mp (DirectMessages.insert_ok.mp hm).2
    rw [DirectMessages.stringField_ok, Json.Obj.get_append_ne (by decide)] at hs ht
    exact ⟨hs, ht⟩
  unfold DirectMessageService.createDirectMessage
  constructor
  · intro h
    split at h
    · rename_i s t hs ht
      obtain ⟨⟨account, target⟩, hv, h⟩ := bind_eq_ok.mp h
      simp only at h
      split at h
      · cases h
      · rename_i hb
        obtain ⟨m', hm, h⟩ := bind_eq_ok.mp h
        cases h
        obtain ⟨hsm, htm⟩ := hkeys hm
        cases hs.symm.trans hsm
        cases ht.symm.trans htm
        rw [DirectMessageService.verifyAccounts_eq] at hv
        split_ifs at hv with hx hy
        cases hv
        rw [toList_head] at hb
        exact ⟨hx, hy, hb, hm, rfl⟩
    · cases h
  · rintro ⟨hx, hy, hb, hm, rfl⟩
    obtain ⟨hs, ht⟩ := hkeys hm
    rw [hs, ht]
    simp only [DirectMessageService.verifyAccounts_eq, hx, hy, if_true]
    simp only [bind, Except.bind, toList_head, hb, if_false, hm]

end DiscordClone
