import DiscordClone.User.Lists

/-!
# Pinned conversations

`pinDirectMessage` and `unpinDirectMessage` of `userSettings.service.ts`, as transactions over the `settings` column of
the accounts, with `AccountSettings` of `user.types.ts`. The gateway hands over the `targetId` of what a client sent,
which is any JSON value or absent.
-/

namespace DiscordClone

open Transaction

/-- What the database client and the platform make of values that are no strings. -/
structure Platform where
  /-- `where: { id: value }`. -/
  idCondition : Option Json → Except Exception (String → Bool)
  idCondition_undefined : idCondition none = .ok fun _ => true
  idCondition_string : ∀ s, idCondition (some (.str s)) = .ok fun id => decide (id = s)
  /-- `String(value)`, for a value for which it does not throw. -/
  toString : Json → String
  toString_string : ∀ s, toString (.str s) = s
  toISOString : DateTime → String

/-- A transaction over the settings. -/
abbrev SettingsTx := Tx String Json Exception

/-- `AccountSettings`. -/
structure AccountSettings where
  pinnedDms : List Json

namespace AccountSettings

/-- The constructor of `AccountSettings`. -/
def ofJson (data : Json) : AccountSettings :=
  match data.field "pinnedDms" with
  | some (.arr values) => ⟨values⟩
  | _ => ⟨[]⟩

/-- `{ ...settings }`. -/
def toJson (settings : AccountSettings) : Json := .obj [("pinnedDms", .arr settings.pinnedDms)]

/-- `settings.pinnedDms.includes(targetId)`. -/
def includes (settings : AccountSettings) (targetId : Option Json) : Bool :=
  targetId.any fun v => settings.pinnedDms.any (Json.same v)

end AccountSettings

/-- `ONLINE` when the account has a session that is. -/
def onlineStatus (sessions : List Session) (e : Account) : ConnectionStatus :=
  match sessions.filter fun s => s.accountId = e.id && s.connectionStatus = .ONLINE with
  | s :: _ => s.connectionStatus
  | [] => .OFFLINE

namespace UserSettingsService

def verifySelfInvoke (id1 : String) (id2 : Option Json) : SettingsTx Unit :=
  if id2.any (Json.same (.str id1)) then .throw invalidSelfInvoke else pure ()

/-- The ACTIVE account with its settings. -/
def selectSettings (db : Database) (accountId : String) : SettingsTx (Option (String × AccountSettings)) :=
  Tx.select fun settings =>
    (db.accounts.findFirst fun e => e.id = accountId && e.status = .ACTIVE).map fun e =>
      (e.id, .ofJson ((settings e.id).getD (.obj [])))

def pinDirectMessage (platform : Platform) (db : Database) (accountId : String) (targetId : Option Json) :
    SettingsTx ConnectedUserDto := do
  verifySelfInvoke accountId targetId
  match ← selectSettings db accountId with
  | none => .throw accountNotFound
  | some (id, settings) =>
    if settings.includes targetId then
      .throw (.mk CustomErrorMessage.PIN_DM__ALREADY_PINNED HttpStatus.CONFLICT CustomErrorCode.PIN_DM__ALREADY_PINNED)
    else
    match platform.idCondition targetId with
    | .error e => .throw e
    | .ok condition =>
      match db.accounts.findFirst fun e => condition e.id with
      | none => .throw targetNotFound
      | some target => do
        Tx.update id fun _ => AccountSettings.toJson ⟨.str target.id :: settings.pinnedDms⟩
        pure
          { toRelatedUserDto := toRelatedUser db.relationships id target
            connectionStatus := onlineStatus db.sessions target }

def unpinDirectMessage (db : Database) (accountId targetId : String) : SettingsTx Unit := do
  match ← selectSettings db accountId with
  | none => .throw accountNotFound
  | some (id, settings) =>
    Tx.update id fun _ =>
      AccountSettings.toJson ⟨settings.pinnedDms.filter fun e => !Json.same e (.str targetId)⟩

end UserSettingsService

/-! ## A platform -/

/-- A platform that reads strings only. -/
def stringPlatform : Platform where
  idCondition
    | none => .ok fun _ => true
    | some (.str s) => .ok fun id => decide (id = s)
    | some _ => .error .prismaValidation
  idCondition_undefined := rfl
  idCondition_string _ := rfl
  toString
    | .str s => s
    | _ => ""
  toString_string _ := rfl
  toISOString _ := "1970-01-01T00:00:00.000Z"

end DiscordClone
