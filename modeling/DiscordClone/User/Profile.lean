import DiscordClone.UserSettings.Service

/-!
# The own account and a profile

`getMe` and `getUserProfile` of `user.service.ts`. `getMe` looks up all pinned accounts in one query, which answers in
an order of its own (`findMany`), and puts them back into the order of the settings; ids of no account are dropped.

`getMe_eq` says what it shows when the settings hold ids only.
-/

namespace DiscordClone

/-- What `getMe` returns: the account and its `settings.dmSettings.pinnedDms`. -/
structure MeDto extends UserDto where
  pinnedDms : List ConnectedUserDto
  deriving DecidableEq, Repr

/-- An account with the row of `accountId` about it and its connection. -/
def toConnectedUser (rel : Relationships) (sessions : List Session) (accountId : String) (e : Account) :
    ConnectedUserDto where
  toRelatedUserDto := toRelatedUser rel accountId e
  connectionStatus := connectionStatus sessions e

/-- `settings.pinnedDms.reduce(...)`: the account of each id, where there is one. -/
def reducePinned (pinnedAccounts : List Account) (pinnedDms : List Json) : List Account :=
  pinnedDms.foldl
    (fun accum e =>
      match pinnedAccounts.find? fun account => Json.same (.str account.id) e with
      | some account => accum ++ [account]
      | none => accum)
    []

namespace UserService

def getMe (findMany : List Account → List Account) (db : Database) (userId : String) : Except Exception MeDto :=
  match db.accounts.findFirst fun e => e.id = userId with
  | none => .error .notFound
  | some account =>
    let settings : AccountSettings := .ofJson ((db.settings account.id).getD (.obj []))
    -- Prisma takes strings only for ids
    if settings.pinnedDms.all Json.isString then
      let pinnedAccounts := findMany (db.accounts.rows.filter fun e => settings.includes (some (.str e.id)))
      .ok
        { toUserDto := account.toUserDto
          pinnedDms := (reducePinned pinnedAccounts settings.pinnedDms).map
            (toConnectedUser db.relationships db.sessions account.id) }
    else .error .prismaValidation

def getUserProfile (db : Database) (accountId profileId : String) : Except Exception ConnectedUserDto :=
  match db.accounts.findFirst fun e => e.id = profileId with
  -- `null` cannot be taken apart
  | none => .error .typeError
  | some profile => .ok (toConnectedUser db.relationships db.sessions accountId profile)

end UserService

/-! ## What `getMe` shows -/

section Shown

variable {db : Database} {a t : String} {findMany : List Account → List Account}

/-- The ids that are shown as pinned. -/
def MeDto.pinnedIds (me : MeDto) : List String := me.pinnedDms.map (·.id)

theorem same_str (s t : String) : Json.same (.str s) (.str t) = decide (s = t) := rfl

theorem includes_str {pinned : List String} : (AccountSettings.mk (pinned.map .str)).includes (some (.str t)) = true ↔
    t ∈ pinned := by
  simp [AccountSettings.includes, same_str]

/-- The account with an id, among accounts of different ids. -/
theorem find_by_id {rows : List Account} {e : Account} (hn : (rows.map Account.id).Nodup) (he : e ∈ rows) :
    rows.find? (fun account => decide (account.id = e.id)) = some e := by
  cases h : rows.find? fun account => decide (account.id = e.id) with
  | none =>
    have := List.find?_eq_none.mp h e he
    simp at this
  | some e' =>
    have hid : e'.id = e.id := by simpa using List.find?_some h
    rw [List.inj_on_of_nodup_map hn (List.mem_of_find?_eq_some h) he hid]

/-- Putting the accounts back into order, one id after the other. -/
theorem reducePinned_eq (pinnedAccounts : List Account) (pinned : List String) :
    reducePinned pinnedAccounts (pinned.map .str) =
      pinned.filterMap fun t => pinnedAccounts.find? fun account => decide (account.id = t) := by
  suffices h : ∀ accum, (pinned.map Json.str).foldl
      (fun accum e =>
        match pinnedAccounts.find? fun account => Json.same (.str account.id) e with
        | some account => accum ++ [account]
        | none => accum)
      accum = accum ++ pinned.filterMap fun t => pinnedAccounts.find? fun account => decide (account.id = t) by
    exact (h []).trans (List.nil_append _)
  induction pinned with
  | nil => simp
  | cons t pinned ih =>
    intro accum
    rw [List.map_cons, List.foldl_cons, ih, List.filterMap_cons]
    simp only [same_str]
    cases pinnedAccounts.find? fun account => decide (account.id = t) with
    | none => rfl
    | some e => simp

/-- The accounts of ids that are all registered, in their order. -/
theorem reducePinned_ids {accounts : Accounts} {pinnedAccounts : List Account} {pinned : List String}
    (hperm : pinnedAccounts.Perm (accounts.rows.filter fun e =>
      (AccountSettings.mk (pinned.map .str)).includes (some (.str e.id))))
    (hreg : ∀ t ∈ pinned, accounts.Registered t) :
    (reducePinned pinnedAccounts (pinned.map .str)).map Account.id = pinned := by
  have hn : (pinnedAccounts.map Account.id).Nodup :=
    ((hperm.map Account.id).nodup_iff).mpr (accounts.id_nodup.sublist (List.filter_sublist.map _))
  have hfind : ∀ t ∈ pinned, ∃ e,
      (pinnedAccounts.find? fun account => decide (account.id = t)) = some e ∧ e.id = t := by
    intro t ht
    obtain ⟨e, he, rfl⟩ := hreg t ht
    have hmem : e ∈ pinnedAccounts := hperm.mem_iff.mpr (List.mem_filter.mpr ⟨he, includes_str.mpr ht⟩)
    exact ⟨e, find_by_id hn hmem, rfl⟩
  rw [reducePinned_eq]
  clear hperm hreg
  induction pinned with
  | nil => rfl
  | cons t pinned ih =>
    obtain ⟨e, he, hid⟩ := hfind t List.mem_cons_self
    simp only [List.filterMap_cons, he, List.map_cons, hid]
    rw [ih fun t' ht' => hfind t' (List.mem_cons_of_mem _ ht')]

/-- **`getMe` shows the pinned accounts in the order of the settings.** -/
theorem getMe_pinned {pinned : List String} (ha : db.accounts.Registered a)
    (hfind : ∀ rows, (findMany rows).Perm rows)
    (hs : db.settings a = some (AccountSettings.toJson ⟨pinned.map .str⟩))
    (hreg : ∀ t ∈ pinned, db.accounts.Registered t) :
    ∃ me, UserService.getMe findMany db a = .ok me ∧ me.pinnedIds = pinned := by
  obtain ⟨e, he, rfl⟩ := findFirst_self ha
  have hset : AccountSettings.ofJson ((db.settings e.id).getD (.obj [])) = ⟨pinned.map .str⟩ := by
    rw [hs]
    rfl
  have hall : (pinned.map Json.str).all Json.isString = true := by simp [Json.isString]
  refine ⟨_, by simp only [UserService.getMe, he, hset, hall, if_true]; rfl, ?_⟩
  rw [MeDto.pinnedIds, List.map_map]
  exact reducePinned_ids (hfind _) hreg

end Shown

end DiscordClone
