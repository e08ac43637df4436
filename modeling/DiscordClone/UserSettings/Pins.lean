import DiscordClone.Lib.Machine
import DiscordClone.Lib.Recency
import DiscordClone.User.Profile
import DiscordClone.Sample

/-!
# The pinned list is exact

- `pin_eq` and `unpin_eq` are the two transactions, statement by statement, and `pin_ok` and `unpin_ok` say when one
  that runs alone succeeds and what it leaves.
- `pinned_call`: over settings that hold ids, a call does to the list of its account what `Recency.Entry.apply` does.
- `pinned_list_exact`: so after every serial run `getMe` shows what the history of the run says, the most recent pin
  first.
-/

namespace DiscordClone

open Transaction

/-! ## The transactions -/

/-- The pinned ids in the settings of an account. -/
def pinnedOf (settings : Settings) (a : String) : List Json :=
  (AccountSettings.ofJson ((settings a).getD (.obj []))).pinnedDms

/-- What the lookup of the target finds. -/
def pinTarget (platform : Platform) (db : Database) (targetId : Option Json) : Except Exception (Option Account) :=
  (platform.idCondition targetId).map fun condition => db.accounts.findFirst fun e => condition e.id

/-- The pin of a value by an account passes its checks and finds its target. -/
structure PinAdmits (platform : Platform) (db : Database) (settings : Settings) (a : String) (targetId : Option Json)
    (target : Account) : Prop where
  other : targetId.any (Json.same (.str a)) = false
  active : db.accounts.Active a
  fresh : (AccountSettings.mk (pinnedOf settings a)).includes targetId = false
  found : pinTarget platform db targetId = .ok (some target)

/-- The settings with this list for an account. -/
def Settings.withPinned (settings : Settings) (a : String) (pinned : List Json) : Settings :=
  Function.update settings a (some (AccountSettings.toJson ⟨pinned⟩))

section Transactions

variable {platform : Platform} {db : Database} {settings settings' : Settings} {a t : String} {targetId : Option Json}

/-- The ACTIVE account, if there is one, with its settings. -/
theorem selected_settings (db : Database) (settings : Settings) (a : String) :
    ((db.accounts.findFirst fun e => e.id = a && e.status = .ACTIVE).map fun e =>
      (e.id, AccountSettings.ofJson ((settings e.id).getD (.obj [])))) =
      if db.accounts.Active a then some (a, ⟨pinnedOf settings a⟩) else none := by
  cases h : db.accounts.findFirst fun e => e.id = a && e.status = .ACTIVE with
  | none =>
    have hn : ¬db.accounts.Active a := by
      rintro ⟨e, he, hid, hs⟩
      have := List.find?_eq_none.mp h e he
      simp [hid, hs] at this
    rw [if_neg hn, Option.map_none]
  | some e =>
    have hp : e.id = a ∧ e.status = .ACTIVE := by simpa using List.find?_some h
    have ha : db.accounts.Active a := ⟨e, List.mem_of_find?_eq_some h, hp⟩
    rw [if_pos ha, Option.map_some, hp.1]
    rfl

/-- The pin, statement by statement. -/
theorem pin_eq (platform : Platform) (db : Database) (a : String) (targetId : Option Json) :
    UserSettingsService.pinDirectMessage platform db a targetId =
      if targetId.any (Json.same (.str a)) then .throw invalidSelfInvoke
      else
        .query fun settings =>
          if db.accounts.Active a then
            if (AccountSettings.mk (pinnedOf settings a)).includes targetId then
              .throw (.mk CustomErrorMessage.PIN_DM__ALREADY_PINNED HttpStatus.CONFLICT
                CustomErrorCode.PIN_DM__ALREADY_PINNED)
            else
            match pinTarget platform db targetId with
            | .error e => .throw e
            | .ok none => .throw targetNotFound
            | .ok (some target) =>
              .exec a (.update fun _ => AccountSettings.toJson ⟨.str target.id :: pinnedOf settings a⟩)
                (.ret
                  { toRelatedUserDto := toRelatedUser db.relationships a target
                    connectionStatus := onlineStatus db.sessions target })
          else .throw accountNotFound := by
  unfold UserSettingsService.pinDirectMessage UserSettingsService.verifySelfInvoke UserSettingsService.selectSettings
  split
  · rfl
  · simp only [Tx.pure_eq, Tx.ret_bind, Tx.select_bind, selected_settings]
    congr 1
    funext settings
    by_cases ha : db.accounts.Active a
    · simp only [if_pos ha, pinTarget]
      by_cases hi : (AccountSettings.mk (pinnedOf settings a)).includes targetId = true
      · simp only [if_pos hi]
      · simp only [if_neg hi]
        cases platform.idCondition targetId with
        | error e => rfl
        | ok condition =>
          simp only [Except.map]
          cases db.accounts.findFirst fun e => condition e.id <;> rfl
    · simp only [if_neg ha]

/-- The unpin, statement by statement. -/
theorem unpin_eq (db : Database) (a t : String) :
    UserSettingsService.unpinDirectMessage db a t =
      .query fun settings =>
        if db.accounts.Active a then
          .exec a (.update fun _ => AccountSettings.toJson
            ⟨(pinnedOf settings a).filter fun e => !Json.same e (.str t)⟩)
            (.ret ())
        else .throw accountNotFound := by
  unfold UserSettingsService.unpinDirectMessage UserSettingsService.selectSettings
  simp only [Tx.select_bind, selected_settings]
  congr 1
  funext settings
  by_cases ha : db.accounts.Active a
  · simp only [if_pos ha]
    rfl
  · simp only [if_neg ha]

/-- A pin that runs alone succeeds when it passes its checks, and puts the target in front. -/
theorem pin_ok {dto : ConnectedUserDto} :
    (UserSettingsService.pinDirectMessage platform db a targetId).run settings = .ok (dto, settings') ↔
      ∃ target, PinAdmits platform db settings a targetId target ∧ (settings a).isSome = true ∧
        settings' = settings.withPinned a (.str target.id :: pinnedOf settings a) ∧
        dto =
          { toRelatedUserDto := toRelatedUser db.relationships a target
            connectionStatus := onlineStatus db.sessions target } := by
  rw [pin_eq]
  constructor
  · intro h
    split at h
    · cases h
    · rename_i hs
      rw [Tx.run_query] at h
      split at h
      · rename_i ha
        split at h
        · cases h
        · rename_i hi
          split at h
          · cases h
          · cases h
          · rename_i target ht
            cases hrow : settings a with
            | none => simp [Tx.run, Write.apply, hrow] at h
            | some v =>
              rw [Tx.run_update hrow] at h
              cases h
              exact ⟨target, ⟨by simpa using hs, ha, by simpa using hi, ht⟩, rfl, rfl, rfl⟩
      · cases h
  · rintro ⟨target, ⟨hs, ha, hi, ht⟩, hrow, rfl, rfl⟩
    obtain ⟨v, hv⟩ := Option.isSome_iff_exists.mp hrow
    simp only [hs, ha, hi, ht, Tx.run_query, if_true, if_false, Bool.false_eq_true]
    rw [Tx.run_update hv]
    rfl

/-- An unpin that runs alone succeeds when the account is ACTIVE, and removes the target. -/
theorem unpin_ok :
    (UserSettingsService.unpinDirectMessage db a t).run settings = .ok ((), settings') ↔
      db.accounts.Active a ∧ (settings a).isSome = true ∧
        settings' = settings.withPinned a ((pinnedOf settings a).filter fun e => !Json.same e (.str t)) := by
  rw [unpin_eq, Tx.run_query]
  constructor
  · intro h
    split at h
    · rename_i ha
      cases hrow : settings a with
      | none => simp [Tx.run, Write.apply, hrow] at h
      | some v =>
        rw [Tx.run_update hrow] at h
        cases h
        exact ⟨ha, rfl, rfl⟩
    · cases h
  · rintro ⟨ha, hrow, rfl⟩
    obtain ⟨v, hv⟩ := Option.isSome_iff_exists.mp hrow
    rw [if_pos ha, Tx.run_update hv]
    rfl

/-- The lookup of an id finds the account with this id. -/
theorem pinTarget_string {target : Account} (h : pinTarget platform db (some (.str t)) = .ok (some target)) :
    target.id = t ∧ db.accounts.Registered t := by
  rw [pinTarget, platform.idCondition_string] at h
  have hf : (db.accounts.findFirst fun e => decide (e.id = t)) = some target := Except.ok.inj h
  have hid : target.id = t := by simpa using List.find?_some hf
  exact ⟨hid, target, List.mem_of_find?_eq_some hf, hid⟩

/-- Whatever the value is, what it finds is an account. -/
theorem registered_of_pinTarget {v : Option Json} {target : Account} (h : pinTarget platform db v = .ok (some target)) :
    db.accounts.Registered target.id := by
  unfold pinTarget at h
  cases hc : platform.idCondition v with
  | error e =>
    rw [hc] at h
    cases h
  | ok condition =>
    rw [hc] at h
    exact ⟨target, List.mem_of_find?_eq_some (Except.ok.inj h), rfl⟩

theorem pinTarget_registered (platform : Platform) (h : db.accounts.Registered t) :
    ∃ target, pinTarget platform db (some (.str t)) = .ok (some target) ∧ target.id = t := by
  obtain ⟨e, he, hid⟩ := findFirst_self h
  refine ⟨e, ?_, hid⟩
  rw [pinTarget, platform.idCondition_string, Except.map, he]

end Transactions

/-! ## Serial runs -/

/-- A call with a string id. -/
inductive PinCall where
  | pinDirectMessage (accountId targetId : String)
  | unpinDirectMessage (accountId targetId : String)
  deriving DecidableEq, Repr

namespace PinCall

/-- The account that calls. -/
def account : PinCall → String
  | .pinDirectMessage a _ | .unpinDirectMessage a _ => a

def op : PinCall → Recency.Op String String
  | .pinDirectMessage a t => .add a t
  | .unpinDirectMessage a t => .remove a t

/-- The settings after a call that runs alone. -/
def exec (platform : Platform) (db : Database) : PinCall → Except (Abort Exception) Settings
  | .pinDirectMessage a t =>
    ((UserSettingsService.pinDirectMessage platform db a (some (.str t))).run db.settings).map Prod.snd
  | .unpinDirectMessage a t => ((UserSettingsService.unpinDirectMessage db a t).run db.settings).map Prod.snd

end PinCall

/-- A database with the calls that led to it, in order. -/
structure Pinning where
  db : Database
  history : List (Recency.Entry String String)

/-- A call, recorded with its outcome. -/
def Pinning.call (platform : Platform) (s : Pinning) (c : PinCall) : Pinning :=
  match c.exec platform s.db with
  | .ok settings => ⟨{ s.db with settings := settings }, s.history ++ [⟨c.op, true⟩]⟩
  | .error _ => ⟨s.db, s.history ++ [⟨c.op, false⟩]⟩

/-- A serial run with its history. -/
def pinRun (platform : Platform) (db : Database) (calls : List PinCall) : Pinning :=
  calls.foldl (Pinning.call platform) ⟨db, []⟩

/-- The ids that `getMe` shows as pinned; a request that throws shows none. -/
def shownPins (findMany : List Account → List Account) (db : Database) (a : String) : List String :=
  match UserService.getMe findMany db a with
  | .ok me => me.pinnedIds
  | .error _ => []

/-- The settings hold the lists that the history makes, of registered accounts other than the own one. -/
structure Pinned (s : Pinning) : Prop where
  stored : ∀ a, s.db.accounts.Registered a →
    s.db.settings a = some (AccountSettings.toJson ⟨(Recency.replay s.history a).map .str⟩)
  registered : ∀ a, ∀ t ∈ Recency.replay s.history a, s.db.accounts.Registered t
  other : ∀ a, a ∉ Recency.replay s.history a
  reflects : ∀ a, Recency.Reflects s.history a (Recency.replay s.history a)

section Runs

variable {platform : Platform} {s : Pinning} {c : PinCall} {a t : String} {findMany : List Account → List Account}

theorem pinnedOf_stored {settings : Settings} {pinned : List String}
    (h : settings a = some (AccountSettings.toJson ⟨pinned.map .str⟩)) : pinnedOf settings a = pinned.map .str := by
  rw [pinnedOf, h]
  rfl

/-- Removing an id from a list of ids. -/
theorem filter_same (pinned : List String) (t : String) :
    (pinned.map Json.str).filter (fun e => !Json.same e (.str t)) = (pinned.filter (· ≠ t)).map .str := by
  rw [List.filter_map]
  congr 1
  exact List.filter_congr fun x _ => by simp [same_str]

/-- What a call is recorded as, and what it leaves. -/
theorem call_cases (platform : Platform) (s : Pinning) (c : PinCall) :
    (∃ settings, c.exec platform s.db = .ok settings ∧
      s.call platform c = ⟨{ s.db with settings := settings }, s.history ++ [⟨c.op, true⟩]⟩) ∨
    (∃ e, c.exec platform s.db = .error e) ∧ s.call platform c = ⟨s.db, s.history ++ [⟨c.op, false⟩]⟩ := by
  unfold Pinning.call
  cases h : c.exec platform s.db with
  | ok settings => exact Or.inl ⟨settings, rfl, rfl⟩
  | error e => exact Or.inr ⟨⟨e, rfl⟩, rfl⟩

/-- A call that succeeds leaves the list that its record makes. -/
theorem exec_ok {settings : Settings} (h : Pinned s) (hc : c.exec platform s.db = .ok settings) :
    (∀ k x, Recency.Entry.mk c.op true = ⟨.add k x, true⟩ →
      x ∉ Recency.replay s.history k ∧ x ≠ k ∧ s.db.accounts.Registered x) ∧
    ∀ k, s.db.accounts.Registered k → settings k =
      some (AccountSettings.toJson ⟨((Recency.Entry.mk c.op true).apply (Recency.replay s.history) k).map .str⟩) := by
  have hupdate : ∀ {a : String} {l : List String}, s.db.accounts.Registered a → ∀ k, s.db.accounts.Registered k →
      s.db.settings.withPinned a (l.map .str) k =
        some (AccountSettings.toJson ⟨(Function.update (Recency.replay s.history) a l k).map .str⟩) := by
    intro a l _ k hk
    by_cases hka : k = a
    · subst hka
      rw [Settings.withPinned, Function.update_self, Function.update_self]
    · rw [Settings.withPinned, Function.update_of_ne hka, Function.update_of_ne hka]
      exact h.stored k hk
  cases c with
  | pinDirectMessage a t =>
    simp only [PinCall.exec] at hc
    cases hr : (UserSettingsService.pinDirectMessage platform s.db a (some (.str t))).run s.db.settings with
    | error e =>
      rw [hr] at hc
      cases hc
    | ok r =>
      obtain ⟨dto, settings'⟩ := r
      rw [hr] at hc
      cases hc
      obtain ⟨target, hadm, -, rfl, -⟩ := pin_ok.mp hr
      obtain ⟨rfl, hreg⟩ := pinTarget_string hadm.found
      have ha := hadm.active.registered
      have hpinned := pinnedOf_stored (h.stored a ha)
      have hfresh := hadm.fresh
      rw [hpinned, ← Bool.not_eq_true, includes_str] at hfresh
      refine ⟨fun k x he => ?_, fun k hk => ?_⟩
      · cases he
        have hother : target.id ≠ a := fun he => by simpa [same_str, he] using hadm.other
        exact ⟨hfresh, hother, hreg⟩
      · have hl : Json.str target.id :: pinnedOf s.db.settings a =
            (target.id :: Recency.replay s.history a).map .str := by
          rw [hpinned, List.map_cons]
        rw [hl]
        exact hupdate ha k hk
  | unpinDirectMessage a t =>
    simp only [PinCall.exec] at hc
    cases hr : (UserSettingsService.unpinDirectMessage s.db a t).run s.db.settings with
    | error e =>
      rw [hr] at hc
      cases hc
    | ok r =>
      obtain ⟨⟨⟩, settings'⟩ := r
      rw [hr] at hc
      cases hc
      obtain ⟨hact, -, rfl⟩ := unpin_ok.mp hr
      refine ⟨fun k x he => (by cases he), fun k hk => ?_⟩
      rw [pinnedOf_stored (h.stored a hact.registered), filter_same]
      exact hupdate hact.registered k hk

/-- **Every call keeps the settings in step with the history.** -/
theorem pinned_call (h : Pinned s) (c : PinCall) : Pinned (s.call platform c) := by
  rcases call_cases platform s c with ⟨settings, hc, he⟩ | ⟨-, he⟩
  · obtain ⟨hnew, hset⟩ := exec_ok h hc
    have hmem : ∀ a t, t ∈ (Recency.Entry.mk c.op true).apply (Recency.replay s.history) a →
        t ≠ a ∧ s.db.accounts.Registered t := by
      intro a t ht
      rcases Recency.mem_apply ht with ht | he
      · exact ⟨fun he => h.other a (he ▸ ht), h.registered a t ht⟩
      · exact (hnew a t he).2
    rw [he]
    constructor
    case stored =>
      intro a ha
      rw [Recency.replay_snoc]
      exact hset a ha
    all_goals simp only [Recency.replay_snoc]
    case registered => exact fun a t ht => (hmem a t ht).2
    case other => exact fun a ha => (hmem a a ha).1 rfl
    case reflects => exact fun a => Recency.reflects_snoc h.reflects _ (fun k x he => (hnew k x he).1) a
  · have happly : (Recency.Entry.mk c.op false).apply (Recency.replay s.history) = Recency.replay s.history := by
      cases c.op <;> rfl
    have hreplay : Recency.replay (s.history ++ [⟨c.op, false⟩]) = Recency.replay s.history := by
      rw [Recency.replay_snoc, happly]
    rw [he]
    constructor
    case reflects =>
      intro a
      have hsnoc := Recency.reflects_snoc h.reflects ⟨c.op, false⟩
        (fun k x he => absurd (Recency.Entry.mk.inj he).2 Bool.false_ne_true) a
      rwa [← Recency.replay_snoc] at hsnoc
    all_goals simp only [hreplay]
    case stored => exact h.stored
    case registered => exact h.registered
    case other => exact h.other

/-- A call changes the settings only. -/
theorem call_accounts (platform : Platform) (s : Pinning) (c : PinCall) :
    (s.call platform c).db.accounts = s.db.accounts := by
  rcases call_cases platform s c with ⟨settings, -, he⟩ | ⟨-, he⟩ <;> rw [he]

/-- An unpin of an ACTIVE account is carried out. -/
theorem unpin_done (platform : Platform) (h : Pinned s) (ha : s.db.accounts.Active a) (t : String) :
    ∃ settings, PinCall.exec platform s.db (.unpinDirectMessage a t) = .ok settings := by
  have hrow : (s.db.settings a).isSome = true := by
    rw [h.stored a ha.registered]
    rfl
  have hrun := (unpin_ok (t := t)).mpr ⟨ha, hrow, rfl⟩
  exact ⟨_, by rw [PinCall.exec, hrun]; rfl⟩

/-- Every unpin has been carried out. -/
def UnpinsDone (history : List (Recency.Entry String String)) : Prop :=
  ∀ e ∈ history, ∀ a t, e.op = .remove a t → e.done = true

theorem unpinsDone_call (h : Pinned s) (hu : UnpinsDone s.history) (ha : s.db.accounts.Active c.account) :
    UnpinsDone (s.call platform c).history := by
  intro e he a t hop
  rcases call_cases platform s c with ⟨settings, -, hcall⟩ | ⟨⟨err, herr⟩, hcall⟩
  · rw [hcall] at he
    rcases List.mem_append.mp he with he | he
    · exact hu e he a t hop
    · cases List.mem_singleton.mp he
      rfl
  · rw [hcall] at he
    rcases List.mem_append.mp he with he | he
    · exact hu e he a t hop
    · cases List.mem_singleton.mp he
      cases c with
      | pinDirectMessage x y => cases hop
      | unpinDirectMessage x y =>
        obtain ⟨settings, hs⟩ := unpin_done platform h ha y
        cases herr.symm.trans hs

/-- A run from empty lists. -/
theorem pinned_run (platform : Platform) {db : Database}
    (hempty : ∀ e ∈ db.accounts.rows, db.settings e.id = some (AccountSettings.toJson ⟨[]⟩))
    {calls : List PinCall} (hactive : ∀ c ∈ calls, db.accounts.Active c.account) :
    Pinned (pinRun platform db calls) ∧ (pinRun platform db calls).db.accounts = db.accounts ∧
      UnpinsDone (pinRun platform db calls).history := by
  have hrun : ∀ (calls : List PinCall) (s : Pinning), (∀ c ∈ calls, s.db.accounts.Active c.account) →
      Pinned s → UnpinsDone s.history →
      Pinned (calls.foldl (Pinning.call platform) s) ∧
        (calls.foldl (Pinning.call platform) s).db.accounts = s.db.accounts ∧
        UnpinsDone (calls.foldl (Pinning.call platform) s).history := by
    intro calls
    induction calls with
    | nil => exact fun s _ h hu => ⟨h, rfl, hu⟩
    | cons c calls ih =>
      intro s hact h hu
      have hacc := call_accounts platform s c
      obtain ⟨hp, ha, hd⟩ := ih (s.call platform c)
        (fun c' hc' => hacc ▸ hact c' (List.mem_cons_of_mem _ hc')) (pinned_call h c)
        (unpinsDone_call h hu (hact c List.mem_cons_self))
      exact ⟨hp, ha.trans hacc, hd⟩
  refine hrun calls ⟨db, []⟩ hactive ⟨?_, fun a t ht => (nomatch ht), fun a ha => (nomatch ha), Recency.reflects_nil⟩
    fun e he => nomatch he
  rintro a ⟨e, he, rfl⟩
  exact hempty e he

/-- `getMe` shows the list that the history makes. -/
theorem shownPins_eq (h : Pinned s) (hfind : ∀ rows, (findMany rows).Perm rows) (ha : s.db.accounts.Registered a) :
    shownPins findMany s.db a = Recency.replay s.history a := by
  obtain ⟨me, hme, hids⟩ := getMe_pinned ha hfind (h.stored a ha) (h.registered a)
  rw [shownPins, hme]
  exact hids

/-- A pin of oneself, of an account that does not exist or that is pinned, or an unpin of one that is not pinned. -/
def PinCall.Idle (s : Pinning) : PinCall → Prop
  | .pinDirectMessage a t => t = a ∨ ¬s.db.accounts.Registered t ∨ t ∈ Recency.replay s.history a
  | .unpinDirectMessage a t => t ∉ Recency.replay s.history a

/-- An idle call leaves the settings. -/
theorem call_idle (h : Pinned s) (hc : c.Idle s) : (s.call platform c).db = s.db := by
  unfold Pinning.call
  cases hx : c.exec platform s.db with
  | error e => rfl
  | ok settings =>
    suffices hs : settings = s.db.settings by rw [hs]
    obtain ⟨hnew, -⟩ := exec_ok h hx
    cases c with
    | pinDirectMessage a t =>
      obtain ⟨hfresh, hother, hreg⟩ := hnew a t rfl
      rcases hc with hc | hc | hc
      · exact absurd hc hother
      · exact absurd hreg hc
      · exact absurd hc hfresh
    | unpinDirectMessage a t =>
      simp only [PinCall.exec] at hx
      cases hr : (UserSettingsService.unpinDirectMessage s.db a t).run s.db.settings with
      | error e =>
        rw [hr] at hx
        cases hx
      | ok r =>
        obtain ⟨⟨⟩, settings'⟩ := r
        rw [hr] at hx
        cases hx
        obtain ⟨hact, -, rfl⟩ := unpin_ok.mp hr
        have hstored := h.stored a hact.registered
        have hsame : (Recency.replay s.history a).filter (· ≠ t) = Recency.replay s.history a :=
          List.filter_eq_self.mpr fun x hx => decide_eq_true fun he => hc (he ▸ hx)
        rw [pinnedOf_stored hstored, filter_same, hsame, Settings.withPinned, ← hstored, Function.update_eq_self]

end Runs

/-- **The pinned list is exact.** From accounts with empty lists, after every serial run of pins and unpins by ACTIVE
accounts, `getMe` shows an account the targets that it has pinned and not unpinned since, each once and never itself,
the most recent pin first; every unpin of the run has been carried out. A pin of oneself, of an account that does not
exist or that is shown as pinned, and an unpin of one that is not shown, change nothing. -/
theorem pinned_list_exact (platform : Platform) (findMany : List Account → List Account)
    (hfind : ∀ rows, (findMany rows).Perm rows) (db : Database)
    (hempty : ∀ e ∈ db.accounts.rows, db.settings e.id = some (.obj [("pinnedDms", .arr [])])) (calls : List PinCall)
    (hactive : ∀ c ∈ calls, db.accounts.Active c.account) :
    let s := pinRun platform db calls
    (∀ a, db.accounts.Registered a →
      ∃ me, UserService.getMe findMany s.db a = .ok me ∧ a ∉ me.pinnedIds ∧ Recency.Reflects s.history a me.pinnedIds) ∧
    (∀ e ∈ s.history, ∀ a t, e.op = .remove a t → e.done = true) ∧
    ∀ a t, db.accounts.Registered a →
      (t = a ∨ ¬db.accounts.Registered t ∨ t ∈ shownPins findMany s.db a →
        (s.call platform (.pinDirectMessage a t)).db = s.db) ∧
      (t ∉ shownPins findMany s.db a → (s.call platform (.unpinDirectMessage a t)).db = s.db) := by
  intro s
  obtain ⟨hp, hacc, hdone⟩ := pinned_run platform hempty hactive
  have hshown : ∀ a, db.accounts.Registered a → shownPins findMany s.db a = Recency.replay s.history a := fun a ha =>
    shownPins_eq hp hfind (hacc ▸ ha)
  refine ⟨fun a ha => ?_, hdone, fun a t ha => ⟨fun ht => call_idle hp ?_, fun ht => call_idle hp ?_⟩⟩
  · obtain ⟨me, hme, hids⟩ := getMe_pinned (hacc ▸ ha) hfind (hp.stored a (hacc ▸ ha)) (hp.registered a)
    refine ⟨me, hme, ?_, ?_⟩
    · rw [hids]
      exact hp.other a
    · rw [hids]
      exact hp.reflects a
  · rw [hshown a ha] at ht
    rwa [PinCall.Idle, hacc]
  · rw [hshown a ha] at ht
    exact ht

/-- alice, bob and carol have pinned nobody. -/
def pinnable : Database where
  accounts := activeAccounts
  settings := fun _ => some (.obj [("pinnedDms", .arr [])])
  sessions := []
  relationships := fun _ => none
  directMessages := []

/-- alice pins bob, carol and bob again, unpins bob and pins him. -/
def alicePins : List PinCall :=
  [.pinDirectMessage "alice" "bob", .pinDirectMessage "alice" "carol", .pinDirectMessage "alice" "bob",
    .unpinDirectMessage "alice" "bob", .pinDirectMessage "alice" "bob"]

/-- bob was pinned last. -/
theorem pinned_list_exact_sample :
    ∃ me, UserService.getMe List.reverse (pinRun stringPlatform pinnable alicePins).db "alice" = .ok me ∧
      me.pinnedIds = ["bob", "carol"] ∧
      Recency.Reflects (pinRun stringPlatform pinnable alicePins).history "alice" me.pinnedIds := by
  obtain ⟨me, hme, -, hreflects⟩ := (pinned_list_exact stringPlatform List.reverse List.reverse_perm pinnable
    (fun _ _ => rfl) alicePins (by decide)).1 "alice" (by decide)
  have hshown : shownPins List.reverse (pinRun stringPlatform pinnable alicePins).db "alice" = ["bob", "carol"] := by
    decide
  rw [shownPins, hme] at hshown
  exact ⟨me, hme, hshown, hreflects⟩

end DiscordClone
