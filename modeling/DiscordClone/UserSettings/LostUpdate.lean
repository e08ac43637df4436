import DiscordClone.Lib.ReadCommitted
import DiscordClone.UserSettings.Pins

/-!
# Pins and unpins side by side

Both operations read the whole settings of the account, change the list and write all of it back, in a transaction at
READ COMMITTED. Nothing makes the row that is written over be the one that was read.

- `StillRead`: at an update the row is still as the transaction has read it.
- `pins_serial`: in a run in which every update meets this, the settings are what the committed calls make of them one
  after the other, in the order of their commits.
- `pins_kept`: so every pin that has committed is there, every unpin too, and all else that was pinned.
-/

namespace DiscordClone

open Transaction

/-- The transaction of a call. -/
def pinBody (platform : Platform) (db : Database) : PinCall → SettingsTx Unit
  | .pinDirectMessage a t => do
    let _ ← UserSettingsService.pinDirectMessage platform db a (some (.str t))
    pure ()
  | .unpinDirectMessage a t => UserSettingsService.unpinDirectMessage db a t

namespace PinCall

def target : PinCall → String
  | .pinDirectMessage _ t | .unpinDirectMessage _ t => t

/-- The list after a call that has succeeded. -/
def listAfter (c : PinCall) (pinned : List Json) : List Json :=
  match c with
  | .pinDirectMessage _ t => .str t :: pinned
  | .unpinDirectMessage _ t => pinned.filter fun e => !Json.same e (.str t)

/-- The settings after a call that has succeeded. -/
def effect (settings : Settings) (c : PinCall) : Settings :=
  settings.withPinned c.account (c.listAfter (pinnedOf settings c.account))

/-- The statement by which a call writes what it has made of the list that it has read. -/
def writeBack (c : PinCall) (read : Settings) : SettingsTx Unit :=
  .exec c.account (.update fun _ => AccountSettings.toJson ⟨c.listAfter (pinnedOf read c.account)⟩) (.ret ())

end PinCall

/-- A transaction of a call. -/
abbrev PinWorker := Worker String Json Exception Unit PinCall

/-- An update finds the row as the transaction has read it: reading it now would lead to the same statement. -/
def StillRead (platform : Platform) (db : Database) (t : Settings) (w : PinWorker) : Prop :=
  ∀ k wr next, w.prog = .exec k wr next → ∀ read, pinBody platform db w.call = .query read →
    w.prog = read (view t w.writes)

/-- What a transaction in flight relies on: it has written nothing, or what its call makes of the committed list. -/
inductive PinInFlight (platform : Platform) (db : Database) (t : Settings) (w : PinWorker) : Prop
  | started (hw : w.writes = fun _ => none) (hp : w.prog = pinBody platform db w.call)
  | hasRead (next : Settings → SettingsTx Unit) (read : Settings) (hw : w.writes = fun _ => none)
      (hb : pinBody platform db w.call = .query next) (hp : w.prog = next read)
  | hasWritten
      (hw : w.writes = Function.update (fun _ => none) w.call.account
        (some (some (AccountSettings.toJson ⟨w.call.listAfter (pinnedOf t w.call.account)⟩))))
      (hp : w.prog = .ret ())

section Serial

variable {platform : Platform} {db : Database}

/-- A transaction is refused before it reads, or it reads and then is refused or writes back. -/
theorem pinBody_cases (platform : Platform) (db : Database) (c : PinCall) :
    (∃ e, pinBody platform db c = .throw e) ∨
      ∃ next, pinBody platform db c = .query next ∧
        ∀ read, (∃ e, next read = .throw e) ∨ next read = c.writeBack read := by
  cases c with
  | pinDirectMessage a t =>
    simp only [pinBody, pin_eq]
    split
    · exact Or.inl ⟨_, rfl⟩
    · refine Or.inr ⟨_, rfl, fun read => ?_⟩
      by_cases ha : db.accounts.Active a
      · by_cases hi : (AccountSettings.mk (pinnedOf read a)).includes (some (.str t)) = true
        · simp only [if_pos ha, if_pos hi]
          exact Or.inl ⟨_, rfl⟩
        · simp only [if_pos ha, if_neg hi]
          cases ht : pinTarget platform db (some (.str t)) with
          | error e => exact Or.inl ⟨e, rfl⟩
          | ok found =>
            cases found with
            | none => exact Or.inl ⟨_, rfl⟩
            | some target =>
              obtain ⟨rfl, -⟩ := pinTarget_string ht
              exact Or.inr rfl
      · simp only [if_neg ha]
        exact Or.inl ⟨_, rfl⟩
  | unpinDirectMessage a t =>
    simp only [pinBody, unpin_eq]
    refine Or.inr ⟨_, rfl, fun read => ?_⟩
    split
    · exact Or.inr rfl
    · exact Or.inl ⟨_, rfl⟩

/-- A transaction that has begun writes only after it has read. -/
theorem pinBody_not_exec {c : PinCall} {k : String} {wr : Write Json} {next : SettingsTx Unit} :
    pinBody platform db c ≠ .exec k wr next := by
  rcases pinBody_cases platform db c with ⟨e, he⟩ | ⟨read, he, -⟩ <;> rw [he] <;> nofun

/-- A transaction that has begun has something to do. -/
theorem pinBody_not_ret {c : PinCall} {u : Unit} : pinBody platform db c ≠ .ret u := by
  rcases pinBody_cases platform db c with ⟨e, he⟩ | ⟨read, he, -⟩ <;> rw [he] <;> nofun

/-- What comes after the read. -/
theorem afterRead_cases {c : PinCall} {next : Settings → SettingsTx Unit} (h : pinBody platform db c = .query next)
    (read : Settings) : (∃ e, next read = .throw e) ∨ next read = c.writeBack read := by
  rcases pinBody_cases platform db c with ⟨e, he⟩ | ⟨next', he, hnext⟩
  · cases he.symm.trans h
  · cases he.symm.trans h
    exact hnext read

theorem view_none (t : Settings) : view t (fun _ => none) = t := rfl

/-- A row that a commit leaves. -/
theorem pinnedOf_view {t : Settings} {w : Tx.Writes String Json} {a : String} (h : w a = none) :
    pinnedOf (view t w) a = pinnedOf t a := by
  simp only [pinnedOf, view, h, Option.getD_none]

/-- **What the transactions have to satisfy.** -/
theorem pin_rules (platform : Platform) (db : Database) :
    Rules (pinBody platform db) (StillRead platform db) (fun _ => True) (PinInFlight platform db) where
  begin _ _ _ := .started rfl rfl
  query t w next _ hj hp := by
    cases hj with
    | started hw hb => exact .hasRead next (view t w.writes) hw (hb.symm.trans hp) rfl
    | hasRead next' read hw hb hp' =>
      rcases afterRead_cases hb read with ⟨e, he⟩ | he
      · cases (hp'.symm.trans hp).symm.trans he
      · cases (hp'.symm.trans hp).symm.trans he
    | hasWritten hw hp' => cases hp'.symm.trans hp
  write t w k wr next v _ hj hstill hp hv := by
    cases hj with
    | started hw hb => exact absurd (hb.symm.trans hp) pinBody_not_exec
    | hasRead next' read hw hb hp' =>
      have hnow : w.prog = next' t := by
        have := hstill k wr next hp next' hb
        rwa [hw, view_none] at this
      rcases afterRead_cases hb t with ⟨e, he⟩ | he
      · cases (hp.symm.trans hnow).trans he
      · have hprog := (hp.symm.trans hnow).trans he
        cases hprog
        rw [hw, view_none] at hv
        refine .hasWritten ?_ rfl
        simp only [hw]
        cases hrow : t w.call.account with
        | none => simp [Write.apply, hrow] at hv
        | some row =>
          simp only [Write.apply, hrow, Except.ok.injEq] at hv
          rw [← hv]
    | hasWritten hw hp' => cases hp'.symm.trans hp
  commit _ _ _ _ _ _ := trivial
  stable t w w' u _ hj hj' hp hapart := by
    cases hj' with
    | started hw hb => exact .started hw hb
    | hasRead next read hw hb hp' => exact .hasRead next read hw hb hp'
    | hasWritten hw hp' =>
      have hfree : w.writes w'.call.account = none := by
        refine (hapart w'.call.account).resolve_right ?_
        rw [hw, Function.update_self]
        exact Option.some_ne_none _
      exact .hasWritten (by rw [pinnedOf_view hfree]; exact hw) hp'

/-- **The runs are serial**, in the order of the commits, when every update finds what its transaction has read. -/
theorem pins_serial {settings : Settings} {events : List (Event PinCall)}
    {s : State String Json Exception Unit PinCall}
    (hread : Machine.Along (step (pinBody platform db)) (OnStatement (StillRead platform db)) (.idle settings) events)
    (hrun : Machine.run (step (pinBody platform db)) (.idle settings) events = some s) :
    s.table = (committed (pinBody platform db) (.idle settings) events).foldl PinCall.effect settings := by
  refine (pin_rules platform db).serial id (f := PinCall.effect) ?_ (sound_idle trivial) hread hrun
  intro t w u _ hj hp
  cases hj with
  | started hw hb => exact absurd (hb.symm.trans hp) pinBody_not_ret
  | hasRead next read hw hb hp' =>
    rcases afterRead_cases hb read with ⟨e, he⟩ | he
    · cases (hp'.symm.trans hp).symm.trans he
    · cases (hp'.symm.trans hp).symm.trans he
  | hasWritten hw hp' =>
    show view t w.writes = PinCall.effect t w.call
    funext k
    rw [hw, view, PinCall.effect, Settings.withPinned]
    by_cases hk : k = w.call.account
    · subst hk
      rw [Function.update_self, Function.update_self, Option.getD_some]
    · rw [Function.update_of_ne hk, Function.update_of_ne hk, Option.getD_none]

end Serial

/-! ## What serial calls leave on a list -/

section Lists

variable {l : List Json} {done : List PinCall} {c : PinCall} {v : Json} {a : String}

/-- A call changes the place of its target only. -/
theorem mem_listAfter_of_ne (hv : v ≠ .str c.target) : v ∈ c.listAfter l ↔ v ∈ l := by
  cases c with
  | pinDirectMessage a t =>
    have hne : v ≠ .str t := hv
    simp [PinCall.listAfter, hne]
  | unpinDirectMessage a t =>
    have hne : Json.same v (.str t) = false := by
      cases v with
      | str u => exact decide_eq_false fun he => hv (congrArg Json.str he)
      | _ => rfl
    simp [PinCall.listAfter, hne]

/-- Calls with other targets leave a value where it is. -/
theorem mem_foldl_of_ne (hv : ∀ c ∈ done, v ≠ .str c.target) :
    v ∈ done.foldl (fun l c => c.listAfter l) l ↔ v ∈ l := by
  induction done generalizing l with
  | nil => exact Iff.rfl
  | cons c done ih =>
    rw [List.foldl_cons, ih fun c' hc' => hv c' (List.mem_cons_of_mem _ hc'),
      mem_listAfter_of_ne (hv c List.mem_cons_self)]

/-- Of calls with different targets, the target of each is where the call has put it. -/
theorem mem_foldl_target (hn : (done.map PinCall.target).Nodup) (hc : c ∈ done) :
    ∃ l', .str c.target ∈ done.foldl (fun l c => c.listAfter l) l ↔ .str c.target ∈ c.listAfter l' := by
  induction done generalizing l with
  | nil => cases hc
  | cons d done ih =>
    obtain ⟨hd, hn⟩ := List.nodup_cons.mp hn
    rw [List.foldl_cons]
    rcases List.mem_cons.mp hc with rfl | hc
    · refine ⟨l, mem_foldl_of_ne fun c' hc' he => hd ?_⟩
      rw [Json.str.inj he]
      exact List.mem_map_of_mem hc'
    · exact ih hn hc

/-- The list of an account is what its own calls make of it. -/
theorem pinnedOf_foldl (settings : Settings) (done : List PinCall) (a : String) :
    pinnedOf (done.foldl PinCall.effect settings) a =
      (done.filter fun c => c.account = a).foldl (fun l c => c.listAfter l) (pinnedOf settings a) := by
  induction done generalizing settings with
  | nil => rfl
  | cons c done ih =>
    rw [List.foldl_cons, ih, List.filter_cons]
    by_cases hc : c.account = a
    · subst hc
      have heff : pinnedOf (PinCall.effect settings c) c.account = c.listAfter (pinnedOf settings c.account) := by
        simp only [pinnedOf, PinCall.effect, Settings.withPinned, Function.update_self]
        rfl
      rw [if_pos (decide_eq_true rfl), List.foldl_cons, heff]
    · have heff : pinnedOf (PinCall.effect settings c) a = pinnedOf settings a := by
        simp only [pinnedOf, PinCall.effect, Settings.withPinned, Function.update_of_ne (Ne.symm hc)]
      rw [if_neg (by simpa using hc), heff]

end Lists

/-- What has been pinned and unpinned by the committed calls of `a`, and what was pinned before. -/
structure PinsKept (a : String) (old : List Json) (done : List PinCall) (pinned : List Json) : Prop where
  pins : ∀ t, .pinDirectMessage a t ∈ done → .str t ∈ pinned
  unpins : ∀ t, .unpinDirectMessage a t ∈ done → .str t ∉ pinned
  others : ∀ v ∈ old, (∀ c ∈ done, c.account = a → v ≠ .str c.target) → v ∈ pinned

/-- **No pin or unpin is lost as long as every update finds the settings as they were read.** For every interleaving of
calls in which `a` calls with different targets, and in every state of such a run. -/
theorem pins_kept (platform : Platform) (db : Database) (settings : Settings) (events : List (Event PinCall))
    (a : String) (hdistinct : (((begun events).filter fun c => c.account = a).map PinCall.target).Nodup)
    (hread : Machine.Along (step (pinBody platform db)) (OnStatement (StillRead platform db)) (.idle settings) events)
    (s : State String Json Exception Unit PinCall)
    (hrun : Machine.run (step (pinBody platform db)) (.idle settings) events = some s) :
    PinsKept a (pinnedOf settings a) (committed (pinBody platform db) (.idle settings) events)
      (pinnedOf s.table a) := by
  have hserial := pins_serial hread hrun
  generalize hdone : committed (pinBody platform db) (.idle settings) events = done at hserial ⊢
  have hcount : ∀ p : PinCall → Bool, done.countP p ≤ (begun events).countP p := fun p => by
    have := countP_committed p hrun
    rw [hdone] at this
    simpa [State.idle] using this
  have hn : ((done.filter fun c => c.account = a).map PinCall.target).Nodup := by
    rw [List.nodup_iff_count_le_one] at hdistinct ⊢
    intro t
    refine Nat.le_trans ?_ (hdistinct t)
    simp only [List.count_eq_countP, List.countP_map, List.countP_filter]
    exact hcount _
  rw [hserial, pinnedOf_foldl]
  constructor
  case pins =>
    intro t ht
    have hmem : PinCall.pinDirectMessage a t ∈ done.filter fun c => c.account = a :=
      List.mem_filter.mpr ⟨ht, decide_eq_true rfl⟩
    obtain ⟨l, hl⟩ := mem_foldl_target (l := pinnedOf settings a) hn hmem
    exact hl.mpr List.mem_cons_self
  case unpins =>
    intro t ht
    have hmem : PinCall.unpinDirectMessage a t ∈ done.filter fun c => c.account = a :=
      List.mem_filter.mpr ⟨ht, decide_eq_true rfl⟩
    obtain ⟨l, hl⟩ := mem_foldl_target (l := pinnedOf settings a) hn hmem
    intro h
    have := hl.mp h
    simp [PinCall.listAfter, PinCall.target, same_str] at this
  case others =>
    intro v hv hne
    refine (mem_foldl_of_ne fun c hc => ?_).mpr hv
    obtain ⟨hc, hca⟩ := List.mem_filter.mp hc
    exact hne c hc (of_decide_eq_true hca)

/-- alice pins bob and carol, one after the other. -/
def pinsInTurn : List (Event PinCall) :=
  [.begin (.pinDirectMessage "alice" "bob"), .begin (.pinDirectMessage "alice" "carol"), .stmt 0, .stmt 0, .commit 0,
    .stmt 0, .stmt 0, .commit 0]

/-- alice pins bob and carol, and both transactions read before either writes. -/
def pinsAcross : List (Event PinCall) :=
  [.begin (.pinDirectMessage "alice" "bob"), .begin (.pinDirectMessage "alice" "carol"), .stmt 0, .stmt 1, .stmt 0,
    .commit 0, .stmt 0, .commit 0]

/-- Both pins are there when the second transaction reads after the first one has committed. -/
theorem pins_kept_sample :
    ∃ s, Machine.run (step (pinBody stringPlatform pinnable)) (.idle pinnable.settings) pinsInTurn = some s ∧
      pinnedOf s.table "alice" = [.str "carol", .str "bob"] ∧
      PinsKept "alice" (pinnedOf pinnable.settings "alice")
        (committed (pinBody stringPlatform pinnable) (.idle pinnable.settings) pinsInTurn)
        (pinnedOf s.table "alice") := by
  refine ⟨_, rfl, rfl, pins_kept stringPlatform pinnable pinnable.settings pinsInTurn "alice" (by decide) ?_ _ rfl⟩
  refine ⟨nofun, ?_⟩
  rintro _ ⟨⟩
  refine ⟨nofun, ?_⟩
  rintro _ ⟨⟩
  refine ⟨?_, ?_⟩
  · rintro i w ⟨⟩ ⟨⟩ k wr next ⟨⟩
  rintro _ ⟨⟩
  refine ⟨?_, ?_⟩
  · rintro i w ⟨⟩ ⟨⟩ k wr next ⟨⟩ read ⟨⟩
    rfl
  rintro _ ⟨⟩
  refine ⟨nofun, ?_⟩
  rintro _ ⟨⟩
  refine ⟨?_, ?_⟩
  · rintro i w ⟨⟩ ⟨⟩ k wr next ⟨⟩
  rintro _ ⟨⟩
  refine ⟨?_, ?_⟩
  · rintro i w ⟨⟩ ⟨⟩ k wr next ⟨⟩ read ⟨⟩
    rfl
  rintro _ ⟨⟩
  exact ⟨nofun, fun _ _ => trivial⟩

/-- The pin of bob succeeds and is lost: the transaction that pins carol writes back the list that it has read
before. -/
theorem pins_kept_stale :
    ∃ s, Machine.run (step (pinBody stringPlatform pinnable)) (.idle pinnable.settings) pinsAcross = some s ∧
      s.active = [] ∧ ((begun pinsAcross).map PinCall.target).Nodup ∧
      committed (pinBody stringPlatform pinnable) (.idle pinnable.settings) pinsAcross =
        [.pinDirectMessage "alice" "bob", .pinDirectMessage "alice" "carol"] ∧
      pinnedOf s.table "alice" = [.str "carol"] ∧
      ¬PinsKept "alice" (pinnedOf pinnable.settings "alice")
        (committed (pinBody stringPlatform pinnable) (.idle pinnable.settings) pinsAcross)
        (pinnedOf s.table "alice") := by
  refine ⟨_, rfl, rfl, by decide, rfl, rfl, fun h => ?_⟩
  have hgone : Json.str "bob" ∉ [Json.str "carol"] := by simp
  exact hgone (h.pins "bob" List.mem_cons_self)

end DiscordClone
