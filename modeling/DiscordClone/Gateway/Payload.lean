import DiscordClone.Gateway.Chat
import DiscordClone.UserSettings.Pins

/-!
# What a join message can pin

The handler of `join-dm-room` hands `data.targetId` to `pinDirectMessage` as it is. The self check and the check for a
pinned account compare it with strings, and the lookup takes it for a condition: `undefined` is no condition at all, and
an object is a filter.

A run is a list of join messages of the sockets of one account, handled one after another. `join_sound_iff`: one message
keeps the list sound exactly when it is `Harmless`, and `joins_sound_iff` says so of runs.
-/

namespace DiscordClone

open Json (Obj)

/-- A join message: the id of its socket and its data. -/
structure JoinMessage where
  socketId : String
  data : List (String × Json)

/-- `data.targetId`. -/
def JoinMessage.targetId (m : JoinMessage) : Option Json := (Obj.spread m.data).get "targetId"

/-- The server with the strings that the messages have carried. -/
structure Joining where
  chat : Chat
  carried : List String

/-- The strings of a value that is one. -/
def stringsOf : Option Json → List String
  | some (.str t) => [t]
  | _ => []

/-- A message of a socket of `a`. -/
def Joining.step (platform : Platform) (a : String) (s : Joining) (m : JoinMessage) : Option Joining :=
  some
    { chat := ChatGateway.handleJoinDirectMessageRoom platform s.chat ⟨m.socketId, a⟩ m.targetId
      carried := stringsOf m.targetId ++ s.carried }

/-- The pinned list of `a`. -/
def Joining.pinned (s : Joining) (a : String) : List Json := pinnedOf s.chat.db.settings a

/-- The list repeats nothing, does not hold `a`, and has gained strings only that the messages have carried. -/
structure SoundPins (a : String) (old : List Json) (s : Joining) : Prop where
  nodup : (s.pinned a).Pairwise fun v w => Json.same v w = false
  other : .str a ∉ s.pinned a
  gained : ∀ v ∈ s.pinned a, v ∈ old ∨ ∃ t ∈ s.carried, v = .str t

/-- The message carries a string, or is refused: it does not pass the checks, or its lookup finds no account. -/
def Harmless (platform : Platform) (a : String) (s : Joining) (m : JoinMessage) : Prop :=
  (∃ t, m.targetId = some (.str t)) ∨
    ∀ target, ¬PinAdmits platform s.chat.db s.chat.db.settings a m.targetId target

/-- Nothing is lost, and a string that was carried is pinned if it can be. -/
structure KeptPins (a : String) (old : List Json) (s : Joining) : Prop where
  row : (s.chat.db.settings a).isSome = true
  kept : ∀ v ∈ old, v ∈ s.pinned a
  carried : ∀ t ∈ s.carried, s.chat.db.accounts.Active a → s.chat.db.accounts.Registered t → t ≠ a →
    .str t ∈ s.pinned a

section Steps

variable {platform : Platform} {a : String} {old : List Json} {s s' : Joining} {m : JoinMessage} {t : String}

/-- Another value than those of a list of values that are compared with `===`. -/
theorem includes_eq_false {pinned : List Json} {v : Json} :
    (AccountSettings.mk pinned).includes (some v) = false ↔ ∀ w ∈ pinned, Json.same v w = false := by
  simp [AccountSettings.includes]

theorem stringsOf_eq_nil {v : Option Json} (h : ∀ t, v ≠ some (.str t)) : stringsOf v = [] := by
  unfold stringsOf
  split
  · rename_i t
    exact absurd rfl (h t)
  · rfl

/-- **What a message does**: it pins the account that its lookup finds, or nothing. -/
theorem joining_cases (hrow : (s.chat.db.settings a).isSome = true) (h : s.step platform a m = some s') :
    s'.carried = stringsOf m.targetId ++ s.carried ∧ s'.chat.db.accounts = s.chat.db.accounts ∧
      (s'.chat.db.settings a).isSome = true ∧
      ((∃ target, PinAdmits platform s.chat.db s.chat.db.settings a m.targetId target ∧
          s'.pinned a = .str target.id :: s.pinned a) ∨
        (∀ target, ¬PinAdmits platform s.chat.db s.chat.db.settings a m.targetId target) ∧
          s'.pinned a = s.pinned a) := by
  cases h
  unfold ChatGateway.handleJoinDirectMessageRoom Joining.pinned
  cases hr : (UserSettingsService.pinDirectMessage platform s.chat.db a m.targetId).run s.chat.db.settings with
  | ok r =>
    obtain ⟨dto, settings⟩ := r
    obtain ⟨target, hadm, -, rfl, -⟩ := pin_ok.mp hr
    refine ⟨rfl, rfl, ?_, Or.inl ⟨target, hadm, ?_⟩⟩
    · simp [Settings.withPinned]
    · simp only [pinnedOf, Settings.withPinned, Function.update_self]
      rfl
  | error e =>
    refine ⟨rfl, rfl, hrow, Or.inr ⟨fun target hadm => ?_, rfl⟩⟩
    have hok := pin_ok.mpr ⟨target, hadm, hrow, rfl, rfl⟩
    cases hr.symm.trans hok

/-- What is pinned stays pinned. -/
theorem kept_step (h : KeptPins a old s) (hs : s.step platform a m = some s') : KeptPins a old s' := by
  obtain ⟨hcarried, hacc, hrow, hcases⟩ := joining_cases h.row hs
  have hsub : ∀ v ∈ s.pinned a, v ∈ s'.pinned a := by
    intro v hv
    rcases hcases with ⟨target, -, he⟩ | ⟨-, he⟩
    · rw [he]
      exact List.mem_cons_of_mem _ hv
    · rwa [he]
  refine ⟨hrow, fun v hv => hsub v (h.kept v hv), fun t ht hact hreg hne => ?_⟩
  rw [hacc] at hact hreg
  rw [hcarried] at ht
  rcases List.mem_append.mp ht with ht | ht
  · -- the message carries `t`, which is pinned unless it was before
    have hm : m.targetId = some (.str t) := by
      unfold stringsOf at ht
      split at ht
      · rename_i u hu
        cases List.mem_singleton.mp ht
        exact hu
      · cases ht
    rcases hcases with ⟨target, hadm, he⟩ | ⟨hno, he⟩
    · rw [hm] at hadm
      obtain ⟨rfl, -⟩ := pinTarget_string hadm.found
      rw [he]
      exact List.mem_cons_self
    · rw [he]
      by_contra hfresh
      obtain ⟨target, hfound, hid⟩ := pinTarget_registered platform hreg
      have hother : (some (Json.str t)).any (Json.same (.str a)) = false := by
        simpa [same_str] using fun he : a = t => hne he.symm
      have hnew : (AccountSettings.mk (pinnedOf s.chat.db.settings a)).includes (some (.str t)) = false := by
        refine includes_eq_false.mpr fun w hw => ?_
        cases w with
        | str u => exact decide_eq_false fun he => hfresh (he ▸ hw)
        | _ => rfl
      exact hno target (hm ▸ ⟨hother, hact, hnew, hfound⟩)
  · exact hsub _ (h.carried t ht hact hreg hne)

/-- A message that pins nothing. -/
theorem sound_same (h : SoundPins a old s) (hcarried : s'.carried = stringsOf m.targetId ++ s.carried)
    (he : s'.pinned a = s.pinned a) : SoundPins a old s' := by
  refine ⟨by rw [he]; exact h.nodup, by rw [he]; exact h.other, fun v hv => ?_⟩
  rw [he] at hv
  rcases h.gained v hv with hold | ⟨t, ht, rfl⟩
  · exact Or.inl hold
  · exact Or.inr ⟨t, by rw [hcarried]; exact List.mem_append_right _ ht, rfl⟩

/-- A new id that the message carries. -/
theorem sound_pin (h : SoundPins a old s) (ht : m.targetId = some (.str t)) (hne : t ≠ a)
    (hfresh : (AccountSettings.mk (s.pinned a)).includes (some (.str t)) = false)
    (hcarried : s'.carried = stringsOf m.targetId ++ s.carried) (he : s'.pinned a = .str t :: s.pinned a) :
    SoundPins a old s' := by
  constructor
  case nodup =>
    rw [he]
    exact List.pairwise_cons.mpr ⟨includes_eq_false.mp hfresh, h.nodup⟩
  case other =>
    rw [he, List.mem_cons, not_or]
    exact ⟨fun heq => hne (Json.str.inj heq).symm, h.other⟩
  case gained =>
    intro v hv
    rw [he, List.mem_cons] at hv
    rw [hcarried, ht]
    rcases hv with rfl | hv
    · exact Or.inr ⟨_, List.mem_cons_self, rfl⟩
    · rcases h.gained v hv with hold | ⟨u, hu, rfl⟩
      · exact Or.inl hold
      · exact Or.inr ⟨u, List.mem_cons_of_mem _ hu, rfl⟩

/-- An id that no message has carried is not new: it is pinned already, or it is not to be pinned. -/
theorem not_sound_uncarried (hk : KeptPins a old s) (hact : s.chat.db.accounts.Active a)
    (hreg : s.chat.db.accounts.Registered t) (hcarried : s'.carried = s.carried)
    (he : s'.pinned a = .str t :: s.pinned a) : ¬SoundPins a old s' := by
  intro h'
  have hnodup := h'.nodup
  have hother := h'.other
  have hgained := h'.gained (.str t) (by rw [he]; exact List.mem_cons_self)
  rw [he] at hnodup hother
  have hpinned : .str t ∉ s.pinned a := fun hmem => by
    have hsame := List.rel_of_pairwise_cons hnodup hmem
    simp [same_str] at hsame
  rcases hgained with hold | ⟨u, hu, heq⟩
  · exact hpinned (hk.kept _ hold)
  · cases heq
    rw [hcarried] at hu
    exact hpinned (hk.carried _ hu hact hreg fun heq => hother (heq ▸ List.mem_cons_self))

/-- **One message keeps the list sound exactly when it is harmless.** -/
theorem join_sound_iff (h : SoundPins a old s) (hk : KeptPins a old s) (hs : s.step platform a m = some s') :
    SoundPins a old s' ↔ Harmless platform a s m := by
  obtain ⟨hcarried, -, -, hcases⟩ := joining_cases hk.row hs
  rcases hcases with ⟨target, hadm, he⟩ | ⟨hno, he⟩
  · constructor
    · intro h'
      by_contra hbad
      rw [Harmless, not_or, not_exists] at hbad
      -- the account was found by something else than its id
      rw [stringsOf_eq_nil hbad.1, List.nil_append] at hcarried
      exact not_sound_uncarried hk hadm.active (registered_of_pinTarget hadm.found) hcarried he h'
    · rintro (⟨t, ht⟩ | hno)
      · rw [ht] at hadm
        obtain ⟨rfl, -⟩ := pinTarget_string hadm.found
        have hne : target.id ≠ a := fun heq => by simpa [same_str, heq] using hadm.other
        exact sound_pin h ht hne hadm.fresh hcarried he
      · exact absurd hadm (hno target)
  · exact iff_of_true (sound_same h hcarried he) (Or.inr hno)

end Steps

/-- **The pinned list stays sound as long as no value but a string finds an account.** For every store in which the list
of `a` is sound, and every run of join messages of its sockets with any data: the list is sound in every state of the
run exactly when every message is harmless. -/
theorem joins_sound_iff (platform : Platform) (a : String) (chat : Chat) (hrow : (chat.db.settings a).isSome = true)
    (hnodup : (pinnedOf chat.db.settings a).Pairwise fun v w => Json.same v w = false)
    (hother : .str a ∉ pinnedOf chat.db.settings a) (messages : List JoinMessage) :
    Machine.Always (Joining.step platform a) (SoundPins a (pinnedOf chat.db.settings a)) ⟨chat, []⟩ messages ↔
      Machine.Along (Joining.step platform a) (Harmless platform a) ⟨chat, []⟩ messages := by
  have hsound : SoundPins a (pinnedOf chat.db.settings a) ⟨chat, []⟩ := ⟨hnodup, hother, fun v hv => Or.inl hv⟩
  have hkept : KeptPins a (pinnedOf chat.db.settings a) ⟨chat, []⟩ :=
    ⟨hrow, fun v hv => hv, fun t ht => nomatch ht⟩
  obtain ⟨s, hrun⟩ := Machine.run_total (fun s m => ⟨_, rfl⟩) (⟨chat, []⟩ : Joining) messages
  rw [← Machine.always_and (fun s m s' h hs => kept_step h hs) hkept]
  refine Machine.always_iff_along (fun s m s' h hs => ?_) ⟨hsound, hkept⟩ hrun
  rw [and_iff_left (kept_step h.2 hs)]
  exact join_sound_iff h.1 h.2 hs

/-- Two messages of alice: one carries the id of bob, and the other one `null`, which is refused. -/
def bobThenNull : List JoinMessage := [⟨"s1", [("targetId", .str "bob")]⟩, ⟨"s1", [("targetId", .null)]⟩]

/-- The list of alice stays sound. -/
theorem joins_sound_sample :
    Machine.Always (Joining.step stringPlatform "alice") (SoundPins "alice" []) ⟨.connected pinnable [], []⟩
      bobThenNull := by
  refine (joins_sound_iff stringPlatform "alice" (.connected pinnable []) rfl .nil nofun bobThenNull).mpr ?_
  refine ⟨Or.inl ⟨"bob", rfl⟩, fun s _ => ⟨Or.inr fun target hadm => ?_, fun _ _ => trivial⟩⟩
  cases hadm.found

/-- A message of alice without `targetId` pins the first account there is, which is her own. -/
theorem joins_sound_undefined :
    ∃ s, Machine.run (Joining.step stringPlatform "alice") ⟨.connected pinnable [], []⟩ [⟨"s1", []⟩] = some s ∧
      s.pinned "alice" = [.str "alice"] ∧ s.carried = [] ∧
      ¬Machine.Always (Joining.step stringPlatform "alice") (SoundPins "alice" []) ⟨.connected pinnable [], []⟩
        [⟨"s1", []⟩] := by
  refine ⟨_, rfl, rfl, rfl, fun h => ?_⟩
  exact (h.2 _ rfl).other List.mem_cons_self

end DiscordClone
