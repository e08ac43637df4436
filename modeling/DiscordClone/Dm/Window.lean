import DiscordClone.Dm.Paging

/-!
# The window of a query

The checks of `getDirectMessages.query.ts`, as the validation pipe of `main.ts` makes them, the endpoint of
`dm.controller.ts`, and which messages it answers with. `skip || (page ? ... : 0)` takes `skip` for absent when it is 0,
and the checks let pass a negative `skip`, and a `skip` or a `page` that no offset of the database can hold.

- `validate_iff`: what the checks let pass, with the defaults filled in.
- `window_iff`: the answer is the window that the query means exactly when the query is `Answerable`.
  `answer_iff` says when the rows are those of that window in spite of another offset.
- `own_conversations`: the endpoint shows an account its own messages only.
-/

namespace DiscordClone

open Paging

/-! ## The checks -/

/-- A number that `@Type(() => Number)` reads: an integer, or a fraction, an infinity or `NaN`. -/
inductive QueryNumber where
  | integer (n : Double.Integer)
  | other
  deriving DecidableEq, Repr

/-- The fields of a query string with their numbers read; a field that is absent is `none`. -/
structure QueryFields where
  senderId : Option Json
  targetId : Option Json
  take : Option QueryNumber := none
  page : Option QueryNumber := none
  skip : Option QueryNumber := none

/-- What the pipe throws for the first check that fails. -/
def invalidField (text : String) : Exception :=
  .mk text HttpStatus.BAD_REQUEST CustomErrorCode.COMMON__INVALID_DATA_FIELD

/-- `@IsNotEmpty` and then `@IsString`. -/
def filledString (field : String) : Option Json → Except Exception String
  | none | some .null => .error (invalidField (field ++ " should not be empty"))
  | some (.str s) => if s = "" then .error (invalidField (field ++ " should not be empty")) else .ok s
  | some _ => .error (invalidField (field ++ " must be a string"))

/-- `@IsInt`, `@Min` and then `@Max`. -/
def integerIn (field : String) (min max : Option Int) : QueryNumber → Except Exception Double.Integer
  | .other => .error (invalidField (field ++ " must be an integer number"))
  | .integer n =>
    match min.filter (n.val < ·), max.filter (· < n.val) with
    | some m, _ => .error (invalidField (field ++ " must not be less than " ++ toString m))
    | none, some m => .error (invalidField (field ++ " must not be greater than " ++ toString m))
    | none, none => .ok n

/-- The query that passes the checks of `GetDirectMessagesQuery`. -/
def GetDirectMessagesQuery.validate (fields : QueryFields) : Except Exception GetDirectMessagesQuery := do
  let senderId ← filledString "senderId" fields.senderId
  let targetId ← filledString "targetId" fields.targetId
  let take ← integerIn "take" (some 1) (some 5000) (fields.take.getD (.integer ⟨5000, by decide⟩))
  let page ← integerIn "page" (some 1) none (fields.page.getD (.integer 1))
  let skip ← fields.skip.mapM (integerIn "skip" none none)
  pure { senderId, targetId, take := take.val.toNat, page := some page, skip }

/-- `getDirectMessages` of the controller, for the account `sub`. -/
def DirectMessageController.getDirectMessages (order : List DirectMessage → List DirectMessage) (db : Database)
    (sub : String) (fields : QueryFields) : Except Exception (List DirectMessage) := do
  let query ← GetDirectMessagesQuery.validate fields
  if sub ≠ query.senderId then .error .forbidden
  else DirectMessageService.getDirectMessages order db query

/-- The fields pass the checks as this query. -/
structure Passes (fields : QueryFields) (data : GetDirectMessagesQuery) : Prop where
  senderId : fields.senderId = some (.str data.senderId) ∧ data.senderId ≠ ""
  targetId : fields.targetId = some (.str data.targetId) ∧ data.targetId ≠ ""
  take : (∃ take, fields.take.getD (.integer ⟨5000, by decide⟩) = .integer take ∧ take.val = data.take) ∧
    1 ≤ data.take ∧ data.take ≤ 5000
  page : ∃ page, data.page = some page ∧ fields.page.getD (.integer 1) = .integer page ∧ 1 ≤ page.val
  skip : fields.skip = data.skip.map .integer

section Checks

variable {field : String} {fields : QueryFields} {data : GetDirectMessagesQuery}

theorem filledString_ok {v : Option Json} {s : String} : filledString field v = .ok s ↔ v = some (.str s) ∧ s ≠ "" := by
  constructor
  · intro h
    unfold filledString at h
    split at h
    · cases h
    · cases h
    · split at h
      · cases h
      · cases h
        rename_i hs
        exact ⟨rfl, hs⟩
    · cases h
  · rintro ⟨rfl, hs⟩
    exact if_neg hs

theorem integerIn_ok {min max : Option Int} {v : QueryNumber} {n : Double.Integer} :
    integerIn field min max v = .ok n ↔ v = .integer n ∧ (∀ m ∈ min, m ≤ n.val) ∧ ∀ m ∈ max, n.val ≤ m := by
  have hbounds : ∀ n : Double.Integer, min.filter (n.val < ·) = none ∧ max.filter (· < n.val) = none ↔
      (∀ m ∈ min, m ≤ n.val) ∧ ∀ m ∈ max, n.val ≤ m := fun n => by
    simp [Option.filter_eq_none_iff]
  constructor
  · intro h
    unfold integerIn at h
    split at h
    · cases h
    · split at h
      · cases h
      · cases h
      · rename_i hmin hmax
        cases h
        exact ⟨rfl, (hbounds n).mp ⟨hmin, hmax⟩⟩
  · rintro ⟨rfl, h⟩
    obtain ⟨hmin, hmax⟩ := (hbounds n).mpr h
    simp only [integerIn, hmin, hmax]

/-- Integers that pass no other check. -/
theorem mapM_integerIn_ok {v : Option QueryNumber} {skip : Option Double.Integer} :
    v.mapM (integerIn field none none) = .ok skip ↔ v = skip.map .integer := by
  cases v with
  | none => cases skip <;> simp [pure, Except.pure]
  | some v =>
    rw [Option.mapM_some]
    constructor
    · intro h
      cases hn : integerIn field none none v with
      | error x =>
        rw [hn] at h
        cases h
      | ok n =>
        rw [hn] at h
        cases h
        rw [(integerIn_ok.mp hn).1]
        rfl
    · intro h
      obtain ⟨n, rfl, rfl⟩ := Option.map_eq_some_iff.mp h.symm
      rfl

/-- **What the checks let pass.** -/
theorem validate_iff : GetDirectMessagesQuery.validate fields = .ok data ↔ Passes fields data := by
  unfold GetDirectMessagesQuery.validate
  simp only [bind_eq_ok, filledString_ok, integerIn_ok, mapM_integerIn_ok]
  constructor
  · rintro ⟨senderId, hsender, targetId, htarget, take, ⟨htake, hmin, hmax⟩, page, ⟨hpage, hpos, -⟩, skip, hskip, hdata⟩
    cases hdata
    have hmin : 1 ≤ take.val := hmin 1 rfl
    have hmax : take.val ≤ 5000 := hmax 5000 rfl
    have hpos : 1 ≤ page.val := hpos 1 rfl
    refine ⟨hsender, htarget, ⟨⟨take, htake, ?_⟩, ?_, ?_⟩, ⟨page, rfl, hpage, hpos⟩, hskip⟩
    · exact (Int.toNat_of_nonneg (by omega)).symm
    · simp only
      omega
    · simp only
      omega
  · rintro ⟨hsender, htarget, ⟨⟨take, htake, hval⟩, hmin, hmax⟩, ⟨page, hpage, hp, hpos⟩, hskip⟩
    refine ⟨_, hsender, _, htarget, take, ⟨htake, fun m hm => ?_, fun m hm => ?_⟩, page,
      ⟨hp, fun m hm => ?_, fun m hm => absurd hm (Option.not_mem_none m)⟩, _, hskip, ?_⟩
    · cases hm
      omega
    · cases hm
      omega
    · cases hm
      exact hpos
    · cases data
      cases hpage
      simp only at hval
      rw [hval, Int.toNat_natCast]
      rfl

end Checks

/-! ## The window -/

/-- The offset that a query means: `skip` if it is supplied, and the beginning of the page otherwise. -/
def GetDirectMessagesQuery.requested (data : GetDirectMessagesQuery) : Int :=
  match data.skip with
  | some skip => skip.val
  | none => data.take * (data.page.elim 1 Double.Integer.val - 1)

/-- `take` messages from this offset on, in the order that `findMany` chooses for the conversation. -/
def windowOf (order : List DirectMessage → List DirectMessage) (db : Database) (data : GetDirectMessagesQuery)
    (offset : Int) : List DirectMessage :=
  ((order (messagesBetween db data.senderId data.targetId)).drop offset.toNat).take data.take

/-- The database is asked for the offset that the query means, which is not negative, and the answer is the window at
this offset, in whatever order the messages of one instant come. -/
structure WindowExact (db : Database) (data : GetDirectMessagesQuery) : Prop where
  asked : data.offset.map Double.Integer.val = some data.requested
  nonneg : 0 ≤ data.requested
  returned : ∀ order, OrdersByCreatedAt order →
    DirectMessageService.getDirectMessages order db data = .ok (windowOf order db data data.requested)

/-- A `skip` that is supplied is positive, or is 0 on page 1; the offset that the query means is a double and has 64
bits; and the ids have no NUL. -/
structure Answerable (data : GetDirectMessagesQuery) : Prop where
  supplied : ∀ skip ∈ data.skip, 0 < skip.val ∨ skip.val = 0 ∧ data.page = some 1
  value : Double.IsValue data.requested
  bounded : data.requested < 2 ^ 63
  storable : Storable data.senderId ∧ Storable data.targetId

section Window

variable {db : Database} {fields : QueryFields} {data : GetDirectMessagesQuery}
  {order : List DirectMessage → List DirectMessage} {page skip : Double.Integer}

theorem offset_supplied (hs : data.skip = some skip) (hne : skip.val ≠ 0) : data.offset = some skip := by
  simp only [GetDirectMessagesQuery.offset, hs, if_pos hne]

/-- The beginning of a page, if it is a double. -/
theorem offset_exact (hpage : data.page = some page) (hpos : 1 ≤ page.val) (htake : 0 < data.take)
    (hs : ∀ skip ∈ data.skip, skip.val = 0) (h : Double.IsValue (data.take * (page.val - 1))) :
    data.offset = some ⟨data.take * (page.val - 1), h⟩ := by
  rw [offset_paged hpage (by omega) hs, Double.round_of_isValue (Double.isValue_pred htake hpos h), Option.bind_some]
  exact Double.round_of_isValue h

/-- Page 1 is the only one that begins at row 0. -/
theorem page_one {offset : Double.Integer} (hpage : data.page = some page) (hpos : 1 ≤ page.val) (htake : 0 < data.take)
    (hs : ∀ skip ∈ data.skip, skip.val = 0) (hoff : data.offset = some offset) (hzero : offset.val = 0) :
    page.val = 1 := by
  rw [offset_paged hpage (by omega) hs, Option.bind_eq_some_iff] at hoff
  obtain ⟨before, hbefore, hoffset⟩ := hoff
  by_contra hne
  have hone : 1 ≤ before.val := Double.le_of_round (x := 1) (by decide) (by rw [Double.Integer.val_one]; omega) hbefore
  have hmul : 1 ≤ (data.take : Int) * before.val := Int.mul_pos (by omega) hone
  have hle : 1 ≤ offset.val := Double.le_of_round (x := 1) (by decide) hmul hoffset
  omega

/-- An answer is the window at the offset that has reached the database. -/
theorem answer_window {n : Nat} (h : data.skipped = .ok n) :
    DirectMessageService.getDirectMessages order db data = .ok (windowOf order db data n) := by
  unfold DirectMessageService.getDirectMessages
  rw [h]
  rfl

theorem answer_refused {e : Exception} (h : data.skipped = .error e) :
    DirectMessageService.getDirectMessages order db data = .error e := by
  unfold DirectMessageService.getDirectMessages
  rw [h]
  rfl

/-- **The offset that is meant reaches the database** exactly when the query is answerable. -/
theorem answerable_iff (h : Passes fields data) : Answerable data ↔
    data.offset.map Double.Integer.val = some data.requested ∧ 0 ≤ data.requested ∧
      data.skipped = .ok data.requested.toNat := by
  obtain ⟨page, hpage, -, hpos⟩ := h.page
  have htake : 0 < data.take := h.take.2.1
  constructor
  · intro ha
    have hoffset : 0 ≤ data.requested ∧ data.offset = some ⟨data.requested, ha.value⟩ := by
      cases hs : data.skip with
      | none =>
        have hrequested : data.requested = data.take * (page.val - 1) := by
          rw [GetDirectMessagesQuery.requested, hs, hpage]
          rfl
        have hvalue := hrequested ▸ ha.value
        refine ⟨hrequested ▸ Int.mul_nonneg (by omega) (by omega), ?_⟩
        simp only [hrequested]
        have hnone : ∀ skip ∈ data.skip, skip.val = 0 := fun skip hskip => by
          rw [hs] at hskip
          exact absurd hskip (Option.not_mem_none skip)
        exact offset_exact hpage hpos htake hnone hvalue
      | some skip =>
        have hrequested : data.requested = skip.val := by rw [GetDirectMessagesQuery.requested, hs]
        rcases ha.supplied skip hs with hskip | ⟨hzero, hone⟩
        · simp only [hrequested]
          exact ⟨hskip.le, offset_supplied hs hskip.ne'⟩
        · have hfirst : (data.take * (page.val - 1) : Int) = 0 := by
            cases hpage.symm.trans hone
            simp
          have hskips : ∀ skip ∈ data.skip, skip.val = 0 := fun s hs' => by
            cases hs.symm.trans hs'
            exact hzero
          have hoff := offset_exact hpage hpos htake hskips (by rw [hfirst]; decide)
          simp only [hfirst] at hoff
          simp only [hrequested, hzero]
          exact ⟨le_refl _, hoff⟩
    refine ⟨by rw [hoffset.2]; rfl, hoffset.1, ?_⟩
    have hbounded := ha.bounded
    exact skipped_ok.mpr ⟨⟨_, hoffset.2, by simp only; omega⟩, by omega, ha.storable⟩
  · rintro ⟨hasked, hnonneg, hskipped⟩
    obtain ⟨offset, hoffset, hval⟩ := Option.map_eq_some_iff.mp hasked
    obtain ⟨-, hbounded, hstorable⟩ := skipped_ok.mp hskipped
    refine ⟨fun skip hs => ?_, hval ▸ offset.isValue, by omega, hstorable⟩
    have hrequested : data.requested = skip.val := by rw [GetDirectMessagesQuery.requested, Option.mem_def.mp hs]
    by_cases hzero : skip.val = 0
    · refine Or.inr ⟨hzero, ?_⟩
      have hone := page_one hpage hpos htake (by rintro s hs'; cases hs.symm.trans hs'; exact hzero) hoffset (by omega)
      rw [hpage, Option.some.injEq, Double.Integer.mk.injEq]
      exact hone
    · exact Or.inl (by omega)

/-- **When the rows are those of the window that the query means**: the offset that reaches the database is the one that
is meant, or there are no rows at either of them. -/
theorem answer_iff (hid : (db.directMessages.map DirectMessage.id).Nodup) (htake : 0 < data.take)
    (horder : OrdersByCreatedAt order) :
    DirectMessageService.getDirectMessages order db data = .ok (windowOf order db data data.requested) ↔
      ∃ n, data.skipped = .ok n ∧ (n = data.requested.toNat ∨
        (messagesBetween db data.senderId data.targetId).length ≤ n ∧
          (messagesBetween db data.senderId data.targetId).length ≤ data.requested.toNat) := by
  have hperm := (horder (messagesBetween db data.senderId data.targetId)).perm
  have hnodup := hperm.nodup_iff.mpr ((List.Nodup.of_map _ hid).filter _)
  cases hs : data.skipped with
  | error e =>
    rw [answer_refused hs]
    exact iff_of_false nofun nofun
  | ok n =>
    rw [answer_window hs, Except.ok.injEq, windowOf, windowOf, window_inj hnodup htake, hperm.length_eq,
      Int.toNat_natCast]
    simp

/-- **The endpoint shows an account its own messages only.** -/
theorem own_conversations {a : String} {messages : List DirectMessage} (horder : OrdersByCreatedAt order)
    (h : DirectMessageController.getDirectMessages order db a fields = .ok messages) {m : DirectMessage}
    (hm : m ∈ messages) : m ∈ db.directMessages ∧ (m.senderId = a ∨ m.targetId = a) := by
  unfold DirectMessageController.getDirectMessages at h
  obtain ⟨data, -, h⟩ := bind_eq_ok.mp h
  split at h
  · cases h
  · rename_i ha
    cases hs : data.skipped with
    | error e =>
      rw [answer_refused hs] at h
      cases h
    | ok skip =>
      rw [answer_window hs] at h
      cases h
      have hrow := (horder _).perm.mem_iff.mp (List.mem_of_mem_drop (List.mem_of_mem_take hm))
      obtain ⟨hmem, hparties⟩ := List.mem_filter.mp hrow
      rw [← not_not.mp ha] at hparties
      refine ⟨hmem, ?_⟩
      simp only [exchanged, Bool.or_eq_true, Bool.and_eq_true, decide_eq_true_eq] at hparties
      exact hparties.imp And.left And.right

end Window

/-- **The window of a query is exact exactly when the query is answerable.** For every query that the checks let pass
and every message store. -/
theorem window_iff (db : Database) (fields : QueryFields) (data : GetDirectMessagesQuery)
    (h : GetDirectMessagesQuery.validate fields = .ok data) : WindowExact db data ↔ Answerable data := by
  rw [answerable_iff (validate_iff.mp h)]
  constructor
  · intro hexact
    refine ⟨hexact.asked, hexact.nonneg, ?_⟩
    obtain ⟨offset, hoffset, hval⟩ := Option.map_eq_some_iff.mp hexact.asked
    choose order horder using answer_exists DirectMessage.createdAt
    have hreturned := hexact.returned order horder
    cases hs : data.skipped with
    | error e =>
      rw [answer_refused hs] at hreturned
      cases hreturned
    | ok n =>
      obtain ⟨⟨offset', hoffset', hn⟩, -⟩ := skipped_ok.mp hs
      cases hoffset.symm.trans hoffset'
      rw [Except.ok.injEq]
      omega
  · rintro ⟨hasked, hnonneg, hskipped⟩
    refine ⟨hasked, hnonneg, fun order _ => ?_⟩
    rw [answer_window hskipped, Int.toNat_of_nonneg hnonneg]

/-- alice asks for page 2 of what she and bob have written, and supplies this `skip`. -/
def secondPage (skip : Double.Integer) : QueryFields where
  senderId := some (.str "alice")
  targetId := some (.str "bob")
  page := some (.integer ⟨2, by decide⟩)
  skip := some (.integer skip)

/-- A positive `skip` is taken. -/
theorem window_sample : WindowExact (sampleStore [("m1", 0), ("m2", 1)])
    { senderId := "alice", targetId := "bob", page := some ⟨2, by decide⟩, skip := some 1 } := by
  refine (window_iff _ (secondPage 1) _ rfl).mpr ⟨?_, by decide, by decide, by decide, by decide⟩
  rintro skip hskip
  cases hskip
  exact Or.inl (by decide)

/-- A `skip` of 0 gives page 2, which is empty, instead of the message there is; a negative one is passed on to the
database, and so is one of more than 64 bits. -/
theorem window_zero_or_negative :
    (∃ data, GetDirectMessagesQuery.validate (secondPage 0) = .ok data ∧ data.requested = 0 ∧
      data.skipped = .ok 5000 ∧
      DirectMessageService.getDirectMessages id (sampleStore [("m1", 0)]) data = .ok [] ∧
      windowOf id (sampleStore [("m1", 0)]) data data.requested = [sampleMessage "m1" 0] ∧
      ¬WindowExact (sampleStore [("m1", 0)]) data) ∧
    (∃ data, GetDirectMessagesQuery.validate (secondPage ⟨-1, by decide⟩) = .ok data ∧ data.requested = -1 ∧
      DirectMessageService.getDirectMessages id (sampleStore [("m1", 0)]) data = .error .prismaValidation ∧
      ¬WindowExact (sampleStore [("m1", 0)]) data) ∧
    ∃ data, GetDirectMessagesQuery.validate (secondPage ⟨10 ^ 20, by decide⟩) = .ok data ∧ data.requested = 10 ^ 20 ∧
      DirectMessageService.getDirectMessages id (sampleStore [("m1", 0)]) data = .error .prismaValidation ∧
      ¬WindowExact (sampleStore [("m1", 0)]) data := by
  refine ⟨⟨_, rfl, rfl, rfl, rfl, rfl, fun h => ?_⟩, ⟨_, rfl, rfl, rfl, fun h => ?_⟩, _, rfl, rfl, rfl, fun h => ?_⟩
  · exact absurd h.asked (by decide)
  · exact absurd h.nonneg (by decide)
  · exact absurd (h.returned _ fun rows => (answer_exists DirectMessage.createdAt rows).choose_spec) nofun

end DiscordClone
