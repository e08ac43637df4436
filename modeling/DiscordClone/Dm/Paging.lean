import DiscordClone.Dm.Service
import DiscordClone.Lib.Double
import DiscordClone.Lib.Paging
import DiscordClone.Sample

/-!
# Reading a conversation

`getDirectMessages` of `dm.service.ts` with the query of `getDirectMessages.query.ts`. `findMany` orders the messages of
the conversation by `createdAt`, from the newest on, and says nothing about messages of one instant; the order it
chooses there is a parameter of each query.

The offset of a page is computed in doubles (`pageStart`); up to `2 ^ 53` rows they are exact
(`beginAtBoundaries_of_le`).

- `walk_conversation`: the pages of either account, up to the first empty one, are exactly the conversation if the
  boundaries are clear: every page begins at its boundary, and no instant is shared across one.
- `pages_exact_iff`: and only then.
-/

namespace DiscordClone

open Paging

/-- `GetDirectMessagesQuery`, with its defaults; its checks bound `take` only. -/
structure GetDirectMessagesQuery where
  senderId : String
  targetId : String
  take : Nat := 5000
  page : Option Double.Integer := some 1
  skip : Option Double.Integer := none
  deriving DecidableEq, Repr

/-- `data.skip || (data.page ? data.take * (data.page - 1) : 0)`, where every operation is one of doubles; `none` is an
infinity. -/
def GetDirectMessagesQuery.offset (data : GetDirectMessagesQuery) : Option Double.Integer :=
  let paged : Option Double.Integer :=
    match data.page with
    | some page =>
      if page.val ≠ 0 then do
        let before ← Double.round (page.val - 1)
        Double.round (data.take * before.val)
      else some 0
    | none => some 0
  match data.skip with
  | some skip => if skip.val ≠ 0 then some skip else paged
  | none => paged

/-- The offset that reaches the database: `findMany` refuses one that is negative or infinite or has no 64 bits, and the
database an id with a NUL. -/
def GetDirectMessagesQuery.skipped (data : GetDirectMessagesQuery) : Except Exception Nat :=
  match data.offset with
  | none => .error .prismaValidation
  | some offset =>
    if offset.val < 0 ∨ 2 ^ 63 ≤ offset.val then .error .prismaValidation
    else if Storable data.senderId ∧ Storable data.targetId then .ok offset.val.toNat
    else .error .prismaUnknown

/-- The condition of the query. -/
def exchanged (a b : String) (m : DirectMessage) : Bool :=
  m.senderId = a && m.targetId = b || m.senderId = b && m.targetId = a

/-- The messages between two accounts. -/
def messagesBetween (db : Database) (a b : String) : List DirectMessage := db.directMessages.filter (exchanged a b)

/-- The messages on a page, whose instants are not printed; `order` is the order in which `findMany` meets the rows. -/
def DirectMessageService.getDirectMessages (order : List DirectMessage → List DirectMessage) (db : Database)
    (data : GetDirectMessagesQuery) : Except Exception (List DirectMessage) :=
  data.skipped.map fun skip =>
    ((order (messagesBetween db data.senderId data.targetId)).drop skip).take data.take

/-- What `orderBy: { createdAt: 'desc' }` says of the order. -/
def OrdersByCreatedAt (order : List DirectMessage → List DirectMessage) : Prop :=
  ∀ rows, Answer DirectMessage.createdAt rows (order rows)

/-- The query of `a` for the page with this number. -/
def pageQuery (a b : String) (take : Nat) (page : Double.Integer) : GetDirectMessagesQuery where
  senderId := a
  targetId := b
  take := take
  page := some page

/-- The page with this number, from 1, as `a` asks for it; the number is read as a double, and the checks refuse an
infinity. -/
def pageOf (order : List DirectMessage → List DirectMessage) (db : Database) (a b : String) (take i : Nat) :
    List DirectMessage :=
  match (Double.round i).map fun page => DirectMessageService.getDirectMessages order db (pageQuery a b take page) with
  | some (.ok messages) => messages
  | _ => []

/-- The pages 1, 2, 3, ... of `a` up to the first empty one, where each query has its own order. -/
def WalkOf (orders : Nat → List DirectMessage → List DirectMessage) (db : Database) (a b : String) (take : Nat)
    (out : List DirectMessage) : Prop :=
  Walk (fun i => pageOf (orders i) db a b take (i + 1)) out

/-- Whatever orders the queries choose, the walks of both accounts end, give every message of the conversation exactly
once and nothing else, from the newest on. -/
def PagesExact (db : Database) (a b : String) (take : Nat) : Prop :=
  ∀ orders orders' : Nat → List DirectMessage → List DirectMessage,
    (∀ i, OrdersByCreatedAt (orders i)) → (∀ i, OrdersByCreatedAt (orders' i)) →
    ∃ out out', WalkOf orders db a b take out ∧ WalkOf orders' db b a take out' ∧
      (out.Perm (messagesBetween db a b) ∧ out.Pairwise fun m n => n.createdAt ≤ m.createdAt) ∧
      (out'.Perm (messagesBetween db a b) ∧ out'.Pairwise fun m n => n.createdAt ≤ m.createdAt) ∧ out.Perm out'

/-- The first row of the page with this number, from 0, in doubles; `none` if the database cannot be asked for it. -/
def pageStart (a b : String) (take i : Nat) : Option Nat := do
  let page ← Double.round (i + 1 : Nat)
  let before ← Double.round (page.val - 1)
  let offset ← Double.round (take * before.val)
  if offset.val < 2 ^ 63 ∧ Storable a ∧ Storable b then some offset.val.toNat else none

/-- Every page begins at its boundary, as far as there are rows. -/
def BeginAtBoundaries (db : Database) (a b : String) (take : Nat) : Prop :=
  ∀ i, min ((pageStart a b take i).getD (messagesBetween db a b).length) (messagesBetween db a b).length =
    min (take * i) (messagesBetween db a b).length

/-- The pages begin at their boundaries, and no two messages of one instant stand on the two sides of a boundary. -/
structure ClearBoundaries (db : Database) (a b : String) (take : Nat) : Prop where
  begin_at : BeginAtBoundaries db a b take
  clear : Clear take (sortedKeys DirectMessage.createdAt (messagesBetween db a b))

/-! ## Offsets -/

section Offsets

variable {data : GetDirectMessagesQuery} {page : Double.Integer} {a b : String} {take i j k n : Nat}

/-- Without a `skip`, and with one of 0, the database is asked for the beginning of the page. -/
theorem offset_paged (hpage : data.page = some page) (hne : page.val ≠ 0) (hs : ∀ skip ∈ data.skip, skip.val = 0) :
    data.offset = (Double.round (page.val - 1)).bind fun before => Double.round (data.take * before.val) := by
  unfold GetDirectMessagesQuery.offset
  simp only [hpage, if_pos hne]
  cases hskip : data.skip with
  | none => rfl
  | some skip => exact if_neg (not_not.mpr (hs skip hskip))

/-- **The offsets that reach the database.** -/
theorem skipped_ok : data.skipped = .ok n ↔
    (∃ offset, data.offset = some offset ∧ offset.val = n) ∧ n < 2 ^ 63 ∧ Storable data.senderId ∧
      Storable data.targetId := by
  unfold GetDirectMessagesQuery.skipped
  cases data.offset with
  | none => simp
  | some offset =>
    simp only [Option.some.injEq, exists_eq_left']
    split
    · rename_i hbad
      refine iff_of_false nofun ?_
      rintro ⟨hn, hlt, -⟩
      omega
    · rename_i hgood
      split
      · rename_i hs
        rw [Except.ok.injEq]
        refine ⟨fun h => ⟨by omega, by omega, hs⟩, fun h => by omega⟩
      · rename_i hs
        exact iff_of_false nofun fun h => hs h.2.2

/-- The numbers behind the first row of a page. -/
theorem pageStart_eq : pageStart a b take i = some k ↔ ∃ page before offset : Double.Integer,
    Double.round (i + 1 : Nat) = some page ∧ Double.round (page.val - 1) = some before ∧
      Double.round (take * before.val) = some offset ∧ offset.val = k ∧ k < 2 ^ 63 ∧ Storable a ∧ Storable b := by
  unfold pageStart
  simp only [Option.bind_eq_bind, Option.bind_eq_some_iff]
  constructor
  · rintro ⟨page, hpage, before, hbefore, offset, hoffset, h⟩
    have hpos : 1 ≤ page.val := Double.le_of_round (x := 1) (by decide) (by simp) hpage
    have hbpos : 0 ≤ before.val := Double.round_nonneg (by omega) hbefore
    have hopos : 0 ≤ offset.val := Double.round_nonneg (Int.mul_nonneg (by omega) hbpos) hoffset
    split_ifs at h with hok
    have hk : offset.val.toNat = k := Option.some.inj h
    exact ⟨page, before, offset, hpage, hbefore, hoffset, by omega, by omega, hok.2⟩
  · rintro ⟨page, before, offset, hpage, hbefore, hoffset, hk, hlt, hstorable⟩
    refine ⟨page, hpage, before, hbefore, offset, hoffset, ?_⟩
    rw [if_pos ⟨by omega, hstorable⟩, hk, Int.toNat_natCast]

/-- It is the offset that the query for the page asks the database for. -/
theorem skipped_pageQuery (hpage : Double.round (i + 1 : Nat) = some page) :
    (pageQuery a b take page).skipped.toOption = pageStart a b take i := by
  have hpos : 1 ≤ page.val := Double.le_of_round (x := 1) (by decide) (by simp) hpage
  have hoff : (pageQuery a b take page).offset =
      (Double.round (page.val - 1)).bind fun before => Double.round (take * before.val) :=
    offset_paged rfl (by omega) nofun
  unfold GetDirectMessagesQuery.skipped pageStart
  simp only [hoff, hpage, Option.bind_eq_bind, Option.bind_some]
  cases hbefore : Double.round (page.val - 1) with
  | none => rfl
  | some before =>
    have hbpos : 0 ≤ before.val := Double.round_nonneg (by omega) hbefore
    simp only [Option.bind_some]
    cases hoffset : Double.round (take * before.val) with
    | none => rfl
    | some offset =>
      have hopos : 0 ≤ offset.val := Double.round_nonneg (Int.mul_nonneg (by omega) hbpos) hoffset
      simp only [Option.bind_some]
      by_cases hlt : offset.val < 2 ^ 63
      · rw [if_neg (by omega)]
        by_cases hs : Storable (pageQuery a b take page).senderId ∧ Storable (pageQuery a b take page).targetId
        · rw [if_pos hs]
          exact (if_pos ⟨hlt, hs⟩).symm
        · rw [if_neg hs]
          exact (if_neg fun h => hs h.2).symm
      · rw [if_pos (by omega), if_neg fun h => hlt h.1]
        rfl

/-- No page begins before the one in front of it. -/
theorem pageStart_mono (hij : i ≤ j) (hj : pageStart a b take j = some k) :
    ∃ n, pageStart a b take i = some n ∧ n ≤ k := by
  obtain ⟨page, before, offset, hpage, hbefore, hoffset, hk, hlt, hstorable⟩ := pageStart_eq.mp hj
  obtain ⟨page', hpage', hple⟩ := Double.round_mono (by omega) (by omega : ((i + 1 : Nat) : Int) ≤ (j + 1 : Nat)) hpage
  have hpos : 1 ≤ page'.val := Double.le_of_round (x := 1) (by decide) (by simp) hpage'
  obtain ⟨before', hbefore', hble⟩ := Double.round_mono (by omega) (by omega : page'.val - 1 ≤ page.val - 1) hbefore
  have hbpos : 0 ≤ before'.val := Double.round_nonneg (by omega) hbefore'
  have hmul : (take : Int) * before'.val ≤ take * before.val := Int.mul_le_mul_of_nonneg_left hble (by omega)
  have hmulpos : 0 ≤ (take : Int) * before'.val := Int.mul_nonneg (by omega) hbpos
  obtain ⟨offset', hoffset', hole⟩ := Double.round_mono hmulpos hmul hoffset
  have hopos : 0 ≤ offset'.val := Double.round_nonneg hmulpos hoffset'
  exact ⟨offset'.val.toNat, pageStart_eq.mpr ⟨page', before', offset', hpage', hbefore', hoffset', by omega, by omega,
    hstorable⟩, by omega⟩

/-- Up to `2 ^ 53` rows a page begins at its boundary. -/
theorem pageStart_exact (ha : Storable a) (hb : Storable b) (hi : i < 2 ^ 53) (hoff : take * i ≤ 2 ^ 53) :
    pageStart a b take i = some (take * i) := by
  have hpage : Double.IsValue (i + 1 : Nat) := Double.isValue_of_le (by omega)
  have hbefore : Double.IsValue (i : Nat) := Double.isValue_of_le (by omega)
  have hoffset : Double.IsValue (take * i : Nat) := Double.isValue_of_le (by omega)
  refine pageStart_eq.mpr ⟨⟨_, hpage⟩, ⟨_, hbefore⟩, ⟨_, hoffset⟩, Double.round_of_isValue hpage, ?_, ?_, rfl, by omega,
    ha, hb⟩
  · rw [show ((i + 1 : Nat) : Int) - 1 = (i : Nat) by omega]
    exact Double.round_of_isValue hbefore
  · rw [← Int.natCast_mul]
    exact Double.round_of_isValue hoffset

/-- **The pages of up to `2 ^ 53` rows begin at their boundaries.** -/
theorem beginAtBoundaries_of_le (ha : Storable a) (hb : Storable b) (ht : 0 < take) (hn : n + take ≤ 2 ^ 53) (i : Nat) :
    min ((pageStart a b take i).getD n) n = min (take * i) n := by
  by_cases hi : take * i < n + take
  · have hle : i ≤ take * i := Nat.le_mul_of_pos_left i ht
    rw [pageStart_exact ha hb (by omega) (by omega), Option.getD_some]
  · -- the first boundary behind the last row comes before
    have hlast : take * ((n + take - 1) / take) ≤ n + take - 1 := Nat.mul_div_le _ _
    have hbehind : n ≤ take * ((n + take - 1) / take) := by
      have hmod := Nat.div_add_mod (n + take - 1) take
      have hlt := Nat.mod_lt (n + take - 1) ht
      omega
    have hji : (n + take - 1) / take ≤ i := by
      by_contra hlt
      have hmul : take * i ≤ take * ((n + take - 1) / take) := Nat.mul_le_mul_left take (by omega)
      omega
    have hle : (n + take - 1) / take ≤ take * ((n + take - 1) / take) := Nat.le_mul_of_pos_left _ ht
    have hstart : pageStart a b take ((n + take - 1) / take) = some (take * ((n + take - 1) / take)) :=
      pageStart_exact ha hb (by omega) (by omega)
    cases hp : pageStart a b take i with
    | none =>
      rw [Option.getD_none]
      omega
    | some k =>
      obtain ⟨m, hm, hmk⟩ := pageStart_mono hji hp
      cases hstart.symm.trans hm
      rw [Option.getD_some]
      omega

end Offsets

section Walks

variable {db : Database} {a b : String} {take : Nat} {orders : Nat → List DirectMessage → List DirectMessage}
  {out : List DirectMessage}

/-- Both accounts ask for the same messages. -/
theorem messagesBetween_comm (db : Database) (a b : String) : messagesBetween db b a = messagesBetween db a b := by
  have h : exchanged b a = exchanged a b := funext fun m => Bool.or_comm _ _
  rw [messagesBetween, h, messagesBetween]

/-- Both accounts ask for the same pages. -/
theorem pageStart_comm (a b : String) (take i : Nat) : pageStart b a take i = pageStart a b take i := by
  ext k
  rw [pageStart_eq, pageStart_eq, and_comm (a := Storable b)]

theorem ClearBoundaries.comm (h : ClearBoundaries db a b take) : ClearBoundaries db b a take := by
  refine ⟨?_, ?_⟩
  · unfold BeginAtBoundaries
    rw [messagesBetween_comm]
    simp only [pageStart_comm a b]
    exact h.begin_at
  · rw [messagesBetween_comm]
    exact h.clear

/-- The page with a number is the window of the answer from its first row on. -/
theorem pageOf_eq {order : List DirectMessage → List DirectMessage} (h : OrdersByCreatedAt order) (i : Nat) :
    pageOf order db a b take (i + 1) =
      ((order (messagesBetween db a b)).drop
        ((pageStart a b take i).getD (messagesBetween db a b).length)).take take := by
  unfold pageOf DirectMessageService.getDirectMessages
  cases hpage : Double.round (i + 1 : Nat) with
  | none =>
    have hstart : pageStart a b take i = none := by
      unfold pageStart
      rw [hpage]
      rfl
    rw [hstart, Option.getD_none, List.drop_eq_nil_of_le (h _).perm.length_eq.le, List.take_nil]
    rfl
  | some page =>
    rw [← skipped_pageQuery hpage, Option.map_some]
    cases (pageQuery a b take page).skipped with
    | ok skip => rfl
    | error e =>
      have hnil := List.drop_eq_nil_of_le (h (messagesBetween db a b)).perm.length_eq.le
      simp only [Except.map, Except.toOption, Option.getD_none, hnil, List.take_nil]

theorem walkOf_windows (horders : ∀ i, OrdersByCreatedAt (orders i)) : WalkOf orders db a b take out ↔
    Walk (fun i => ((orders i (messagesBetween db a b)).drop
      ((pageStart a b take i).getD (messagesBetween db a b).length)).take take) out := by
  unfold WalkOf
  simp only [pageOf_eq (horders _)]

/-- A walk whose pages begin at their boundaries. -/
theorem walkOf_iff (horders : ∀ i, OrdersByCreatedAt (orders i)) (h : BeginAtBoundaries db a b take) :
    WalkOf orders db a b take out ↔ Walk (fun i => page take (orders i (messagesBetween db a b)) i) out := by
  have hpage : ∀ i, ((orders i (messagesBetween db a b)).drop
      ((pageStart a b take i).getD (messagesBetween db a b).length)).take take =
        page take (orders i (messagesBetween db a b)) i := fun i => by
    refine window_congr ?_
    rw [(horders i (messagesBetween db a b)).perm.length_eq]
    exact h i
  rw [walkOf_windows horders]
  simp only [hpage]

/-- **The walk of an account gives the conversation**, from the newest message on, when the boundaries are clear. -/
theorem walk_conversation (ht : 0 < take) (horders : ∀ i, OrdersByCreatedAt (orders i))
    (hclear : ClearBoundaries db a b take) :
    ∃ out, WalkOf orders db a b take out ∧ out.Perm (messagesBetween db a b) ∧
      out.Pairwise fun m n => n.createdAt ≤ m.createdAt := by
  have hans : ∀ i, Answer DirectMessage.createdAt (messagesBetween db a b) (orders i (messagesBetween db a b)) :=
    fun i => horders i _
  obtain ⟨out, hw⟩ := walk_exists hans ht
  refine ⟨out, (walkOf_iff horders hclear.begin_at).mpr hw, walk_perm hans ht hclear.clear hw, ?_⟩
  have hsorted := sortedKeys_sorted DirectMessage.createdAt (messagesBetween db a b)
  rw [← walk_keys hans ht hw] at hsorted
  exact List.pairwise_map.mp hsorted

/-- Rows that a query for one conversation returns, in an order for every table. -/
theorem extend_orders {rows : List DirectMessage} {order : Nat → List DirectMessage}
    (h : ∀ i, Answer DirectMessage.createdAt rows (order i)) :
    ∃ orders : Nat → List DirectMessage → List DirectMessage, (∀ i, OrdersByCreatedAt (orders i)) ∧
      ∀ i, orders i rows = order i := by
  choose other hother using answer_exists DirectMessage.createdAt
  refine ⟨fun i r => if r = rows then order i else other r, fun i r => ?_, fun i => if_pos rfl⟩
  dsimp only
  split
  · subst r
    exact h i
  · exact hother r

/-- When paging is exact, the pages begin at their boundaries. -/
theorem beginAtBoundaries_of_exact (hid : (db.directMessages.map DirectMessage.id).Nodup) (ht : 0 < take)
    (h : PagesExact db a b take) : BeginAtBoundaries db a b take := by
  choose order hans using answer_exists DirectMessage.createdAt
  have horders : OrdersByCreatedAt order := hans
  have hperm := (horders (messagesBetween db a b)).perm
  have hnodup := hperm.nodup_iff.mpr ((List.Nodup.of_map _ hid).filter _)
  obtain ⟨out, -, hw, -, ⟨hout, -⟩, -⟩ := h (fun _ => order) (fun _ => order) (fun _ => horders) fun _ => horders
  rw [walkOf_windows fun _ => horders] at hw
  intro i
  rw [← hperm.length_eq] at hw ⊢
  refine starts_exact ht hnodup (fun i j hij => ?_) hw (hout.trans hperm.symm) i
  cases hj : pageStart a b take j with
  | none =>
    rw [Option.getD_none]
    omega
  | some k =>
    obtain ⟨n, hn, hnk⟩ := pageStart_mono hij hj
    rw [hn, Option.getD_some, Option.getD_some]
    omega

/-- Across a boundary that is not clear a message can come twice. -/
theorem pages_not_exact (hid : (db.directMessages.map DirectMessage.id).Nodup) (ht : 0 < take)
    (hbegin : BeginAtBoundaries db a b take)
    (hclear : ¬Clear take (sortedKeys DirectMessage.createdAt (messagesBetween db a b))) : ¬PagesExact db a b take := by
  intro h
  have hnodup : (messagesBetween db a b).Nodup := (List.Nodup.of_map _ hid).filter _
  obtain ⟨order, hans, hrepeat⟩ := walk_repeats ht hnodup hclear
  obtain ⟨orders, horders, heq⟩ := extend_orders hans
  obtain ⟨out, out', hw, -, ⟨hperm, -⟩, -⟩ := h orders orders horders horders
  rw [walkOf_iff horders hbegin] at hw
  simp only [heq] at hw
  exact hrepeat out hw hperm

end Walks

/-- **Paging is exact when the boundaries of the pages are clear, and only then**; up to `2 ^ 53` rows that is, when no
instant is shared across one. For every message store, whose primary key is the id, every two accounts and every
positive `take`. -/
theorem pages_exact_iff (db : Database) (hid : (db.directMessages.map DirectMessage.id).Nodup) (a b : String)
    (take : Nat) (ht : 1 ≤ take) :
    (PagesExact db a b take ↔ ClearBoundaries db a b take) ∧
    ((messagesBetween db a b).length + take ≤ 2 ^ 53 → Storable a → Storable b →
      (PagesExact db a b take ↔ Clear take (sortedKeys DirectMessage.createdAt (messagesBetween db a b)))) := by
  have hexact : PagesExact db a b take ↔ ClearBoundaries db a b take := by
    constructor
    · intro h
      have hbegin := beginAtBoundaries_of_exact hid ht h
      refine ⟨hbegin, ?_⟩
      by_contra hclear
      exact pages_not_exact hid ht hbegin hclear h
    · intro hclear orders orders' ho ho'
      obtain ⟨out, hw, hout⟩ := walk_conversation ht ho hclear
      obtain ⟨out', hw', hout'⟩ := walk_conversation ht ho' hclear.comm
      rw [messagesBetween_comm] at hout'
      exact ⟨out, out', hw, hw', hout, hout', hout.1.trans hout'.1.symm⟩
  refine ⟨hexact, fun hrows ha hb => hexact.trans ⟨ClearBoundaries.clear, fun hclear => ⟨?_, hclear⟩⟩⟩
  exact beginAtBoundaries_of_le ha hb ht hrows

/-- A message of alice to bob. -/
def sampleMessage (id : String) (createdAt : DateTime) : DirectMessage :=
  { id := id, senderId := "alice", targetId := "bob", content := "hi", createdAt := createdAt, updatedAt := createdAt }

/-- alice has sent bob a message at each of these instants. -/
def sampleStore (instants : List (String × DateTime)) : Database :=
  { accounts := activeAccounts
    settings := fun _ => none
    sessions := []
    relationships := fun _ => none
    directMessages := instants.map fun m => sampleMessage m.1 m.2 }

/-- Two messages of one instant may stand on one page. -/
theorem pages_exact_sample :
    PagesExact (sampleStore [("m1", 0), ("m2", 1), ("m3", 1), ("m4", 2), ("m5", 2)]) "alice" "bob" 2 := by
  refine ((pages_exact_iff _ (by decide) "alice" "bob" 2 (by decide)).2 (by decide) (by decide) (by decide)).mpr ?_
  decide

/-- Two messages of one instant, page by page: the second query answers in the other order, the first message comes
twice and the second one never. -/
theorem pages_exact_tie :
    ∃ orders : Nat → List DirectMessage → List DirectMessage, (∀ i, OrdersByCreatedAt (orders i)) ∧
      WalkOf orders (sampleStore [("m1", 0), ("m2", 0)]) "alice" "bob" 1
        [sampleMessage "m1" 0, sampleMessage "m1" 0] ∧
      ¬PagesExact (sampleStore [("m1", 0), ("m2", 0)]) "alice" "bob" 1 := by
  have hans : ∀ i, Answer DirectMessage.createdAt [sampleMessage "m1" 0, sampleMessage "m2" 0]
      (exchange 1 [sampleMessage "m1" 0, sampleMessage "m2" 0] [sampleMessage "m2" 0, sampleMessage "m1" 0] i) := by
    intro i
    unfold exchange
    split
    · exact ⟨List.Perm.refl _, by decide⟩
    · exact ⟨List.Perm.swap _ _ _, by decide⟩
  obtain ⟨orders, horders, heq⟩ := extend_orders hans
  have hconv : messagesBetween (sampleStore [("m1", 0), ("m2", 0)]) "alice" "bob" =
      [sampleMessage "m1" 0, sampleMessage "m2" 0] := by decide
  have hbegin : BeginAtBoundaries (sampleStore [("m1", 0), ("m2", 0)]) "alice" "bob" 1 :=
    beginAtBoundaries_of_le (by decide) (by decide) one_pos (by decide)
  refine ⟨orders, horders, ?_, pages_not_exact (by decide) one_pos hbegin (by decide)⟩
  rw [walkOf_iff horders hbegin, hconv]
  simp only [heq]
  exact ⟨2, by decide, by decide, by decide⟩

end DiscordClone
