import DiscordClone.Gateway.Chat
import DiscordClone.Sample

/-!
# Who writes a message

`send-dm` spreads what the client sent over the sender's own `senderId`, and the result once more into the row. So the
row is the sender's own exactly when the payload leaves the fields alone that the server fills in (`Unforged`):
`authorship_iff`. `not_authorship` is a payload that puts alice's words in bob's mouth.
-/

namespace DiscordClone

open ChatGateway DirectMessages
open Json (Obj)

/-- The fields of `ISendDirectMessageData`. -/
def declaredFields : List String := ["targetId", "content", "type"]

/-- Two payloads agree on the declared fields. -/
def Agree (data data' : List (String × Json)) : Prop :=
  ∀ key ∈ declaredFields, (Obj.spread data).get key = (Obj.spread data').get key

/-- The payload has no other fields. -/
def Declared (data : List (String × Json)) : Prop := ∀ e ∈ data, e.1 ∈ declaredFields

/-- The handler stores the message. -/
def Stores (platform : Platform) (rt : Runtime) (s : Chat) (client : SocketWithAuth) (data : List (String × Json))
    (m : DirectMessage) : Prop :=
  (handleSendDirectMessage platform rt s client data).db =
    { s.db with directMessages := s.db.directMessages ++ [m] }

/-- The payload has no `senderId`, `id`, `createdAt` and `updatedAt` but those that the server would fill in. -/
def Unforged (rt : Runtime) (sub : String) (data : List (String × Json)) : Prop :=
  (∀ v, (Obj.spread data).get "senderId" = some v → v = .str sub) ∧
  (∀ v, (Obj.spread data).get "id" = some v → v = .str rt.uuid) ∧
  ∀ key ∈ ["createdAt", "updatedAt"], ∀ v, (Obj.spread data).get key = some v →
    ∃ date, v = .str date ∧ rt.parseDateTime date = some rt.now

section Fields

variable {platform : Platform} {rt : Runtime} {s : Chat} {client : SocketWithAuth} {data data' : List (String × Json)}
  {m : DirectMessage}

/-- The message is stored when `createDirectMessage` stores it. -/
theorem stores_iff : Stores platform rt s client data m ↔
    DirectMessageService.createDirectMessage rt s.db (sendData client data) =
      .ok (m, { s.db with directMessages := s.db.directMessages ++ [m] }) := by
  unfold Stores handleSendDirectMessage
  cases h : DirectMessageService.createDirectMessage rt s.db (sendData client data) with
  | ok r =>
    obtain ⟨m', db'⟩ := r
    obtain ⟨-, -, -, -, rfl⟩ := createDirectMessage_ok.mp h
    simp
  | error e =>
    simp only [reduceCtorEq, iff_false]
    intro hdb
    have := congrArg Database.directMessages hdb
    simp at this

/-- A stored message, field by field. -/
theorem stores_fields (h : Stores platform rt s client data m) :
    ((Obj.spread data).get "senderId").or (some (.str client.sub)) = some (.str m.senderId) ∧
      idField rt ((Obj.spread data).get "id") = .ok m.id ∧
      dateField rt ((Obj.spread data).get "createdAt") = .ok m.createdAt ∧
      dateField rt ((Obj.spread data).get "updatedAt") = .ok m.updatedAt := by
  obtain ⟨-, -, -, hm, -⟩ := createDirectMessage_ok.mp (stores_iff.mp h)
  obtain ⟨-, hid, hs, -, -, -, hca, hua, -⟩ := create_ok.mp (insert_ok.mp hm).2
  rw [stringField_ok, Obj.get_append_ne (by decide), sendData, Obj.get_cons_spread] at hs
  rw [Obj.get_append_ne (by decide), sendData, Obj.get_cons_ne (by decide)] at hid hca hua
  exact ⟨hs, hid, hca, hua⟩

/-- A payload of the declared fields only leaves the others to the server. -/
theorem get_of_declared (h : Declared data) {key : String} (hk : key ∉ declaredFields) :
    (Obj.spread data).get key = none := by
  refine Obj.get_eq_none fun e he => ?_
  obtain ⟨e', he', rfl⟩ := List.mem_map.mp he
  intro hkey
  exact hk (hkey ▸ h e' he')

/-- Payloads that agree are the same to the service in the declared fields. -/
theorem get_declared (client : SocketWithAuth) (ha : Agree data data') :
    ∀ key ∈ declaredFields, (sendData client data').get key = (sendData client data).get key := by
  intro key hk
  have hne : "senderId" ≠ key := by
    rintro rfl
    exact absurd hk (by decide)
  rw [sendData, Obj.get_cons_ne hne, sendData, Obj.get_cons_ne hne, ha key hk]

/-- The row that a payload stores, stored by a payload of the declared fields that agrees with it. -/
theorem stores_declared (h : Stores platform rt s client data m) (hs : m.senderId = client.sub) (hid : m.id = rt.uuid)
    (hca : m.createdAt = rt.now) (hua : m.updatedAt = rt.now) (ha : Agree data data') (hd : Declared data') :
    Stores platform rt s client data' m := by
  obtain ⟨hx, hy, hb, hm, -⟩ := createDirectMessage_ok.mp (stores_iff.mp h)
  refine stores_iff.mpr (createDirectMessage_ok.mpr ⟨hx, hy, hb, ?_, rfl⟩)
  obtain ⟨hstring, hm⟩ := insert_ok.mp hm
  obtain ⟨-, -, -, ht, hc, hty, -, -, hrow⟩ := create_ok.mp hm
  have hget := get_declared client ha
  have hnone : ∀ key, key ∉ declaredFields → "senderId" ≠ key → "type" ≠ key →
      (sendData client data' ++ [("type", memberOf ((sendData client data').get "type"))]).get key = none := by
    intro key hk hs ht
    rw [Obj.get_append_ne ht, sendData, Obj.get_cons_ne hs, get_of_declared hd hk]
  refine insert_ok.mpr ⟨by rwa [hget "type" (by decide)], create_ok.mpr ⟨?_, ?_, ?_, ?_, ?_, ?_, ?_, ?_, hrow⟩⟩
  · intro e he _
    simp only [sendData, List.cons_append, List.mem_cons, List.mem_append, List.not_mem_nil, or_false] at he
    rcases he with rfl | he | rfl
    · simp [scalarFields]
    · obtain ⟨e', he', rfl⟩ := List.mem_map.mp he
      have hsub : ∀ key ∈ declaredFields, key ∈ scalarFields := by decide
      exact hsub _ (hd e' he')
    · simp [scalarFields]
  · rw [hnone "id" (by decide) (by decide) (by decide), hid, idField]
  · rw [stringField_ok, Obj.get_append_ne (by decide), sendData, Obj.get_cons_spread,
      get_of_declared hd (by decide), hs, Option.none_or]
  · rw [Obj.get_append_ne (by decide)] at ht ⊢
    rwa [hget "targetId" (by decide)]
  · rw [Obj.get_append_ne (by decide)] at hc ⊢
    rwa [hget "content" (by decide)]
  · rw [Obj.get_append_self] at hty ⊢
    rwa [hget "type" (by decide)]
  · rw [hnone "createdAt" (by decide) (by decide) (by decide), hca, dateField]
  · rw [hnone "updatedAt" (by decide) (by decide) (by decide), hua, dateField]

/-- An unforged payload leaves the server's fields to the server. -/
theorem unforged_iff (h : Stores platform rt s client data m) :
    Unforged rt client.sub data ↔
      m.senderId = client.sub ∧ m.id = rt.uuid ∧ m.createdAt = rt.now ∧ m.updatedAt = rt.now := by
  obtain ⟨hs, hid, hca, hua⟩ := stores_fields h
  rw [idField_ok] at hid
  rw [dateField_ok] at hca hua
  have hsender : (∀ v, (Obj.spread data).get "senderId" = some v → v = .str client.sub) ↔ m.senderId = client.sub := by
    cases hg : (Obj.spread data).get "senderId" with
    | none =>
      rw [hg] at hs
      simpa [eq_comm] using hs
    | some v =>
      rw [hg] at hs
      simp only [Option.some_or, Option.some.injEq] at hs
      simp [hs]
  have hident : (∀ v, (Obj.spread data).get "id" = some v → v = .str rt.uuid) ↔ m.id = rt.uuid := by
    rcases hid with ⟨hg, hu⟩ | hg <;> simp [hg]
    exact hu.symm
  have hdate : ∀ key d, (Obj.spread data).get key = none ∧ rt.now = d ∨
      (∃ date, (Obj.spread data).get key = some (.str date) ∧ rt.parseDateTime date = some d) →
      ((∀ v, (Obj.spread data).get key = some v → ∃ date, v = .str date ∧ rt.parseDateTime date = some rt.now) ↔
        d = rt.now) := by
    rintro key d (⟨hg, hd⟩ | ⟨date, hg, hp⟩)
    · simp [hg, hd]
    · simp [hg, hp]
  unfold Unforged
  rw [hsender, hident]
  simp only [List.forall_mem_cons, List.not_mem_nil, false_imp_iff, implies_true, and_true, hdate _ _ hca,
    hdate _ _ hua]

/-- Every payload agrees with one of the declared fields only. -/
theorem exists_declared (data : List (String × Json)) : ∃ data', Agree data data' ∧ Declared data' := by
  refine ⟨data.filter fun e => e.1 ∈ declaredFields, fun key hk => ?_, fun e he => ?_⟩
  · exact (Obj.get_spread_filter data (p := fun key => decide (key ∈ declaredFields)) (by simpa using hk)).symm
  · simpa using (List.mem_filter.mp he).2

/-- Payloads that agree on the declared fields store the same row, the server's fields apart. -/
theorem stored_eq {m' : DirectMessage} (h : Stores platform rt s client data m)
    (h' : Stores platform rt s client data' m') (ha : Agree data data') (hs : m.senderId = m'.senderId)
    (hid : m.id = m'.id) (hca : m.createdAt = m'.createdAt) (hua : m.updatedAt = m'.updatedAt) : m = m' := by
  obtain ⟨-, -, -, hm, -⟩ := createDirectMessage_ok.mp (stores_iff.mp h)
  obtain ⟨-, -, -, hm', -⟩ := createDirectMessage_ok.mp (stores_iff.mp h')
  obtain ⟨-, -, -, ht, hc, hty, -⟩ := create_ok.mp (insert_ok.mp hm).2
  obtain ⟨-, -, -, ht', hc', hty', -⟩ := create_ok.mp (insert_ok.mp hm').2
  have hget := get_declared client ha
  rw [Obj.get_append_ne (by decide)] at ht hc ht' hc'
  rw [Obj.get_append_self] at hty hty'
  rw [hget "targetId" (by decide), ht] at ht'
  rw [hget "content" (by decide), hc] at hc'
  rw [hget "type" (by decide), hty] at hty'
  cases m
  cases m'
  simp_all

end Fields

/-- **Who writes a message.** A stored message is the sender's, was checked for the sender, and is what the declared
fields of its payload alone would store, if and only if the payload leaves the server's fields alone. Two such payloads
that agree on the declared fields store the same row. -/
theorem authorship_iff (platform : Platform) (rt : Runtime) (s : Chat) (client : SocketWithAuth)
    (data : List (String × Json)) (m : DirectMessage) (hstores : Stores platform rt s client data m) :
    ((m.senderId = client.sub ∧ s.db.relationships (m.targetId, client.sub) ≠ some .BLOCKED ∧
      ∀ data', Agree data data' → Declared data' → Stores platform rt s client data' m) ↔
    Unforged rt client.sub data) ∧
    (Unforged rt client.sub data → ∀ data' m', Agree data data' → Unforged rt client.sub data' →
      Stores platform rt s client data' m' → m' = m) := by
  refine ⟨⟨?_, fun hun => ?_⟩, fun hun data' m' hagree hun' hstores' => ?_⟩
  · rintro ⟨hs, -, hsame⟩
    obtain ⟨data', hagree, hdecl⟩ := exists_declared data
    obtain ⟨-, hid, hca, hua⟩ := stores_fields (hsame data' hagree hdecl)
    rw [get_of_declared hdecl (by decide)] at hid hca hua
    exact (unforged_iff hstores).mpr ⟨hs, (Except.ok.inj hid).symm, (Except.ok.inj hca).symm, (Except.ok.inj hua).symm⟩
  · obtain ⟨hs, hid, hca, hua⟩ := (unforged_iff hstores).mp hun
    obtain ⟨-, -, hb, -⟩ := createDirectMessage_ok.mp (stores_iff.mp hstores)
    rw [hs] at hb
    exact ⟨hs, hb, fun data' => stores_declared hstores hs hid hca hua⟩
  · obtain ⟨hs, hid, hca, hua⟩ := (unforged_iff hstores).mp hun
    obtain ⟨hs', hid', hca', hua'⟩ := (unforged_iff hstores').mp hun'
    exact (stored_eq hstores hstores' hagree (hs.trans hs'.symm) (hid.trans hid'.symm) (hca.trans hca'.symm)
      (hua.trans hua'.symm)).symm

/-- The server over the sample accounts, without messages. -/
def emptyChat : Chat := .connected ⟨activeAccounts, fun _ => none, [], fun _ => none, []⟩ []

/-- A message to carol in the name of bob. -/
def forgedPayload : List (String × Json) :=
  [("targetId", .str "carol"), ("content", .str "hi"), ("type", .str "TEXT"), ("senderId", .str "bob")]

/-- A payload can forge the sender: alice stores a message of bob's. -/
theorem not_authorship :
    ¬∀ (platform : Platform) (rt : Runtime) (s : Chat) (client : SocketWithAuth) (data : List (String × Json))
      (m : DirectMessage), Stores platform rt s client data m →
      m.senderId = client.sub ∧ s.db.relationships (m.targetId, client.sub) ≠ some .BLOCKED ∧
        ∀ data' m', Agree data data' → Stores platform rt s client data' m' → m' = m := by
  intro h
  have hstores : Stores stringPlatform (runtimeAt "m1" 7) emptyChat ⟨"s1", "alice"⟩ forgedPayload
      { id := "m1", senderId := "bob", targetId := "carol", content := "hi", createdAt := 7, updatedAt := 7 } := rfl
  exact absurd (h _ _ _ _ _ _ hstores).1 (by decide)

/-- A payload of the declared fields. -/
def plainPayload : List (String × Json) :=
  [("targetId", .str "carol"), ("content", .str "hi"), ("type", .str "IMAGE")]

theorem authorship_iff_sample :
    ∃ m, Stores stringPlatform (runtimeAt "m1" 7) emptyChat ⟨"s1", "alice"⟩ plainPayload m ∧ m.senderId = "alice" := by
  have hun : Unforged (runtimeAt "m1" 7) "alice" plainPayload := by
    simp [Unforged, plainPayload, Obj.spread, Obj.get, Obj.last]
  exact ⟨⟨"m1", "alice", "carol", "hi", .IMAGE, 7, 7⟩, rfl,
    ((authorship_iff stringPlatform (runtimeAt "m1" 7) emptyChat ⟨"s1", "alice"⟩ plainPayload _ rfl).1.mpr hun).1⟩

end DiscordClone
