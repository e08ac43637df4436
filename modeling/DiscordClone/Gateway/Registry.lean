import DiscordClone.Gateway.Chat
import DiscordClone.Lib.Machine

/-!
# The registry of clients

`handleConnection` and `handleDisconnect` wait for `updateConnectionStatus` and then add or remove the client. A step
begins a handler, ends the update it waits for, or runs the rest of it; the handlers of all sockets interleave, and a
socket may go before the handler of its connection has finished.

- `removeClient_eq`: a client that is not in the list takes the last one with it.
- `entries_step`: a step keeps one entry for each socket that has been added and not removed exactly when it is
  `Orderly`.
- `registry_iff`: the registry tracks the sockets in every run of orderly steps, and in no other run to its end.
-/

namespace DiscordClone

/-- `Client` of `gateway.type.ts`. -/
structure Client where
  accountId : String
  socketId : String
  deriving DecidableEq, Repr

/-- `{ accountId: auth.sub, socketId: client.id }`. -/
def SocketWithAuth.entry (client : SocketWithAuth) : Client := ⟨client.sub, client.id⟩

namespace ChatGateway

/-- `clients.findIndex((e) => e.accountId === client.accountId && e.socketId === client.socketId)`. -/
def findIndex (clients : List Client) (client : Client) : Int :=
  match clients.findIdx? fun e => e.accountId = client.accountId ∧ e.socketId = client.socketId with
  | some i => i
  | none => -1

/-- `clients.splice(start, 1)`; a negative `start` counts from the end. -/
def splice (clients : List Client) (start : Int) : List Client :=
  clients.eraseIdx (if start < 0 then max (clients.length + start) 0 else start).toNat

def addClient (clients : List Client) (client : Client) : List Client := clients ++ [client]

def removeClient (clients : List Client) (client : Client) : List Client := splice clients (findIndex clients client)

end ChatGateway

open ChatGateway

/-- The two handlers of a socket. -/
inductive Callback where
  | handleConnection | handleDisconnect
  deriving DecidableEq, Repr

/-- How far a handler has come: its update is waited for, has completed or has failed, or the handler has finished. -/
inductive Phase where
  | unbegun | waiting | completed | failed | finished
  deriving DecidableEq, Repr

/-- The list of clients, and the handlers of all sockets. -/
structure Registry where
  clients : List Client
  phase : Callback → SocketWithAuth → Phase

/-- A handler begins, its update ends, or the rest of it runs. -/
inductive RegistryEvent where
  | begins (callback : Callback) (client : SocketWithAuth)
  | updated (callback : Callback) (client : SocketWithAuth) (completes : Bool)
  | resumes (callback : Callback) (client : SocketWithAuth)

namespace Registry

def init : Registry := ⟨[], fun _ _ => .unbegun⟩

/-- A handler moves on. -/
def move (s : Registry) (callback : Callback) (client : SocketWithAuth) (phase : Phase) : Registry :=
  { s with phase := fun k c => if k = callback ∧ c = client then phase else s.phase k c }

/-- The list after the rest of a handler. -/
def resumed (clients : List Client) (client : Client) : Callback → List Client
  | .handleConnection => addClient clients client
  | .handleDisconnect => removeClient clients client

/-- A socket connects once, and disconnects once after that. -/
def step (s : Registry) : RegistryEvent → Option Registry
  | .begins k c =>
    if s.phase k c = .unbegun ∧ (k = .handleDisconnect → s.phase .handleConnection c ≠ .unbegun) then
      some (s.move k c .waiting)
    else none
  | .updated k c completes =>
    if s.phase k c = .waiting then some (s.move k c (if completes then .completed else .failed)) else none
  | .resumes k c =>
    if s.phase k c = .completed then some { s.move k c .finished with clients := resumed s.clients c.entry k } else none

/-- The socket is connected. -/
def Connected (s : Registry) (c : SocketWithAuth) : Prop :=
  s.phase .handleConnection c ≠ .unbegun ∧ s.phase .handleDisconnect c = .unbegun

/-- The update of its connection has succeeded. -/
def Updated (s : Registry) (c : SocketWithAuth) : Prop :=
  s.phase .handleConnection c = .completed ∨ s.phase .handleConnection c = .finished

/-- The handler of its disconnection has ended. -/
def Gone (s : Registry) (c : SocketWithAuth) : Prop :=
  s.phase .handleDisconnect c = .failed ∨ s.phase .handleDisconnect c = .finished

instance (s : Registry) (c : SocketWithAuth) : Decidable (s.Connected c) := inferInstanceAs (Decidable (_ ∧ _))
instance (s : Registry) (c : SocketWithAuth) : Decidable (s.Updated c) := inferInstanceAs (Decidable (_ ∨ _))
instance (s : Registry) (c : SocketWithAuth) : Decidable (s.Gone c) := inferInstanceAs (Decidable (_ ∨ _))

/-- No handler is pending. -/
def Idle (s : Registry) : Prop := ∀ k c, s.phase k c ≠ .waiting ∧ s.phase k c ≠ .completed

/-- One entry for each connected socket whose update has succeeded, and no other. -/
def Exact (s : Registry) : Prop :=
  ∀ c, s.clients.count c.entry = if s.Connected c ∧ s.Updated c then 1 else 0

/-- No entry goes but by the handler of its own disconnection. -/
def OwnRemoval (s : Registry) (e : RegistryEvent) : Prop :=
  ∀ s', s.step e = some s' → ∀ c, s'.clients.count c.entry < s.clients.count c.entry → e = .resumes .handleDisconnect c

/-- A socket is added before it is removed, and every entry is removed. -/
def Orderly (s : Registry) : RegistryEvent → Prop
  | .resumes .handleConnection c => ¬s.Gone c
  | .resumes .handleDisconnect c => c.entry ∈ s.clients ∨ s.clients = []
  | .updated .handleDisconnect c false => c.entry ∉ s.clients
  | _ => True

instance (s : Registry) : ∀ e, Decidable (s.Orderly e)
  | .resumes .handleConnection c => inferInstanceAs (Decidable (¬s.Gone c))
  | .resumes .handleDisconnect c => inferInstanceAs (Decidable (c.entry ∈ s.clients ∨ s.clients = []))
  | .updated .handleDisconnect c false => inferInstanceAs (Decidable (c.entry ∉ s.clients))
  | .updated .handleDisconnect _ true | .updated .handleConnection _ _ | .begins _ _ => .isTrue trivial

/-- The entries that are due to a socket: one after it has been added, until it is gone. -/
def due (s : Registry) (c : SocketWithAuth) : Nat :=
  if s.phase .handleConnection c = .finished ∧ ¬s.Gone c then 1 else 0

/-- Each socket has the entries that are due to it. -/
def Entries (s : Registry) : Prop := ∀ c, s.clients.count c.entry = s.due c

/-- An entry of a socket that is gone. -/
def Stale (s : Registry) (c : SocketWithAuth) : Prop := c.entry ∈ s.clients ∧ s.Gone c

end Registry

/-! ## The list -/

section Clients

variable {clients : List Client} {c d : Client}

/-- **A client that is not found takes the last one with it.** -/
theorem removeClient_eq (clients : List Client) (c : Client) :
    removeClient clients c = if c ∈ clients then clients.erase c else clients.dropLast := by
  have hpred : (fun e : Client => decide (e.accountId = c.accountId ∧ e.socketId = c.socketId)) = (· == c) := by
    funext e
    cases e
    cases c
    simp [Client.mk.injEq, Bool.beq_eq_decide_eq]
  unfold removeClient findIndex
  rw [hpred]
  split_ifs with hc
  · have hfound : clients.findIdx? (· == c) = some (clients.findIdx (· == c)) :=
      List.findIdx?_eq_some_of_exists ⟨c, hc, beq_self_eq_true c⟩
    rw [hfound]
    have hpos : ¬((clients.findIdx (· == c) : Int) < 0) := by omega
    simp only [splice, hpos, if_false, Int.toNat_natCast]
    exact List.eraseIdx_idxOf_eq_erase c clients
  · have hnone : clients.findIdx? (· == c) = none := by
      refine List.findIdx?_eq_none_iff.mpr fun e he => ?_
      exact beq_eq_false_iff_ne.mpr fun heq => hc (heq ▸ he)
    rw [hnone]
    simp only [splice]
    rcases clients.eq_nil_or_concat with rfl | ⟨l, e, rfl⟩
    · rfl
    · rw [List.eraseIdx_eq_dropLast]
      simp

theorem count_addClient : (addClient clients c).count d = clients.count d + if c = d then 1 else 0 := by
  simp [addClient, List.count_singleton]

/-- A client that is found is removed, and no other. -/
theorem count_removeClient (hc : c ∈ clients) :
    (removeClient clients c).count d = clients.count d - if c = d then 1 else 0 := by
  rw [removeClient_eq, if_pos hc, List.count_erase]
  simp

/-- A client that is not found costs another one its entry. -/
theorem exists_removed (hc : c ∉ clients) (hne : clients ≠ []) :
    ∃ d ∈ clients, (removeClient clients c).count d < clients.count d := by
  obtain ⟨l, d, rfl⟩ := (clients.eq_nil_or_concat).resolve_left hne
  refine ⟨d, by simp, ?_⟩
  rw [removeClient_eq, if_neg hc, List.concat_eq_append, List.dropLast_concat]
  simp

theorem client_entry_inj {a b : SocketWithAuth} : a.entry = b.entry ↔ a = b := by
  cases a
  cases b
  simp [SocketWithAuth.entry, and_comm]

theorem exists_entry (c : Client) : ∃ a : SocketWithAuth, a.entry = c := ⟨⟨c.socketId, c.accountId⟩, rfl⟩

end Clients

/-! ## The steps -/

namespace Registry

variable {s s' : Registry} {k k' : Callback} {c d : SocketWithAuth} {p : Phase} {completes : Bool} {e : RegistryEvent}
  {events : List RegistryEvent}

@[simp] theorem clients_move : (s.move k c p).clients = s.clients := rfl

theorem phase_move_self : (s.move k c p).phase k c = p := if_pos ⟨rfl, rfl⟩

theorem phase_move_ne (h : d ≠ c) : (s.move k c p).phase k' d = s.phase k' d := if_neg fun h' => h h'.2

theorem phase_move_other (h : k' ≠ k) : (s.move k c p).phase k' d = s.phase k' d := if_neg fun h' => h h'.1

theorem step_begins : s.step (.begins k c) = some s' ↔ (s.phase k c = .unbegun ∧
    (k = .handleDisconnect → s.phase .handleConnection c ≠ .unbegun)) ∧ s' = s.move k c .waiting := by
  simp [step, eq_comm]

theorem step_updated : s.step (.updated k c completes) = some s' ↔
    s.phase k c = .waiting ∧ s' = s.move k c (if completes then .completed else .failed) := by
  simp [step, eq_comm]

theorem step_resumes : s.step (.resumes k c) = some s' ↔ s.phase k c = .completed ∧
    s' = { s.move k c .finished with clients := resumed s.clients c.entry k } := by
  simp [step, eq_comm]

theorem due_of_gone (h : s.Gone c) : s.due c = 0 := if_neg fun h' => h'.2 h

theorem due_le_one : s.due c ≤ 1 := by
  unfold due
  split <;> omega

/-- What happens to one socket is no matter to the others. -/
theorem due_move_ne (h : d ≠ c) : (s.move k c p).due d = s.due d := by
  refine if_congr ?_ rfl rfl
  simp [Gone, phase_move_ne h]

/-- How far a handler has come when it has not touched the list yet. -/
def Undone : Callback → Phase → Prop
  | .handleConnection, p => p ≠ .finished
  | .handleDisconnect, p => p ≠ .failed ∧ p ≠ .finished

/-- A handler that has not touched the list does not matter. -/
theorem entries_move (h : Undone k (s.phase k c)) (h' : Undone k p) : (s.move k c p).Entries ↔ s.Entries := by
  refine forall_congr' fun d => ?_
  have hsame : (s.move k c p).due d = s.due d := by
    by_cases hd : d = c
    · subst hd
      refine if_congr ?_ rfl rfl
      cases k with
      | handleConnection =>
        have hdone : s.phase .handleConnection d ≠ .finished := h
        have hdone' : p ≠ .finished := h'
        simp [phase_move_self, hdone, hdone']
      | handleDisconnect =>
        obtain ⟨hfailed, hfinished⟩ := h
        obtain ⟨hfailed', hfinished'⟩ := h'
        simp [Gone, phase_move_self, phase_move_other, hfailed, hfinished, hfailed', hfinished']
    · exact due_move_ne hd
  rw [clients_move, hsame]

/-- A handler that has touched no entry but its own: only its own socket is in question. -/
theorem entries_own (hs : s.Entries) {clients : List Client}
    (hother : ∀ d, d ≠ c → clients.count d.entry = s.clients.count d.entry) :
    ({ s.move k c p with clients := clients } : Registry).Entries ↔ clients.count c.entry = (s.move k c p).due c := by
  refine ⟨fun h => h c, fun h d => ?_⟩
  by_cases hd : d = c
  · subst hd
    exact h
  · have hcount := (hother d hd).trans (hs d)
    exact hcount.trans (due_move_ne hd).symm

/-- An entry is added for a socket that nothing has removed before. -/
theorem entries_added (hs : s.Entries) (hp : s.phase .handleConnection c = .completed) :
    ({ s.move .handleConnection c .finished with clients := addClient s.clients c.entry } : Registry).Entries ↔
      ¬s.Gone c := by
  have hnone : s.clients.count c.entry = 0 := by
    rw [hs c, due, if_neg]
    simp [hp]
  refine (entries_own hs fun d hd => ?_).trans ?_
  · have hne : c.entry ≠ d.entry := fun h => hd (client_entry_inj.mp h).symm
    simp [count_addClient, hne]
  · have hgone : (s.move .handleConnection c .finished).Gone c ↔ s.Gone c := by
      simp [Gone, phase_move_other]
    simp only [count_addClient, hnone, due, phase_move_self, hgone, true_and, if_true]
    by_cases hg : s.Gone c
    · simp [hg]
    · simp [hg]

/-- The entry of the socket is removed, or there is nothing to remove. -/
theorem entries_removed (hs : s.Entries) :
    ({ s.move .handleDisconnect c .finished with clients := removeClient s.clients c.entry } : Registry).Entries ↔
      c.entry ∈ s.clients ∨ s.clients = [] := by
  by_cases hmem : c.entry ∈ s.clients
  · refine iff_of_true ((entries_own hs fun d hd => ?_).mpr ?_) (Or.inl hmem)
    · have hne : c.entry ≠ d.entry := fun h => hd (client_entry_inj.mp h).symm
      simp [count_removeClient hmem, hne]
    · have hone : s.clients.count c.entry ≤ 1 := (hs c).trans_le due_le_one
      rw [due_of_gone (Or.inr phase_move_self), count_removeClient hmem, if_pos rfl]
      omega
  · by_cases hnil : s.clients = []
    · refine iff_of_true ((entries_own hs fun d hd => ?_).mpr ?_) (Or.inr hnil)
      · rw [hnil]
        rfl
      · rw [due_of_gone (Or.inr phase_move_self), hnil]
        rfl
    · -- the last entry is that of another socket, which nothing else has happened to
      refine iff_of_false (fun hs' => ?_) (not_or.mpr ⟨hmem, hnil⟩)
      obtain ⟨entry, hentry, hlt⟩ := exists_removed hmem hnil
      obtain ⟨d, rfl⟩ := exists_entry entry
      have hd : d ≠ c := by
        rintro rfl
        exact hmem hentry
      have hafter : (removeClient s.clients c.entry).count d.entry =
          (s.move .handleDisconnect c .finished).due d := hs' d
      rw [due_move_ne hd, ← hs d] at hafter
      omega

/-- **A step keeps one entry for each socket exactly when it is orderly.** -/
theorem entries_step (hs : s.Entries) (h : s.step e = some s') : s'.Entries ↔ s.Orderly e := by
  cases e with
  | begins k c =>
    obtain ⟨⟨hp, -⟩, rfl⟩ := step_begins.mp h
    have hundone : Undone k (s.phase k c) ∧ Undone k .waiting := by
      rw [hp]
      cases k <;> simp [Undone]
    exact iff_of_true ((entries_move hundone.1 hundone.2).mpr hs) trivial
  | updated k c completes =>
    obtain ⟨hp, rfl⟩ := step_updated.mp h
    have hwaiting : Undone k (s.phase k c) := by
      rw [hp]
      cases k <;> simp [Undone]
    cases completes with
    | true =>
      have hcompleted : Undone k .completed := by cases k <;> simp [Undone]
      exact iff_of_true ((entries_move hwaiting hcompleted).mpr hs) (by cases k <;> trivial)
    | false =>
      cases k with
      | handleConnection => exact iff_of_true ((entries_move hwaiting (by simp [Undone])).mpr hs) trivial
      | handleDisconnect =>
        -- the entry stays, if there is one
        have hown := entries_own (k := .handleDisconnect) (p := .failed) hs (c := c) fun d _ => rfl
        refine hown.trans ?_
        rw [due_of_gone (Or.inl phase_move_self)]
        exact List.count_eq_zero
  | resumes k c =>
    obtain ⟨hp, rfl⟩ := step_resumes.mp h
    cases k with
    | handleConnection => exact entries_added hs hp
    | handleDisconnect => exact entries_removed hs

/-- An orderly step removes no entry but its own. -/
theorem ownRemoval_of_orderly (h : s.Orderly e) : s.OwnRemoval e := by
  intro s' hs d hlt
  cases e with
  | begins k c =>
    obtain ⟨-, rfl⟩ := step_begins.mp hs
    exact absurd hlt (Nat.lt_irrefl _)
  | updated k c completes =>
    obtain ⟨-, rfl⟩ := step_updated.mp hs
    exact absurd hlt (Nat.lt_irrefl _)
  | resumes k c =>
    obtain ⟨-, rfl⟩ := step_resumes.mp hs
    cases k with
    | handleConnection =>
      simp only [resumed, count_addClient] at hlt
      omega
    | handleDisconnect =>
      rcases h with hmem | hnil
      · have hown : c.entry = d.entry := by
          by_contra hne
          rw [resumed, count_removeClient hmem, if_neg hne] at hlt
          omega
        rw [client_entry_inj.mp hown]
      · rw [hnil] at hlt
        cases hlt

/-- A step that removes no entry but its own leaves a stale one when it is not orderly. -/
theorem stale_of_not_orderly (hown : s.OwnRemoval e) (h : ¬s.Orderly e) (hs : s.step e = some s') :
    ∃ c, s'.Stale c := by
  cases e with
  | begins k c => exact absurd trivial h
  | updated k c completes =>
    obtain ⟨-, rfl⟩ := step_updated.mp hs
    cases k with
    | handleConnection => exact absurd trivial h
    | handleDisconnect =>
      cases completes with
      | true => exact absurd trivial h
      | false => exact ⟨c, not_not.mp h, Or.inl phase_move_self⟩
  | resumes k c =>
    obtain ⟨-, rfl⟩ := step_resumes.mp hs
    cases k with
    | handleConnection =>
      have hgone : s.Gone c := not_not.mp h
      refine ⟨c, List.mem_append_right _ List.mem_cons_self, ?_⟩
      simpa [Gone, phase_move_other] using hgone
    | handleDisconnect =>
      obtain ⟨hmem, hnil⟩ := not_or.mp h
      obtain ⟨entry, hentry, hlt⟩ := exists_removed hmem hnil
      obtain ⟨d, rfl⟩ := exists_entry entry
      cases hown _ hs d hlt
      exact absurd hentry hmem

/-- A socket that is gone stays so. -/
theorem gone_move (h : s.Gone c) (hfailed : s.phase k d ≠ .failed) (hfinished : s.phase k d ≠ .finished) :
    (s.move k d p).Gone c := by
  have hother : ¬(Callback.handleDisconnect = k ∧ c = d) := by
    rintro ⟨rfl, rfl⟩
    exact h.elim hfailed hfinished
  have hphase : (s.move k d p).phase .handleDisconnect c = s.phase .handleDisconnect c := if_neg hother
  rw [Gone, hphase]
  exact h

/-- A stale entry stays. -/
theorem stale_step (hown : s.OwnRemoval e) (h : s.Stale c) (hs : s.step e = some s') : s'.Stale c := by
  have hgone : s'.Gone c ∧ e ≠ .resumes .handleDisconnect c := by
    cases e with
    | begins k d =>
      obtain ⟨⟨hp, -⟩, rfl⟩ := step_begins.mp hs
      exact ⟨gone_move h.2 (by simp [hp]) (by simp [hp]), by simp⟩
    | updated k d completes =>
      obtain ⟨hp, rfl⟩ := step_updated.mp hs
      exact ⟨gone_move h.2 (by simp [hp]) (by simp [hp]), by simp⟩
    | resumes k d =>
      obtain ⟨hp, rfl⟩ := step_resumes.mp hs
      refine ⟨gone_move h.2 (by simp [hp]) (by simp [hp]), fun he => ?_⟩
      cases he
      rcases h.2 with hfailed | hfinished
      · cases hp.symm.trans hfailed
      · cases hp.symm.trans hfinished
  refine ⟨?_, hgone.1⟩
  by_contra hlost
  have hzero := List.count_eq_zero.mpr hlost
  have hpos := List.count_pos_iff.mpr h.1
  exact hgone.2 (hown s' hs c (by omega))

/-- A stale entry stays to the end of the run. -/
theorem stale_run (hown : Machine.Along step OwnRemoval s events) (h : s.Stale c)
    (hrun : Machine.run step s events = some s') : s'.Stale c :=
  Machine.run_inv (fun _ _ _ hstale howns hs => stale_step howns hstale hs) h hown hrun

/-- At rest, the entries are those of the connected sockets. -/
theorem exact_of_idle (h : s.Entries) (hidle : s.Idle) : s.Exact := by
  intro c
  have hconnection := hidle .handleConnection c
  have hdisconnect := hidle .handleDisconnect c
  rw [h c]
  refine if_congr ?_ rfl rfl
  unfold Gone Connected Updated
  cases hp : s.phase .handleConnection c <;> cases hq : s.phase .handleDisconnect c <;> simp_all

/-- **A run that ends at rest without a stale entry has been orderly.** -/
theorem orderly_of_tracked : ∀ {events : List RegistryEvent} {s s' : Registry},
    Machine.Along step OwnRemoval s events → Machine.run step s events = some s' → (∀ c, ¬s'.Stale c) →
    Machine.Along step Orderly s events
  | [], _, _, _, _, _ => trivial
  | e :: events, s, s', hown, hrun, hclean => by
    obtain ⟨u, hu, hrest⟩ := Machine.run_cons.mp hrun
    have horderly : s.Orderly e := by
      by_contra h
      obtain ⟨c, hc⟩ := stale_of_not_orderly hown.1 h hu
      exact hclean c (stale_run (hown.2 u hu) hc hrest)
    refine ⟨horderly, fun u' hu' => ?_⟩
    cases hu.symm.trans hu'
    exact orderly_of_tracked (hown.2 u hu) hrest hclean

end Registry

open Registry

/-- **The registry tracks the connected sockets as long as every removal finds its entry and every entry is removed.**
For every interleaving of the handlers of any sockets: when every step is orderly, no entry is removed but by its own
socket, and whenever no handler is pending there is one entry for each connected socket whose update has succeeded and
none for any other; and a run to a state where no handler is pending has both only if every step is orderly. -/
theorem registry_iff (events : List RegistryEvent) (s : Registry)
    (hrun : Machine.run Registry.step .init events = some s) :
    (Machine.Along Registry.step Orderly .init events →
      Machine.Along Registry.step OwnRemoval .init events ∧
        Machine.Always Registry.step (fun s => s.Idle → s.Exact) .init events) ∧
    (s.Idle → Machine.Along Registry.step OwnRemoval .init events →
      Machine.Always Registry.step (fun s => s.Idle → s.Exact) .init events →
      Machine.Along Registry.step Orderly .init events) := by
  constructor
  · intro horderly
    have hinit : Entries .init := fun c => rfl
    have hentries : Machine.Always Registry.step Entries .init events :=
      (Machine.always_iff_along (fun _ _ _ hs h => entries_step hs h) hinit hrun).mpr horderly
    exact ⟨horderly.mono fun _ _ => ownRemoval_of_orderly, hentries.mono fun _ => exact_of_idle⟩
  · intro hidle hown hexact
    refine orderly_of_tracked hown hrun fun c hc => ?_
    have hcount := hexact.last hrun hidle c
    have hgone : ¬s.Connected c := fun h => by
      rcases hc.2 with hfailed | hfinished
      · cases h.2.symm.trans hfailed
      · cases h.2.symm.trans hfinished
    rw [if_neg fun h => hgone h.1] at hcount
    exact List.count_eq_zero.mp hcount hc.1

def socketOfAlice : SocketWithAuth := ⟨"s1", "alice"⟩

def socketOfBob : SocketWithAuth := ⟨"s2", "bob"⟩

/-- A handler that runs to its end. -/
def wholeHandler (k : Callback) (c : SocketWithAuth) : List RegistryEvent :=
  [.begins k c, .updated k c true, .resumes k c]

/-- Alice and bob connect, and alice goes. -/
theorem registry_sample :
    let events := wholeHandler .handleConnection socketOfAlice ++ wholeHandler .handleConnection socketOfBob ++
      wholeHandler .handleDisconnect socketOfAlice
    ∃ s, Machine.run Registry.step .init events = some s ∧ s.clients = [socketOfBob.entry] ∧
      Machine.Along Registry.step OwnRemoval .init events ∧
      Machine.Always Registry.step (fun s => s.Idle → s.Exact) .init events := by
  intro events
  refine ⟨_, rfl, rfl, (registry_iff events _ rfl).1 ?_⟩
  decide

/-- Alice goes before the handler of her connection has finished: bob is removed instead of her, and she is added after
that. -/
theorem registry_early_leave :
    let events := wholeHandler .handleConnection socketOfBob ++ .begins .handleConnection socketOfAlice ::
      wholeHandler .handleDisconnect socketOfAlice ++
      [.updated .handleConnection socketOfAlice true, .resumes .handleConnection socketOfAlice]
    ∃ s, Machine.run Registry.step .init events = some s ∧ s.Idle ∧ s.clients = [socketOfAlice.entry] ∧
      (s.Connected socketOfBob ∧ s.Updated socketOfBob ∧ ¬s.Connected socketOfAlice) ∧
      ¬Machine.Along Registry.step OwnRemoval .init events ∧
      ¬Machine.Always Registry.step (fun s => s.Idle → s.Exact) .init events := by
  intro events
  obtain ⟨s, hrun, hclients, hphase⟩ : ∃ s, Machine.run Registry.step .init events = some s ∧
      s.clients = [socketOfAlice.entry] ∧
      ∀ k c, s.phase k c =
        if c = socketOfAlice ∨ c = socketOfBob ∧ k = .handleConnection then .finished else .unbegun := by
    refine ⟨_, rfl, rfl, fun k c => ?_⟩
    by_cases ha : c = socketOfAlice
    · subst ha
      cases k <;> rfl
    · by_cases hb : c = socketOfBob
      · subst hb
        cases k <;> rfl
      · simp [move, Registry.init, ha, hb]
  have hidle : s.Idle := fun k c => by
    rw [hphase]
    split <;> decide
  have hbob : s.Connected socketOfBob ∧ s.Updated socketOfBob := by
    simp only [Connected, Updated, hphase]
    decide
  have halice : ¬s.Connected socketOfAlice := by
    simp only [Connected, hphase]
    decide
  refine ⟨s, hrun, hidle, hclients, ⟨hbob.1, hbob.2, halice⟩, fun hown => ?_, fun hexact => ?_⟩
  · -- the seventh step removes bob
    have hremoves := ((((((hown.2 _ rfl).2 _ rfl).2 _ rfl).2 _ rfl).2 _ rfl).2 _ rfl).1 _ rfl socketOfBob (by decide)
    have hsocket : socketOfAlice = socketOfBob := by injection hremoves
    exact absurd hsocket (by decide)
  · have hcount := hexact.last hrun hidle socketOfBob
    rw [if_pos hbob, hclients] at hcount
    cases hcount

end DiscordClone
