import DiscordClone.User.Refinement

/-!
# Friendship needs the consent of both

The history of a serial run is the list of its calls that succeeded, newest first. Since the pair `a`, `b` was last
separated (`sinceSeparated`), the owner of a REQUESTING or FRIEND row of the pair has itself sent a request to the other
or accepted one from it (`Consented`), which every call keeps (`consented_record`). So two friends have both consented.
-/

namespace DiscordClone

open Transaction Relationships

/-- A call that succeeded: its operation, who made it and about whom. -/
structure Done where
  kind : Kind
  caller : String
  about : String
  deriving DecidableEq, Repr

namespace Done

/-- The call is one of `a` and `b` about the other. -/
def between (a b : String) (d : Done) : Bool :=
  decide (d.caller = a ∧ d.about = b) || decide (d.caller = b ∧ d.about = a)

/-- An ignore, cancel, removal or block between `a` and `b`. -/
def separates (a b : String) (d : Done) : Bool :=
  d.between a b && decide (d.kind = .ignore ∨ d.kind = .cancel ∨ d.kind = .remove ∨ d.kind = .block)

/-- `a` sends a request to `b` or accepts one of `b`. -/
def consents (a b : String) (d : Done) : Bool :=
  decide (d.caller = a ∧ d.about = b) && decide (d.kind = .send ∨ d.kind = .accept)

end Done

/-- A table with the calls that led to it, newest first. -/
structure Recorded where
  table : Relationships
  history : List Done

/-- A call, recorded when it succeeds. -/
def record (accounts : Accounts) (s : Recorded) (c : Call) : Recorded :=
  match c.commits accounts s.table, c.target accounts with
  | some rel, some y => ⟨rel, ⟨c.kind, c.account, y⟩ :: s.history⟩
  | _, _ => s

/-- A serial run from the empty table with its history. -/
def recordRun (accounts : Accounts) (calls : List Call) : Recorded :=
  calls.foldl (record accounts) ⟨noRelationships, []⟩

/-- The calls since the pair was last separated. -/
def sinceSeparated (a b : String) (history : List Done) : List Done := history.takeWhile fun d => !d.separates a b

/-- `a` has consented to `b` since the pair was last separated. -/
def HasConsented (a b : String) (history : List Done) : Prop :=
  ∃ d ∈ sinceSeparated a b history, d.consents a b = true

/-- A row that its owner has asked for. -/
def Asked (s : Option RelationshipStatus) : Prop := s = some .REQUESTING ∨ s = some .FRIEND

/-- The owner of every row that is asked for has consented. -/
def Consented (s : Recorded) : Prop :=
  WellPaired s.table ∧ ∀ a b, Asked (s.table (a, b)) → HasConsented a b s.history

/-! ## One call -/

section Step

variable {a b x y : String} {k : Kind} {history : List Done}

theorem separates_comm (a b : String) (d : Done) : d.separates a b = d.separates b a := by
  simp [Done.separates, Done.between, Bool.or_comm]

theorem sinceSeparated_comm (a b : String) (history : List Done) :
    sinceSeparated a b history = sinceSeparated b a history := by
  simp only [sinceSeparated, separates_comm a b]

/-- A call that does not separate the pair leaves its consents. -/
theorem HasConsented.cons {d : Done} (h : HasConsented a b history) (hd : d.separates a b = false) :
    HasConsented a b (d :: history) := by
  obtain ⟨d', hd', hc⟩ := h
  refine ⟨d', ?_, hc⟩
  rw [sinceSeparated, List.takeWhile_cons_of_pos (by simp [hd])]
  exact List.mem_cons_of_mem _ hd'

/-- A request or an acceptance does not separate. -/
theorem separates_consent (hk : k = .send ∨ k = .accept) : Done.separates a b ⟨k, x, y⟩ = false := by
  rcases hk with rfl | rfl <;> simp [Done.separates]

/-- A request or an acceptance is a consent. -/
theorem hasConsented_self (hk : k = .send ∨ k = .accept) : HasConsented x y (⟨k, x, y⟩ :: history) := by
  have hs : Done.separates x y ⟨k, x, y⟩ = false := separates_consent hk
  refine ⟨⟨k, x, y⟩, ?_, by simpa [Done.consents] using hk⟩
  rw [sinceSeparated, List.takeWhile_cons_of_pos (by simp [hs])]
  exact List.mem_cons_self

/-- The caller's row is asked for only after a request or an acceptance. -/
theorem asked_own {p q : Option RelationshipStatus} {r : Option RelationshipStatus × Option RelationshipStatus}
    (hr : k.rows p q = some r) (h : Asked r.1) : k = .send ∨ k = .accept := by
  cases k with
  | send => exact Or.inl rfl
  | accept => exact Or.inr rfl
  | block => simp [Kind.rows] at hr; subst hr; simp [Asked] at h
  | _ =>
    simp [Kind.rows] at hr
    obtain ⟨-, rfl⟩ := hr
    simp [Asked] at h

/-- The other row is asked for only when it was before, and no operation that separates leaves it so. -/
theorem asked_other {p q : Option RelationshipStatus} {r : Option RelationshipStatus × Option RelationshipStatus}
    (hp : Paired p q) (hr : k.rows p q = some r) (h : Asked r.2) : Asked q ∧ (k = .send ∨ k = .accept) := by
  cases k <;> cases hp <;> simp [Kind.rows] at hr <;> subst hr <;> simp_all [Asked]

/-- A call separates only its own pair. -/
theorem separates_ne {d : Done} (h₁ : (a, b) ≠ (d.caller, d.about)) (h₂ : (a, b) ≠ (d.about, d.caller)) :
    d.separates a b = false := by
  have h : d.between a b = false := by
    simp only [Done.between, Bool.or_eq_false_iff, decide_eq_false_iff_not]
    exact ⟨fun e => h₁ (by rw [e.1, e.2]), fun e => h₂ (by rw [e.1, e.2])⟩
  simp [Done.separates, h]

/-- **A call keeps the consents.** -/
theorem consented_record {accounts : Accounts} {s : Recorded} (h : Consented s) (c : Call) :
    Consented (record accounts s c) := by
  obtain ⟨hwp, hcon⟩ := h
  unfold record
  split
  · rename_i rel y hc ht
    obtain ⟨y', r, ht', ha, hr, rfl⟩ := commits_cases hc
    cases ht.symm.trans ht'
    refine ⟨hwp.setPair ha.1 (rows_paired (hwp.paired _ _ ha.1) hr), fun a b hab => ?_⟩
    simp only at hab ⊢
    by_cases h₁ : (a, b) = (c.account, y)
    · -- the caller's own row: this call is the consent
      cases h₁
      rw [setPair_own ha.1] at hab
      exact hasConsented_self (asked_own hr hab)
    · by_cases h₂ : (a, b) = (y, c.account)
      · cases h₂
        rw [setPair_other] at hab
        obtain ⟨hq, hk⟩ := asked_other (hwp.paired _ _ ha.1) hr hab
        exact (hcon _ _ hq).cons (separates_consent hk)
      · rw [setPair_frame h₁ h₂] at hab
        exact (hcon a b hab).cons (separates_ne h₁ h₂)
  · exact ⟨hwp, hcon⟩

end Step

/-- **A run keeps the consents.** -/
theorem consented_run (accounts : Accounts) : ∀ (calls : List Call) {s : Recorded}, Consented s →
    Consented (calls.foldl (record accounts) s)
  | [], _, h => h
  | c :: calls, _, h => consented_run accounts calls (consented_record h c)

theorem consented_empty : Consented ⟨noRelationships, []⟩ :=
  ⟨wellPaired_empty, fun _ _ h => by rcases h with h | h <;> cases h⟩

/-- The table of a recorded run is the table of the run. -/
theorem recordRun_table (accounts : Accounts) (calls : List Call) :
    (recordRun accounts calls).table = runCalls accounts noRelationships calls := by
  suffices ∀ s : Recorded, (calls.foldl (record accounts) s).table = runCalls accounts s.table calls from
    this ⟨noRelationships, []⟩
  induction calls with
  | nil => intro s; rfl
  | cons c calls ih =>
    intro s
    have hrec : (record accounts s c).table = c.apply accounts s.table := by
      unfold record
      rcases apply_cases accounts s.table c with ⟨hn, he⟩ | ⟨y, r, ht, -, -, hc, he⟩
      · simp [hn, he]
      · simp [ht, hc, he]
    rw [List.foldl_cons, ih, hrec]
    rfl

/-- **Friendship needs consent of both sides.** After any serial run from the empty table, two accounts whose rows are
FRIEND have each sent the other a request or accepted one since they were last separated. -/
theorem friends_have_consented (accounts : Accounts) (calls : List Call) (a b : String)
    (hab : (recordRun accounts calls).table (a, b) = some .FRIEND)
    (hba : (recordRun accounts calls).table (b, a) = some .FRIEND) :
    (∃ d ∈ sinceSeparated a b (recordRun accounts calls).history, d.consents a b = true) ∧
      ∃ d ∈ sinceSeparated a b (recordRun accounts calls).history, d.consents b a = true := by
  obtain ⟨-, hcon⟩ := consented_run accounts calls consented_empty
  refine ⟨hcon a b (Or.inr hab), ?_⟩
  rw [sinceSeparated_comm]
  exact hcon b a (Or.inr hba)

/-- A run with a block and crossing requests that ends in a friendship. -/
def blockThenFriends : List Call :=
  [.blockUser "alice" "bob", .sendFriendRequest "alice" { targetId := some "bob" },
    .sendFriendRequest "bob" { targetUsername := some "alice" }]

theorem friends_have_consented_sample :
    (∃ d ∈ sinceSeparated "alice" "bob" (recordRun activeAccounts blockThenFriends).history,
        d.consents "alice" "bob" = true) ∧
      ∃ d ∈ sinceSeparated "alice" "bob" (recordRun activeAccounts blockThenFriends).history,
        d.consents "bob" "alice" = true :=
  friends_have_consented activeAccounts blockThenFriends "alice" "bob" (by decide) (by decide)

end DiscordClone
