import Mathlib.Data.List.Nodup
import Mathlib.Logic.Function.Basic

/-!
# Lists that show the most recent first

For every key there is a list of elements, to whose front an element is added and from which it is removed. The history
tells which operations were made, in order, and which of them were carried out.

`Reflects` says that the list of a key is what the history makes of it: an element is on the list when it was added and
not removed since (`LastAdded`), and the one that was added last is in front. An operation keeps this, if it adds no
element that is there already (`reflects_snoc`).
-/

namespace Recency

variable {K α : Type}

inductive Op (K α : Type) where
  | add (k : K) (x : α)
  | remove (k : K) (x : α)
  deriving DecidableEq, Repr

/-- An operation, and whether it was carried out. -/
structure Entry (K α : Type) where
  op : Op K α
  done : Bool
  deriving DecidableEq, Repr

/-- The lists after an operation. -/
def Entry.apply [DecidableEq K] [DecidableEq α] (lists : K → List α) : Entry K α → K → List α
  | ⟨.add k x, true⟩ => Function.update lists k (x :: lists k)
  | ⟨.remove k x, true⟩ => Function.update lists k ((lists k).filter (· ≠ x))
  | ⟨_, false⟩ => lists

/-- The lists that a history makes of empty ones. -/
def replay [DecidableEq K] [DecidableEq α] (history : List (Entry K α)) : K → List α :=
  history.foldl Entry.apply fun _ => []

/-- The last time that `x` was added was operation `i`, and it has not been removed since. -/
def LastAdded (history : List (Entry K α)) (k : K) (x : α) (i : Nat) : Prop :=
  history[i]? = some ⟨.add k x, true⟩ ∧
    ∀ j, i < j → history[j]? ≠ some ⟨.add k x, true⟩ ∧ history[j]? ≠ some ⟨.remove k x, true⟩

/-- The list of a key is that of the history. -/
structure Reflects (history : List (Entry K α)) (k : K) (l : List α) : Prop where
  nodup : l.Nodup
  mem : ∀ x, x ∈ l ↔ ∃ i, LastAdded history k x i
  order : l.Pairwise fun x y => ∀ i j, LastAdded history k x i → LastAdded history k y j → j < i

section History

variable {history : List (Entry K α)} {l : List α} {e : Entry K α} {k : K} {x : α} {i : Nat}

theorem LastAdded.lt_length (h : LastAdded history k x i) : i < history.length := (List.getElem?_eq_some_iff.mp h.1).1

/-- One more operation: it adds the element itself, or leaves the last time as it was. -/
theorem lastAdded_snoc : LastAdded (history ++ [e]) k x i ↔
    i = history.length ∧ e = ⟨.add k x, true⟩ ∨
      LastAdded history k x i ∧ e ≠ ⟨.add k x, true⟩ ∧ e ≠ ⟨.remove k x, true⟩ := by
  have hold : ∀ {j}, j < history.length → (history ++ [e])[j]? = history[j]? := List.getElem?_append_left
  have hend : (history ++ [e])[history.length]? = some e := by simp
  have hout : ∀ {j}, history.length < j → (history ++ [e])[j]? = none := fun hj =>
    List.getElem?_eq_none (by rw [List.length_append]; exact hj)
  constructor
  · rintro ⟨hi, hafter⟩
    have hlt : i < history.length ∨ i = history.length := by
      have := (List.getElem?_eq_some_iff.mp hi).1
      rw [List.length_append, List.length_singleton] at this
      omega
    rcases hlt with hlt | rfl
    · obtain ⟨ha, hr⟩ := hafter _ hlt
      rw [hend] at ha hr
      rw [hold hlt] at hi
      refine Or.inr ⟨⟨hi, fun j hij => ?_⟩, fun he => ha (congrArg some he), fun he => hr (congrArg some he)⟩
      by_cases hj : j < history.length
      · rw [← hold hj]
        exact hafter j hij
      · rw [List.getElem?_eq_none (by omega)]
        exact ⟨nofun, nofun⟩
    · rw [hend] at hi
      exact Or.inl ⟨rfl, Option.some.inj hi⟩
  · rintro (⟨rfl, rfl⟩ | ⟨h, ha, hr⟩)
    · refine ⟨hend, fun j hj => ?_⟩
      rw [hout hj]
      exact ⟨nofun, nofun⟩
    · refine ⟨(hold h.lt_length).trans h.1, fun j hij => ?_⟩
      rcases Nat.lt_trichotomy j history.length with hj | rfl | hj
      · rw [hold hj]
        exact h.2 j hij
      · rw [hend]
        exact ⟨fun he => ha (Option.some.inj he), fun he => hr (Option.some.inj he)⟩
      · rw [hout hj]
        exact ⟨nofun, nofun⟩

/-- An operation on another element, or one that was not carried out. -/
theorem lastAdded_snoc_of_ne (ha : e ≠ ⟨.add k x, true⟩) (hr : e ≠ ⟨.remove k x, true⟩) :
    LastAdded (history ++ [e]) k x i ↔ LastAdded history k x i := by
  rw [lastAdded_snoc]
  simp [ha, hr]

/-- An element that has just been removed. -/
theorem not_lastAdded_removed : ¬LastAdded (history ++ [⟨.remove k x, true⟩]) k x i := by
  rw [lastAdded_snoc]
  simp

/-- An element that has just been added. -/
theorem lastAdded_added : LastAdded (history ++ [⟨.add k x, true⟩]) k x i ↔ i = history.length := by
  rw [lastAdded_snoc]
  simp

theorem reflects_nil (k : K) : Reflects ([] : List (Entry K α)) k [] where
  nodup := List.nodup_nil
  mem x := by simp [LastAdded]
  order := List.Pairwise.nil

/-- An operation on another list, or one that was not carried out, leaves the list. -/
theorem Reflects.keep (h : Reflects history k l) (ha : ∀ x, e ≠ ⟨.add k x, true⟩)
    (hr : ∀ x, e ≠ ⟨.remove k x, true⟩) : Reflects (history ++ [e]) k l := by
  refine ⟨h.nodup, fun x => ?_, ?_⟩
  · simp only [lastAdded_snoc_of_ne (ha x) (hr x)]
    exact h.mem x
  · simp only [lastAdded_snoc_of_ne (ha _) (hr _)]
    exact h.order

/-- A new element comes in front. -/
theorem Reflects.add (h : Reflects history k l) (hx : x ∉ l) :
    Reflects (history ++ [⟨.add k x, true⟩]) k (x :: l) := by
  have hsame : ∀ {y i}, y ≠ x → (LastAdded (history ++ [⟨.add k x, true⟩]) k y i ↔ LastAdded history k y i) :=
    fun hy => lastAdded_snoc_of_ne (fun he => hy (by cases he; rfl)) (fun he => by cases he)
  have hne : ∀ {y}, y ∈ l → y ≠ x := fun hy he => hx (he ▸ hy)
  refine ⟨h.nodup.cons hx, fun y => ?_, List.pairwise_cons.mpr ⟨fun y hy i j hi hj => ?_, ?_⟩⟩
  · rw [List.mem_cons]
    by_cases hy : y = x
    · subst hy
      simp only [true_or, lastAdded_added, exists_eq]
    · simp only [hy, false_or, hsame hy]
      exact h.mem y
  · rw [lastAdded_added.mp hi]
    exact ((hsame (hne hy)).mp hj).lt_length
  · refine h.order.imp_of_mem fun hy hz hyz i j hi hj => ?_
    exact hyz i j ((hsame (hne hy)).mp hi) ((hsame (hne hz)).mp hj)

variable [DecidableEq α]

/-- What stays after a removal keeps its order. -/
theorem Reflects.remove (h : Reflects history k l) :
    Reflects (history ++ [⟨.remove k x, true⟩]) k (l.filter (· ≠ x)) := by
  have hsame : ∀ {y i}, y ≠ x → (LastAdded (history ++ [⟨.remove k x, true⟩]) k y i ↔ LastAdded history k y i) :=
    fun hy => lastAdded_snoc_of_ne (fun he => by cases he) (fun he => hy (by cases he; rfl))
  have hne : ∀ {y}, y ∈ l.filter (· ≠ x) → y ≠ x := fun hy => by simpa using (List.mem_filter.mp hy).2
  refine ⟨h.nodup.filter _, fun y => ?_, ?_⟩
  · rw [List.mem_filter, decide_eq_true_eq]
    by_cases hy : y = x
    · subst hy
      simp only [not_true_eq_false, and_false, not_lastAdded_removed, exists_false, ne_eq]
    · simp only [ne_eq, hy, not_false_eq_true, and_true, hsame hy]
      exact h.mem y
  · refine (h.order.filter _).imp_of_mem fun hy hz hyz i j hi hj => ?_
    exact hyz i j ((hsame (hne hy)).mp hi) ((hsame (hne hz)).mp hj)

/-- An element of a list after an operation was there before, or has been added. -/
theorem mem_apply [DecidableEq K] {lists : K → List α} (h : x ∈ e.apply lists k) :
    x ∈ lists k ∨ e = ⟨.add k x, true⟩ := by
  obtain ⟨op, done⟩ := e
  cases done with
  | false => exact Or.inl (by cases op <;> exact h)
  | true =>
    cases op with
    | add c y =>
      by_cases hk : k = c
      · subst hk
        rw [Entry.apply, Function.update_self, List.mem_cons] at h
        rcases h with rfl | h
        · exact Or.inr rfl
        · exact Or.inl h
      · rw [Entry.apply, Function.update_of_ne hk] at h
        exact Or.inl h
    | remove c y =>
      by_cases hk : k = c
      · subst hk
        rw [Entry.apply, Function.update_self] at h
        exact Or.inl (List.mem_filter.mp h).1
      · rw [Entry.apply, Function.update_of_ne hk] at h
        exact Or.inl h

theorem replay_snoc [DecidableEq K] (history : List (Entry K α)) (e : Entry K α) :
    replay (history ++ [e]) = e.apply (replay history) := by
  rw [replay, List.foldl_append]
  rfl

/-- **One more operation keeps the lists in step with the history.** -/
theorem reflects_snoc [DecidableEq K] {lists : K → List α} (h : ∀ k, Reflects history k (lists k)) (e : Entry K α)
    (hnew : ∀ k x, e = ⟨.add k x, true⟩ → x ∉ lists k) (k : K) : Reflects (history ++ [e]) k (e.apply lists k) := by
  obtain ⟨op, done⟩ := e
  cases done with
  | true =>
    cases op with
    | add c x =>
      by_cases hk : k = c
      · subst hk
        rw [Entry.apply, Function.update_self]
        exact (h k).add (hnew k x rfl)
      · rw [Entry.apply, Function.update_of_ne hk]
        exact (h k).keep (fun y he => hk (by cases he; rfl)) (fun y he => by cases he)
    | remove c x =>
      by_cases hk : k = c
      · subst hk
        rw [Entry.apply, Function.update_self]
        exact (h k).remove
      · rw [Entry.apply, Function.update_of_ne hk]
        exact (h k).keep (fun y he => by cases he) (fun y he => hk (by cases he; rfl))
  | false =>
    have happly : Entry.apply lists ⟨op, false⟩ = lists := by cases op <;> rfl
    rw [happly]
    exact (h k).keep (fun y he => by cases he) (fun y he => by cases he)

end History

end Recency
