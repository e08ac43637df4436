import DiscordClone.Lib.Machine
import DiscordClone.Lib.Transaction

/-!
# Transactions interleaved at READ COMMITTED

Transactions of a family `body : C → Tx K V ε α`, one for each call, run side by side on one table, statement by
statement.

- A statement sees the committed rows and the transaction's own writes (`view`).
- A written row is locked until its transaction ends: a statement that writes a row locked by another transaction is not
  enabled. A statement that the database refuses is not enabled either.
- A transaction that has come to its end commits all its writes at once; any transaction may be rolled back at any time,
  which is all that is left to one that threw, whose statement is refused or that waits in a deadlock.

`Rules` lists what has to be shown of single transactions for an invariant `I` of the committed table, and `Rules.run`
is the rule: with the promise `J` that every active transaction makes about the committed table, `I` holds in every
state of every run. The locks do their part once for all (`exclusive_step`): two active transactions never have writes
on one row, so that the commit of one leaves alone the rows the other has written. `spared_step` is about a single row:
it keeps its value as long as every transaction that could write it sees it before.
-/

namespace Transaction

variable {K V ε α C : Type}

/-- The rows a transaction sees: its own writes over the committed rows. -/
def view (t : Table K V) (w : Tx.Writes K V) : Table K V := fun k => (w k).getD (t k)

/-- An active transaction: the call it serves, the statements it has left and its uncommitted writes. -/
structure Worker (K V ε α C : Type) where
  call : C
  prog : Tx K V ε α
  writes : Tx.Writes K V

/-- The committed rows and the active transactions. -/
structure State (K V ε α C : Type) where
  table : Table K V
  active : List (Worker K V ε α C)

/-- A step, by the position of its transaction among the active ones. -/
inductive Event (C : Type) where
  | begin (call : C)
  | stmt (i : Nat)
  | commit (i : Nat)
  | rollback (i : Nat)
  deriving DecidableEq, Repr

def Worker.start (body : C → Tx K V ε α) (c : C) : Worker K V ε α C := ⟨c, body c, fun _ => none⟩

/-- Two transactions have no writes on one row. -/
def Worker.Apart (w w' : Worker K V ε α C) : Prop := ∀ k, w.writes k = none ∨ w'.writes k = none

/-- No active transaction. -/
def State.idle (t : Table K V) : State K V ε α C := ⟨t, []⟩

/-- Some transaction of the list has written the row. -/
def locked (ws : List (Worker K V ε α C)) (k : K) : Bool := ws.any fun w => (w.writes k).isSome

/-- The transaction has come to its end. -/
def Worker.finished (w : Worker K V ε α C) : Bool :=
  match w.prog with
  | .ret _ => true
  | _ => false

theorem Worker.ret_of_finished {w : Worker K V ε α C} (h : w.finished = true) : ∃ a, w.prog = .ret a := by
  unfold Worker.finished at h
  split at h
  · rename_i a hp
    exact ⟨a, hp⟩
  · cases h

theorem Worker.Apart.symm {w w' : Worker K V ε α C} (h : w.Apart w') : w'.Apart w := fun k => (h k).symm

theorem not_locked {ws : List (Worker K V ε α C)} {k : K} (h : locked ws k = false) {w : Worker K V ε α C}
    (hw : w ∈ ws) : w.writes k = none := by
  have := List.any_eq_false.mp h w hw
  simpa using this

/-- No two active transactions have writes on one row. -/
def State.Exclusive (s : State K V ε α C) : Prop := s.active.Pairwise Worker.Apart

/-- The transaction at a position is apart from every other one. -/
theorem apart_of_exclusive {ws : List (Worker K V ε α C)} (h : ws.Pairwise Worker.Apart) :
    ∀ {i : Nat} {w w' : Worker K V ε α C}, ws[i]? = some w → w' ∈ ws.eraseIdx i → w.Apart w' := by
  induction ws with
  | nil => intro i w w' hw; simp at hw
  | cons x ws ih =>
    intro i w w' hw hw'
    obtain ⟨hx, hws⟩ := List.pairwise_cons.mp h
    cases i with
    | zero =>
      simp only [List.getElem?_cons_zero, Option.some.injEq] at hw
      subst hw
      exact hx w' (by simpa using hw')
    | succ i =>
      simp only [List.getElem?_cons_succ] at hw
      simp only [List.eraseIdx_cons_succ, List.mem_cons] at hw'
      rcases hw' with rfl | hw'
      · exact (hx w (List.mem_of_getElem? hw)).symm
      · exact ih hws hw hw'

/-- Replacing a transaction by one that is apart from the others. -/
theorem pairwise_set {ws : List (Worker K V ε α C)} (h : ws.Pairwise Worker.Apart) :
    ∀ {i : Nat} {w : Worker K V ε α C}, (∀ w' ∈ ws.eraseIdx i, w.Apart w') → (ws.set i w).Pairwise Worker.Apart := by
  induction ws with
  | nil => intro i w _; simp
  | cons x ws ih =>
    intro i w hw
    obtain ⟨hx, hws⟩ := List.pairwise_cons.mp h
    cases i with
    | zero => exact List.pairwise_cons.mpr ⟨fun w' hw' => hw w' (by simpa using hw'), hws⟩
    | succ i =>
      refine List.pairwise_cons.mpr ⟨fun w' hw' => ?_, ih hws fun w' hw' => hw w' (by simp [hw'])⟩
      rcases List.mem_or_eq_of_mem_set hw' with hw' | rfl
      · exact hx w' hw'
      · exact (hw x (by simp)).symm

/-- Removing an element removes it from the count. -/
theorem countP_eraseIdx {A : Type} {p : A → Bool} {l : List A} {i : Nat} {x : A} (h : l[i]? = some x) :
    (l.eraseIdx i).countP p + [x].countP p = l.countP p := by
  obtain ⟨hi, rfl⟩ := List.getElem?_eq_some_iff.mp h
  have hsplit : l.countP p = (l.take i).countP p + (l.drop i).countP p := by
    rw [← List.countP_append, List.take_append_drop]
  rw [hsplit, List.drop_eq_getElem_cons hi, List.eraseIdx_eq_take_drop_succ, List.countP_append]
  simp only [List.countP_cons, List.countP_nil]
  omega

/-- A transaction that moves serves the same call. -/
theorem map_call_set {ws : List (Worker K V ε α C)} {i : Nat} {w w' : Worker K V ε α C} (hw : ws[i]? = some w)
    (hc : w'.call = w.call) : (ws.set i w').map Worker.call = ws.map Worker.call := by
  obtain ⟨hi, rfl⟩ := List.getElem?_eq_some_iff.mp hw
  rw [List.map_set, hc, ← List.getElem_map (f := Worker.call) (h := by simpa using hi), List.set_getElem_self]

/-- `P` holds of the committed table and the transaction whose statement is executed. -/
def OnStatement (P : Table K V → Worker K V ε α C → Prop) (s : State K V ε α C) (e : Event C) : Prop :=
  ∀ i w, e = .stmt i → s.active[i]? = some w → P s.table w

instance {P : Table K V → Worker K V ε α C → Prop} [∀ t w, Decidable (P t w)] (s : State K V ε α C) (e : Event C) :
    Decidable (OnStatement P s e) :=
  match e with
  | .stmt i =>
    match h : s.active[i]? with
    | some w =>
      decidable_of_iff (P s.table w)
        ⟨fun hP j w' hj hw => by cases hj; rw [h] at hw; cases hw; exact hP, fun hP => hP i w rfl h⟩
    | none => .isTrue fun j w hj hw => by cases hj; rw [h] at hw; cases hw
  | .begin _ | .commit _ | .rollback _ => .isTrue fun _ _ hj => nomatch hj

/-- The invariant of the database: the table, the promises and the locks. -/
def Sound (I : Table K V → Prop) (J : Table K V → Worker K V ε α C → Prop) (s : State K V ε α C) : Prop :=
  I s.table ∧ (∀ w ∈ s.active, J s.table w) ∧ s.Exclusive

theorem sound_idle {I : Table K V → Prop} {J : Table K V → Worker K V ε α C → Prop} {t : Table K V} (h : I t) :
    Sound I J (State.idle t) :=
  ⟨h, fun _ hw => by simp [State.idle] at hw, List.Pairwise.nil⟩

section Step

variable [DecidableEq K]

/-- One statement of the transaction `w`, where `others` are the other active ones. -/
def Worker.advance (t : Table K V) (others : List (Worker K V ε α C)) (w : Worker K V ε α C) :
    Option (Worker K V ε α C) :=
  match w.prog with
  | .query next => some { w with prog := next (view t w.writes) }
  | .exec k wr next =>
    if locked others k then none else
    match wr.apply (view t w.writes k) with
    | .ok v => some { w with prog := next, writes := Function.update w.writes k (some v) }
    | .error _ => none
  | _ => none

/-- One step of the database. -/
def step (body : C → Tx K V ε α) (s : State K V ε α C) : Event C → Option (State K V ε α C)
  | .begin c => some { s with active := s.active ++ [Worker.start body c] }
  | .stmt i =>
    s.active[i]?.bind fun w =>
      (w.advance s.table (s.active.eraseIdx i)).map fun w' => { s with active := s.active.set i w' }
  | .commit i =>
    s.active[i]?.bind fun w => if w.finished then some ⟨view s.table w.writes, s.active.eraseIdx i⟩ else none
  | .rollback i => s.active[i]?.map fun _ => { s with active := s.active.eraseIdx i }

/-- What a step can do. -/
inductive Step (body : C → Tx K V ε α) (s : State K V ε α C) : Event C → State K V ε α C → Prop
  | begin (c : C) : Step body s (.begin c) { s with active := s.active ++ [Worker.start body c] }
  | query (i : Nat) (w : Worker K V ε α C) (next : Table K V → Tx K V ε α) : s.active[i]? = some w →
      w.prog = .query next →
      Step body s (.stmt i) { s with active := s.active.set i { w with prog := next (view s.table w.writes) } }
  | write (i : Nat) (w : Worker K V ε α C) (k : K) (wr : Write V) (next : Tx K V ε α) (v : Option V) :
      s.active[i]? = some w → w.prog = .exec k wr next → locked (s.active.eraseIdx i) k = false →
      wr.apply (view s.table w.writes k) = .ok v →
      Step body s (.stmt i)
        { s with active := s.active.set i { w with prog := next, writes := Function.update w.writes k (some v) } }
  | commit (i : Nat) (w : Worker K V ε α C) (a : α) : s.active[i]? = some w → w.prog = .ret a →
      Step body s (.commit i) ⟨view s.table w.writes, s.active.eraseIdx i⟩
  | rollback (i : Nat) : Step body s (.rollback i) { s with active := s.active.eraseIdx i }

theorem step_cases {body : C → Tx K V ε α} {s s' : State K V ε α C} {e : Event C} (h : step body s e = some s') :
    Step body s e s' := by
  cases e with
  | begin c => cases h; exact .begin c
  | stmt i =>
    obtain ⟨w, hw, h⟩ := Option.bind_eq_some_iff.mp h
    obtain ⟨w', ha, rfl⟩ := Option.map_eq_some_iff.mp h
    unfold Worker.advance at ha
    split at ha
    · rename_i next hp
      cases ha
      exact .query i w next hw hp
    · rename_i k wr next hp
      split at ha
      · cases ha
      · rename_i hl
        split at ha
        · rename_i v hv
          cases ha
          exact .write i w k wr next v hw hp (by simpa using hl) hv
        · cases ha
    · cases ha
  | commit i =>
    obtain ⟨w, hw, h⟩ := Option.bind_eq_some_iff.mp h
    split at h
    · rename_i hf
      cases h
      obtain ⟨a, hp⟩ := Worker.ret_of_finished hf
      exact .commit i w a hw hp
    · cases h
  | rollback i =>
    obtain ⟨w, hw, h⟩ := Option.map_eq_some_iff.mp h
    cases h
    exact .rollback i

/-! ## Locks -/

/-- A step keeps the locks exclusive. -/
theorem exclusive_step {body : C → Tx K V ε α} {s s' : State K V ε α C} {e : Event C} (h : s.Exclusive)
    (hs : Step body s e s') : s'.Exclusive := by
  cases hs with
  | begin c =>
    refine List.pairwise_append.mpr ⟨h, List.pairwise_singleton _ _, fun w _ w' hw' => ?_⟩
    rw [List.mem_singleton] at hw'
    subst hw'
    exact fun k => Or.inr rfl
  | query i w next hw hp => exact pairwise_set h fun w' hw' k => apart_of_exclusive h hw hw' k
  | write i w k wr next v hw hp hl hv =>
    refine pairwise_set h fun w' hw' k' => ?_
    by_cases hk : k' = k
    · subst hk
      exact Or.inr (not_locked hl hw')
    · rcases apart_of_exclusive h hw hw' k' with h' | h'
      · exact Or.inl (by simpa [Function.update_of_ne hk] using h')
      · exact Or.inr h'
  | commit i w a hw hp => exact h.sublist (List.eraseIdx_sublist _ _)
  | rollback i => exact h.sublist (List.eraseIdx_sublist _ _)

/-! ## The invariant rule -/

/-- What single transactions have to satisfy: `I` is about the committed table, `J` is what an active transaction
relies on, `P` is the condition under which it executes a statement. -/
structure Rules (body : C → Tx K V ε α) (P : Table K V → Worker K V ε α C → Prop) (I : Table K V → Prop)
    (J : Table K V → Worker K V ε α C → Prop) : Prop where
  begin : ∀ t c, I t → J t (Worker.start body c)
  query : ∀ t w next, I t → J t w → w.prog = .query next → J t { w with prog := next (view t w.writes) }
  write : ∀ t w k wr next v, I t → J t w → P t w → w.prog = .exec k wr next →
    wr.apply (view t w.writes k) = .ok v →
    J t { w with prog := next, writes := Function.update w.writes k (some v) }
  commit : ∀ t w a, I t → J t w → w.prog = .ret a → I (view t w.writes)
  stable : ∀ t w w' a, I t → J t w → J t w' → w.prog = .ret a → w.Apart w' → J (view t w.writes) w'

variable {body : C → Tx K V ε α} {P : Table K V → Worker K V ε α C → Prop} {I : Table K V → Prop}
  {J : Table K V → Worker K V ε α C → Prop}

/-- A step whose statement meets the condition keeps the invariant. -/
theorem Rules.step (R : Rules body P I J) {s s' : State K V ε α C} {e : Event C} (h : Sound I J s)
    (hP : OnStatement P s e) (hs : Step body s e s') : Sound I J s' := by
  obtain ⟨hI, hJ, hX⟩ := h
  refine ⟨?_, ?_, exclusive_step hX hs⟩
  · cases hs with
    | commit i w a hw hp => exact R.commit _ w a hI (hJ w (List.mem_of_getElem? hw)) hp
    | _ => exact hI
  · cases hs with
    | begin c =>
      intro w hw
      rcases List.mem_append.mp hw with hw | hw
      · exact hJ w hw
      · rw [List.mem_singleton] at hw
        subst hw
        exact R.begin _ c hI
    | query i w next hw hp =>
      intro w' hw'
      rcases List.mem_or_eq_of_mem_set hw' with hw' | rfl
      · exact hJ w' hw'
      · exact R.query _ w next hI (hJ w (List.mem_of_getElem? hw)) hp
    | write i w k wr next v hw hp hl hv =>
      intro w' hw'
      rcases List.mem_or_eq_of_mem_set hw' with hw' | rfl
      · exact hJ w' hw'
      · exact R.write _ w k wr next v hI (hJ w (List.mem_of_getElem? hw)) (hP i w rfl hw) hp hv
    | commit i w a hw hp =>
      intro w' hw'
      exact R.stable _ w w' a hI (hJ w (List.mem_of_getElem? hw)) (hJ w' (List.mem_of_mem_eraseIdx hw')) hp
        (apart_of_exclusive hX hw hw')
    | rollback i => exact fun w' hw' => hJ w' (List.mem_of_mem_eraseIdx hw')

/-- **The rule**: in a run whose statements all meet the condition, the invariant holds in every state. -/
theorem Rules.run (R : Rules body P I J) {s s' : State K V ε α C} {es : List (Event C)} (h : Sound I J s)
    (hP : Machine.Along (Transaction.step body) (OnStatement P) s es)
    (hr : Machine.run (Transaction.step body) s es = some s') : Sound I J s' :=
  Machine.run_inv (fun _ _ _ hi hc hs => R.step hi hc (step_cases hs)) h hP hr

/-! ## The order of the commits -/

/-- The call whose transaction commits in a step. -/
def State.commits (s : State K V ε α C) : Event C → List C
  | .commit i => (s.active[i]?.map Worker.call).toList
  | _ => []

/-- The call whose transaction begins in a step. -/
def Event.begins : Event C → List C
  | .begin c => [c]
  | _ => []

/-- The calls whose transactions have committed, in the order of their commits. -/
def committed (body : C → Tx K V ε α) : State K V ε α C → List (Event C) → List C
  | _, [] => []
  | s, e :: es =>
    s.commits e ++
      match Transaction.step body s e with
      | some s' => committed body s' es
      | none => []

/-- The calls that are made in a run. -/
def begun (es : List (Event C)) : List C := es.flatMap Event.begins

theorem committed_cons {s t : State K V ε α C} {e : Event C} (h : Transaction.step body s e = some t)
    (es : List (Event C)) : committed body s (e :: es) = s.commits e ++ committed body t es := by
  rw [committed, h]

/-- **The serial rule**: if every commit changes what is observed of the table as `f` does for its call, a run changes
it as the committed calls do one after the other. -/
theorem Rules.serial (R : Rules body P I J) {β : Type} (observe : Table K V → β) {f : β → C → β}
    (hcommit : ∀ t w a, I t → J t w → w.prog = .ret a → observe (view t w.writes) = f (observe t) w.call) :
    ∀ {s s' : State K V ε α C} {es : List (Event C)}, Sound I J s →
      Machine.Along (Transaction.step body) (OnStatement P) s es →
      Machine.run (Transaction.step body) s es = some s' →
      observe s'.table = (committed body s es).foldl f (observe s.table)
  | _, _, [], _, _, hr => by
    cases hr
    rfl
  | s, s', e :: es, h, hP, hr => by
    obtain ⟨t, ht, hr⟩ := Machine.run_cons.mp hr
    have hstep := step_cases ht
    have ih := Rules.serial R observe hcommit (R.step h hP.1 hstep) (hP.2 t ht) hr
    have hobs : observe t.table = (s.commits e).foldl f (observe s.table) := by
      cases hstep with
      | commit i w a hw hp =>
        simp only [State.commits, hw, Option.map_some, Option.toList_some, List.foldl_cons, List.foldl_nil]
        exact hcommit _ w a h.1 (h.2.1 w (List.mem_of_getElem? hw)) hp
      | _ => rfl
    rw [ih, committed_cons ht, List.foldl_append, hobs]

/-- Every call commits at most as often as it is made. -/
theorem countP_committed (p : C → Bool) : ∀ {s s' : State K V ε α C} {es : List (Event C)},
    Machine.run (Transaction.step body) s es = some s' →
    (committed body s es).countP p ≤ (s.active.map Worker.call).countP p + (begun es).countP p
  | _, _, [], _ => Nat.zero_le _
  | s, s', e :: es, hr => by
    obtain ⟨t, ht, hr⟩ := Machine.run_cons.mp hr
    have ih := countP_committed p hr
    have hstep : (s.commits e).countP p + (t.active.map Worker.call).countP p ≤
        (s.active.map Worker.call).countP p + (Event.begins e).countP p := by
      cases step_cases ht with
      | begin c => simp [State.commits, Event.begins, Worker.start]
      | query i w next hw hp =>
        have hsame : (s.active.set i { w with prog := next (view s.table w.writes) }).map Worker.call =
            s.active.map Worker.call := map_call_set hw rfl
        simp [State.commits, Event.begins, hsame]
      | write i w k wr next v hw hp hl hv =>
        have hsame : (s.active.set i
            { w with prog := next, writes := Function.update w.writes k (some v) }).map Worker.call =
            s.active.map Worker.call := map_call_set hw rfl
        simp [State.commits, Event.begins, hsame]
      | commit i w a hw hp =>
        have herase := countP_eraseIdx (p := p ∘ Worker.call) hw
        simp only [State.commits, hw, Option.map_some, Option.toList_some, Event.begins, List.countP_nil,
          List.countP_map]
        have hone : [w.call].countP p = [w].countP (p ∘ Worker.call) := rfl
        omega
      | rollback i =>
        have hsub := ((List.eraseIdx_sublist s.active i).map Worker.call).countP_le (p := p)
        simp only [State.commits, Event.begins, List.countP_nil]
        omega
    rw [committed_cons ht, List.countP_append, begun, List.flatMap_cons, List.countP_append]
    rw [begun] at ih
    omega

/-! ## A row that transactions leave alone -/

/-- `P` holds of the transaction that commits. -/
def OnCommit (P : Worker K V ε α C → Prop) (s : State K V ε α C) (e : Event C) : Prop :=
  ∀ i w, e = .commit i → s.active[i]? = some w → P w

instance {P : Worker K V ε α C → Prop} [DecidablePred P] (s : State K V ε α C) (e : Event C) :
    Decidable (OnCommit P s e) :=
  match e with
  | .commit i =>
    match h : s.active[i]? with
    | some w =>
      decidable_of_iff (P w) ⟨fun hP j w' hj hw => by cases hj; rw [h] at hw; cases hw; exact hP,
        fun hP => hP i w rfl h⟩
    | none => .isTrue fun j w hj hw => by cases hj; rw [h] at hw; cases hw
  | .begin _ | .stmt _ | .rollback _ => .isTrue fun _ _ hj => nomatch hj

/-- The row `k` holds `v`, and every transaction in flight that is not exempt has not written it and spares it. -/
def Spared (exempt : C → Prop) (k : K) (v : V) (s : State K V ε α C) : Prop :=
  s.table k = some v ∧ ∀ w ∈ s.active, exempt w.call ∨ w.writes k = none ∧ w.prog.Spares k v

/-- A step leaves the row alone when an exempt transaction that commits does. -/
theorem spared_step {exempt : C → Prop} {k : K} {v : V} (hbody : ∀ c, ¬exempt c → (body c).Spares k v)
    {s s' : State K V ε α C} {e : Event C} (h : Spared exempt k v s)
    (hc : OnCommit (fun w => exempt w.call → w.writes k = none ∨ w.writes k = some (some v)) s e)
    (hs : Step body s e s') : Spared exempt k v s' := by
  obtain ⟨hrow, hact⟩ := h
  cases hs with
  | begin c =>
    refine ⟨hrow, fun w hw => ?_⟩
    rcases List.mem_append.mp hw with hw | hw
    · exact hact w hw
    · rw [List.mem_singleton] at hw
      subst hw
      by_cases he : exempt c
      · exact Or.inl he
      · exact Or.inr ⟨rfl, hbody c he⟩
  | query i w next hw hp =>
    refine ⟨hrow, fun w' hw' => ?_⟩
    rcases List.mem_or_eq_of_mem_set hw' with hw' | rfl
    · exact hact w' hw'
    · rcases hact w (List.mem_of_getElem? hw) with he | ⟨hn, hsp⟩
      · exact Or.inl he
      · rw [hp] at hsp
        have hseen : view s.table w.writes k = some v := by simp [view, hn, hrow]
        exact Or.inr ⟨hn, hsp _ hseen⟩
  | write i w k' wr next v' hw hp hl hv =>
    refine ⟨hrow, fun w' hw' => ?_⟩
    rcases List.mem_or_eq_of_mem_set hw' with hw' | rfl
    · exact hact w' hw'
    · rcases hact w (List.mem_of_getElem? hw) with he | ⟨hn, hsp⟩
      · exact Or.inl he
      · rw [hp] at hsp
        rcases hsp with ⟨rfl, href⟩ | ⟨hk, hsp⟩
        · have hseen : view s.table w.writes k' = some v := by simp [view, hn, hrow]
          rw [hseen] at hv
          exact absurd hv (href _)
        · exact Or.inr ⟨by simpa [Function.update_of_ne hk.symm] using hn, hsp⟩
  | commit i w a hw hp =>
    refine ⟨?_, fun w' hw' => hact w' (List.mem_of_mem_eraseIdx hw')⟩
    have hkept : w.writes k = none ∨ w.writes k = some (some v) := by
      rcases hact w (List.mem_of_getElem? hw) with he | ⟨hn, -⟩
      · exact hc i w rfl hw he
      · exact Or.inl hn
    rcases hkept with hk | hk <;> simp [view, hk, hrow]
  | rollback i => exact ⟨hrow, fun w' hw' => hact w' (List.mem_of_mem_eraseIdx hw')⟩

end Step

end Transaction
