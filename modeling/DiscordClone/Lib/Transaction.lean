import Mathlib.Logic.Function.Basic

/-!
# Transactions over a keyed table

A table `K → Option V` holds at most one row for each primary key. A transaction is the tree of the statements it may
issue: it reads the rows it sees, and writes one row at a time by key.

- `Write.apply` is what one writing statement does to its row; an update or a delete of a missing row and a create over
  a present one fail;
- `Tx` with its monad is the language of transactions;
- `Tx.run` runs a transaction alone; a failed statement or a thrown error rolls it back;
- `Tx.Ends R Q` says what a transaction has written at its queries and when it is ready to commit, whatever the rows it
  reads and writes over hold at each statement. It is the part of its meaning that no other transaction can disturb.
- `Tx.Spares k v` says that a transaction leaves the row `k` alone while it holds `v`.
-/

namespace Transaction

/-- The rows by primary key. -/
abbrev Table (K V : Type) := K → Option V

/-- A statement that writes one row. -/
inductive Write (V : Type) where
  | update (f : V → V)
  | upsert (create : V) (update : V → V)
  | create (v : V)
  | delete

/-- Why the database refuses a statement. -/
inductive Violation where
  | recordNotFound
  | uniqueConstraint
  deriving DecidableEq, Repr

/-- What a statement makes of its row. -/
def Write.apply {V : Type} : Write V → Option V → Except Violation (Option V)
  | .update f, some v => .ok (some (f v))
  | .update _, none => .error .recordNotFound
  | .upsert _ f, some v => .ok (some (f v))
  | .upsert v _, none => .ok (some v)
  | .create _, some _ => .error .uniqueConstraint
  | .create v, none => .ok (some v)
  | .delete, some _ => .ok none
  | .delete, none => .error .recordNotFound

/-- A transaction: `query` continues with the rows that its statement sees. -/
inductive Tx (K V ε α : Type) where
  | ret (a : α)
  | throw (e : ε)
  | query (next : Table K V → Tx K V ε α)
  | exec (key : K) (write : Write V) (next : Tx K V ε α)

/-- Why a transaction is rolled back. -/
inductive Abort (ε : Type) where
  | thrown (e : ε)
  | violation (v : Violation)
  deriving DecidableEq, Repr

namespace Tx

variable {K V ε α β : Type}

/-- Sequencing. -/
def bind : Tx K V ε α → (α → Tx K V ε β) → Tx K V ε β
  | .ret a, f => f a
  | .throw e, _ => .throw e
  | .query next, f => .query fun rows => (next rows).bind f
  | .exec k w next, f => .exec k w (next.bind f)

instance : Monad (Tx K V ε) where
  pure := .ret
  bind := bind

/-- Read something off the rows. -/
def select (f : Table K V → α) : Tx K V ε α := .query fun rows => .ret (f rows)

def update (k : K) (f : V → V) : Tx K V ε Unit := .exec k (.update f) (.ret ())

def upsert (k : K) (v : V) (f : V → V) : Tx K V ε Unit := .exec k (.upsert v f) (.ret ())

def create (k : K) (v : V) : Tx K V ε Unit := .exec k (.create v) (.ret ())

def delete (k : K) : Tx K V ε Unit := .exec k .delete (.ret ())

@[simp] theorem pure_eq (a : α) : (pure a : Tx K V ε α) = .ret a := rfl
@[simp] theorem ret_bind (a : α) (f : α → Tx K V ε β) : (Tx.ret a >>= f) = f a := rfl
@[simp] theorem throw_bind (e : ε) (f : α → Tx K V ε β) : ((.throw e : Tx K V ε α) >>= f) = .throw e := rfl

@[simp] theorem query_bind (next : Table K V → Tx K V ε α) (f : α → Tx K V ε β) :
    (Tx.query next >>= f) = .query fun rows => next rows >>= f := rfl

@[simp] theorem exec_bind (k : K) (w : Write V) (next : Tx K V ε α) (f : α → Tx K V ε β) :
    (Tx.exec k w next >>= f) = .exec k w (next >>= f) := rfl

@[simp] theorem select_bind (g : Table K V → α) (f : α → Tx K V ε β) :
    (select g >>= f) = .query fun rows => f (g rows) := rfl

@[simp] theorem update_bind (k : K) (g : V → V) (f : Unit → Tx K V ε β) :
    (update k g >>= f) = .exec k (.update g) (f ()) := rfl

@[simp] theorem upsert_bind (k : K) (v : V) (g : V → V) (f : Unit → Tx K V ε β) :
    (upsert k v g >>= f) = .exec k (.upsert v g) (f ()) := rfl

@[simp] theorem create_bind (k : K) (v : V) (f : Unit → Tx K V ε β) :
    (create k v >>= f) = .exec k (.create v) (f ()) := rfl

@[simp] theorem delete_bind (k : K) (f : Unit → Tx K V ε β) : (delete k >>= f) = .exec k .delete (f ()) := rfl

/-! ## A transaction alone -/

section Serial

variable [DecidableEq K]

/-- The result and the rows after a transaction that runs alone; an error leaves no rows behind. -/
def run : Tx K V ε α → Table K V → Except (Abort ε) (α × Table K V)
  | .ret a, t => .ok (a, t)
  | .throw e, _ => .error (.thrown e)
  | .query next, t => (next t).run t
  | .exec k w next, t =>
    match w.apply (t k) with
    | .ok v => next.run (Function.update t k v)
    | .error v => .error (.violation v)

@[simp] theorem run_ret (a : α) (t : Table K V) : (.ret a : Tx K V ε α).run t = .ok (a, t) := rfl
@[simp] theorem run_throw (e : ε) (t : Table K V) : (.throw e : Tx K V ε α).run t = .error (.thrown e) := rfl
@[simp] theorem run_query (next : Table K V → Tx K V ε α) (t : Table K V) :
    (Tx.query next).run t = (next t).run t := rfl

theorem run_update {k : K} {t : Table K V} {v : V} (h : t k = some v) (f : V → V) (next : Tx K V ε α) :
    (Tx.exec k (.update f) next).run t = next.run (Function.update t k (some (f v))) := by
  simp [run, Write.apply, h]

/-- An upsert that creates and updates to the same row is never refused. -/
theorem run_upsert (k : K) (t : Table K V) (v : V) (next : Tx K V ε α) :
    (Tx.exec k (.upsert v fun _ => v) next).run t = next.run (Function.update t k (some v)) := by
  cases h : t k <;> simp [run, Write.apply, h]

theorem run_create {k : K} {t : Table K V} (h : t k = none) (v : V) (next : Tx K V ε α) :
    (Tx.exec k (.create v) next).run t = next.run (Function.update t k (some v)) := by
  simp [run, Write.apply, h]

theorem run_delete {k : K} {t : Table K V} {v : V} (h : t k = some v) (next : Tx K V ε α) :
    (Tx.exec k .delete next).run t = next.run (Function.update t k none) := by
  simp [run, Write.apply, h]

end Serial

/-! ## What a transaction has written when it is ready to commit -/

section Interference

variable [DecidableEq K]

/-- The rows a transaction has written and not committed: the new row, or `none` for a deleted one. -/
abbrev Writes (K V : Type) := K → Option (Option V)

/-- For any rows met on the way, `R` holds of the writes at every query, and `Q` of the result and the writes at the
end. -/
def Ends (R : Writes K V → Prop) (Q : α → Writes K V → Prop) : Tx K V ε α → Writes K V → Prop
  | .ret a, w => Q a w
  | .throw _, _ => True
  | .query next, w => R w ∧ ∀ rows, (next rows).Ends R Q w
  | .exec k wr next, w => ∀ old new, wr.apply old = .ok new → next.Ends R Q (Function.update w k (some new))

variable {R : Writes K V → Prop} {Q : α → Writes K V → Prop}

@[simp] theorem ends_ret (a : α) (w : Writes K V) : (.ret a : Tx K V ε α).Ends R Q w ↔ Q a w := Iff.rfl

@[simp] theorem ends_throw (e : ε) (w : Writes K V) : (.throw e : Tx K V ε α).Ends R Q w ↔ True := Iff.rfl

@[simp] theorem ends_query (next : Table K V → Tx K V ε α) (w : Writes K V) :
    (Tx.query next).Ends R Q w ↔ R w ∧ ∀ rows, (next rows).Ends R Q w := Iff.rfl

/-! ### The row after each kind of statement -/

variable {k : K} {next : Tx K V ε α} {w : Writes K V}

/-- An update that succeeds leaves the updated row. -/
@[simp] theorem ends_update {v : V} : (Tx.exec k (.update fun _ => v) next).Ends R Q w ↔
    next.Ends R Q (Function.update w k (some (some v))) := by
  constructor
  · intro h
    exact h (some v) _ rfl
  · intro h old new ho
    cases old with
    | none => cases ho
    | some u => cases ho; exact h

/-- An upsert leaves the row, created or updated. -/
@[simp] theorem ends_upsert {v : V} : (Tx.exec k (.upsert v fun _ => v) next).Ends R Q w ↔
    next.Ends R Q (Function.update w k (some (some v))) := by
  constructor
  · intro h
    exact h none _ rfl
  · intro h old new ho
    cases old <;> cases ho <;> exact h

/-- A create that succeeds leaves the created row. -/
@[simp] theorem ends_create {v : V} : (Tx.exec k (.create v) next).Ends R Q w ↔
    next.Ends R Q (Function.update w k (some (some v))) := by
  constructor
  · intro h
    exact h none _ rfl
  · intro h old new ho
    cases old with
    | none => cases ho; exact h
    | some u => cases ho

/-- A delete that succeeds leaves no row. -/
@[simp] theorem ends_delete [Nonempty V] : (Tx.exec k .delete next).Ends R Q w ↔
    next.Ends R Q (Function.update w k (some none)) := by
  constructor
  · intro h
    obtain ⟨v⟩ := ‹Nonempty V›
    exact h (some v) _ rfl
  · intro h old new ho
    cases old with
    | none => cases ho
    | some u => cases ho; exact h

end Interference

/-! ## Rows a transaction leaves alone -/

/-- As long as its statements find `v` in the row `k`, the transaction writes nothing there: it writes other rows, or
the database refuses its statement. -/
def Spares (k : K) (v : V) : Tx K V ε α → Prop
  | .ret _ => True
  | .throw _ => True
  | .query next => ∀ rows, rows k = some v → (next rows).Spares k v
  | .exec k' wr next => k' = k ∧ (∀ new, wr.apply (some v) ≠ .ok new) ∨ k' ≠ k ∧ next.Spares k v

section Spares

variable {k k' : K} {v : V}

@[simp] theorem spares_throw (e : ε) : (.throw e : Tx K V ε α).Spares k v ↔ True := Iff.rfl

theorem spares_exec_ne {wr : Write V} {next : Tx K V ε α} (hk : k' ≠ k) (h : next.Spares k v) :
    (Tx.exec k' wr next).Spares k v := Or.inr ⟨hk, h⟩

theorem spares_update_ne {f : V → V} (hk : k' ≠ k) : (update k' f : Tx K V ε Unit).Spares k v :=
  spares_exec_ne hk trivial

theorem spares_upsert_ne {u : V} {f : V → V} (hk : k' ≠ k) : (upsert k' u f : Tx K V ε Unit).Spares k v :=
  spares_exec_ne hk trivial

theorem spares_delete_ne (hk : k' ≠ k) : (delete k' : Tx K V ε Unit).Spares k v := spares_exec_ne hk trivial

/-- A create spares every row that is there. -/
theorem spares_create [DecidableEq K] {u : V} : (create k' u : Tx K V ε Unit).Spares k v := by
  by_cases hk : k' = k
  · exact Or.inl ⟨hk, fun new h => by cases h⟩
  · exact spares_exec_ne hk trivial

end Spares

end Tx

end Transaction
