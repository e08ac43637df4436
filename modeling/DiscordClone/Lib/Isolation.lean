import DiscordClone.Lib.ReadCommitted

/-!
# Transactions that do not disturb one another

A transaction that works on a few rows (`Tx.Within`) is disturbed by a commit only if the commit writes one of them. As
long as no commit disturbs a transaction in flight that has begun to read (`Undisturbed`), each of them has come to
where it would have come alone on the committed table (`Tx.Reaches`, `asAlone_step`).

- `serial_of_undisturbed`: so the run changes the table as the committed transactions do alone, one after the other in
  the order of their commits.
- `Worker.AsAlone.run_eq`: and what a transaction in flight still does is what it would do alone.
-/

namespace Transaction

variable {K V ε α C : Type}

/-- The two tables are the same on these rows. -/
def Agree (rows : List K) (t t' : Table K V) : Prop := ∀ k ∈ rows, t k = t' k

namespace Tx

/-- The transaction reads and writes none but these rows. -/
def Within (rows : List K) : Tx K V ε α → Prop
  | .ret _ => True
  | .throw _ => True
  | .query next => (∀ t t', Agree rows t t' → next t = next t') ∧ ∀ t, (next t).Within rows
  | .exec k _ next => k ∈ rows ∧ next.Within rows

variable [DecidableEq K]

/-- Alone on the table `t`, the transaction `p` comes to a rest of it with these writes. -/
inductive Reaches (t : Table K V) (p : Tx K V ε α) : Tx K V ε α → Writes K V → Prop
  | start : Reaches t p p fun _ => none
  | query {next : Table K V → Tx K V ε α} {ws : Writes K V} (h : Reaches t p (.query next) ws) :
      Reaches t p (next (view t ws)) ws
  | exec {k : K} {wr : Write V} {next : Tx K V ε α} {ws : Writes K V} {v : Option V}
      (h : Reaches t p (.exec k wr next) ws) (hv : wr.apply (view t ws k) = .ok v) :
      Reaches t p next (Function.update ws k (some v))

end Tx

section Alone

variable {rows : List K} {t t' : Table K V} {ws : Tx.Writes K V}

/-- A transaction sees the same where the tables are the same. -/
theorem Agree.view (h : Agree rows t t') (ws : Tx.Writes K V) : Agree rows (view t ws) (Transaction.view t' ws) := by
  intro k hk
  rw [Transaction.view, Transaction.view, h k hk]

/-- A commit that writes none of the rows leaves them. -/
theorem agree_view (h : ∀ k ∈ rows, ws k = none) : Agree rows t (view t ws) := by
  intro k hk
  rw [view, h k hk, Option.getD_none]

variable [DecidableEq K] {p q : Tx K V ε α}

/-- What a transaction sees after a write of its own. -/
theorem view_update (t : Table K V) (ws : Tx.Writes K V) (k : K) (v : Option V) :
    view t (Function.update ws k (some v)) = Function.update (view t ws) k v := by
  funext k'
  by_cases hk : k' = k
  · subst hk
    simp [view]
  · simp [view, Function.update_of_ne hk]

namespace Tx

/-- **The rest does what the transaction does**, on the rows that it sees. -/
theorem Reaches.run_eq (h : p.Reaches t q ws) : p.run t = q.run (view t ws) := by
  induction h with
  | start => rfl
  | query _ ih => rw [ih, run_query]
  | exec _ hv ih => rw [ih, run, hv, view_update]

/-- The rest works on the rows of the transaction. -/
theorem Reaches.within (h : p.Reaches t q ws) (hp : p.Within rows) : q.Within rows := by
  induction h with
  | start => exact hp
  | query _ ih => exact ih.2 _
  | exec _ _ ih => exact ih.2

/-- **What a transaction comes to depends on its rows only.** -/
theorem Reaches.agree (h : p.Reaches t q ws) (hp : p.Within rows) (ht : Agree rows t t') : p.Reaches t' q ws := by
  induction h with
  | start => exact .start
  | query hq ih =>
    rw [(hq.within hp).1 _ _ (ht.view _)]
    exact ih.query
  | exec hq hv ih =>
    rw [ht.view _ _ (hq.within hp).1] at hv
    exact ih.exec hv

end Tx

end Alone

section Runs

variable [DecidableEq K] {body : C → Tx K V ε α} {rows : C → List K} {s s' : State K V ε α C} {e : Event C}
  {es : List (Event C)} {w : Worker K V ε α C} {t : Table K V}

/-- The transaction in flight has come to where it would have come alone on the table. -/
def Worker.AsAlone (body : C → Tx K V ε α) (t : Table K V) (w : Worker K V ε α C) : Prop :=
  (body w.call).Reaches t w.prog w.writes

/-- A commit writes no row of another transaction in flight that has begun to read. -/
def Undisturbed (body : C → Tx K V ε α) (rows : C → List K) (s : State K V ε α C) (e : Event C) : Prop :=
  ∀ i w, e = .commit i → s.active[i]? = some w →
    ∀ w' ∈ s.active.eraseIdx i, w' = Worker.start body w'.call ∨ ∀ k ∈ rows w'.call, w.writes k = none

/-- A commit writes no row of another transaction in flight. -/
def Separate (rows : C → List K) (s : State K V ε α C) (e : Event C) : Prop :=
  ∀ i w, e = .commit i → s.active[i]? = some w → ∀ w' ∈ s.active.eraseIdx i, ∀ k ∈ rows w'.call, w.writes k = none

instance (rows : C → List K) (s : State K V ε α C) (e : Event C) : Decidable (Separate rows s e) :=
  match e with
  | .commit i =>
    match h : s.active[i]? with
    | some w =>
      decidable_of_iff (∀ w' ∈ s.active.eraseIdx i, ∀ k ∈ rows w'.call, w.writes k = none)
        ⟨fun hw j w' hj hw' => by cases hj; rw [h] at hw'; cases hw'; exact hw, fun hw => hw i w rfl h⟩
    | none => .isTrue fun j w hj hw => by cases hj; rw [h] at hw; cases hw
  | .begin _ | .stmt _ | .rollback _ => .isTrue fun _ _ hj => nomatch hj

omit [DecidableEq K] in
theorem Separate.undisturbed (h : Separate rows s e) : Undisturbed body rows s e :=
  fun i w he hw w' hw' => Or.inr (h i w he hw w' hw')

/-- The table after a transaction that runs alone. -/
def alone (body : C → Tx K V ε α) (t : Table K V) (c : C) : Option (Table K V) :=
  ((body c).run t).toOption.map Prod.snd

/-- What a transaction in flight still does is what it would do alone. -/
theorem Worker.AsAlone.run_eq (h : w.AsAlone body t) : (body w.call).run t = w.prog.run (view t w.writes) :=
  Tx.Reaches.run_eq h

theorem Worker.asAlone_start (body : C → Tx K V ε α) (t : Table K V) (c : C) : (Worker.start body c).AsAlone body t :=
  .start

/-- **A step that disturbs nobody leaves every transaction in flight where it would be alone.** -/
theorem asAlone_step (hwithin : ∀ c, (body c).Within (rows c)) (h : ∀ w ∈ s.active, w.AsAlone body s.table)
    (hu : Undisturbed body rows s e) (hs : Step body s e s') : ∀ w ∈ s'.active, w.AsAlone body s'.table := by
  cases hs with
  | begin c =>
    intro w hw
    rcases List.mem_append.mp hw with hw | hw
    · exact h w hw
    · rw [List.mem_singleton.mp hw]
      exact Worker.asAlone_start body _ c
  | query i w next hw hp =>
    intro w' hw'
    rcases List.mem_or_eq_of_mem_set hw' with hw' | rfl
    · exact h w' hw'
    · have hreach : (body w.call).Reaches s.table w.prog w.writes := h w (List.mem_of_getElem? hw)
      rw [hp] at hreach
      exact hreach.query
  | write i w k wr next v hw hp hl hv =>
    intro w' hw'
    rcases List.mem_or_eq_of_mem_set hw' with hw' | rfl
    · exact h w' hw'
    · have hreach : (body w.call).Reaches s.table w.prog w.writes := h w (List.mem_of_getElem? hw)
      rw [hp] at hreach
      exact hreach.exec hv
  | commit i w a hw hp =>
    intro w' hw'
    rcases hu i w rfl hw w' hw' with hstart | hnone
    · rw [hstart]
      exact Worker.asAlone_start body _ _
    · exact Tx.Reaches.agree (h w' (List.mem_of_mem_eraseIdx hw')) (hwithin w'.call) (agree_view hnone)
  | rollback i => exact fun w hw => h w (List.mem_of_mem_eraseIdx hw)

/-- So it is after a run. -/
theorem asAlone_run (hwithin : ∀ c, (body c).Within (rows c)) (h : ∀ w ∈ s.active, w.AsAlone body s.table)
    (hu : Machine.Along (Transaction.step body) (Undisturbed body rows) s es)
    (hrun : Machine.run (Transaction.step body) s es = some s') : ∀ w ∈ s'.active, w.AsAlone body s'.table :=
  Machine.run_inv (I := fun s => ∀ w ∈ s.active, w.AsAlone body s.table)
    (fun _ _ _ h hu hs => asAlone_step hwithin h hu (step_cases hs)) h hu hrun

/-- A transaction that commits makes of the table what it would make of it alone. -/
theorem alone_commit {a : α} (h : w.AsAlone body t) (hp : w.prog = .ret a) :
    alone body t w.call = some (view t w.writes) := by
  rw [alone, h.run_eq, hp]
  rfl

/-- **Runs without disturbance are serial**, in the order of the commits. -/
theorem serial_of_undisturbed (hwithin : ∀ c, (body c).Within (rows c)) :
    ∀ {s s' : State K V ε α C} {es : List (Event C)}, (∀ w ∈ s.active, w.AsAlone body s.table) →
      Machine.Along (Transaction.step body) (Undisturbed body rows) s es →
      Machine.run (Transaction.step body) s es = some s' →
      Machine.run (alone body) s.table (committed body s es) = some s'.table
  | _, _, [], _, _, hrun => by
    cases hrun
    rfl
  | s, s', e :: es, h, hu, hrun => by
    obtain ⟨t, ht, hrun⟩ := Machine.run_cons.mp hrun
    have hstep := step_cases ht
    have ih := serial_of_undisturbed hwithin (asAlone_step hwithin h hu.1 hstep) (hu.2 t ht) hrun
    rw [committed_cons ht]
    refine Machine.run_append.mpr ⟨t.table, ?_, ih⟩
    cases hstep with
    | commit i w a hw hp =>
      simp only [State.commits, hw, Option.map_some, Option.toList_some]
      exact Machine.run_cons.mpr ⟨_, alone_commit (h w (List.mem_of_getElem? hw)) hp, rfl⟩
    | _ => rfl

end Runs

end Transaction
