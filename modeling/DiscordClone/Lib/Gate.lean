import DiscordClone.Lib.ReadCommitted

/-!
# Transactions that a row refuses

A transaction may read a row to decide whether it may go on. Side by side with others at READ COMMITTED, the row may
have changed when it commits.

- `Tx.Refused k v`: as long as its statements find `v` in the row `k`, the transaction does not come to its end.
  `Tx.Gated k v` says that this is so at every moment before its end.
- `Guarded`: the row is kept (`Spared`), and a transaction of the gate is refused by it unless it has come to its end
  already (`guarded_step`).
- `committed_le`: while the row is kept, no more transactions of the gate commit than had come to their end before.
-/

namespace Transaction

variable {K V ε α C : Type}

namespace Tx

/-- The transaction writes nothing. -/
def ReadOnly : Tx K V ε α → Prop
  | .ret _ => True
  | .throw _ => True
  | .query next => ∀ rows, (next rows).ReadOnly
  | .exec _ _ _ => False

/-- As long as its statements find `v` in the row `k`, the transaction does not come to its end. -/
def Refused (k : K) (v : V) : Tx K V ε α → Prop
  | .ret _ => False
  | .throw _ => True
  | .query next => ∀ rows, rows k = some v → (next rows).Refused k v
  | .exec k' _ next => k' ≠ k ∧ next.Refused k v

/-- Whatever it has read, the transaction is refused by the row until it has come to its end or thrown. -/
def Gated (k : K) (v : V) : Tx K V ε α → Prop
  | .ret _ => True
  | .throw _ => True
  | .query next => (Tx.query next).Refused k v ∧ ∀ rows, (next rows).Gated k v
  | .exec k' wr next => (Tx.exec k' wr next).Refused k v ∧ next.Gated k v

theorem Gated.cases {k : K} {v : V} {p : Tx K V ε α} (h : p.Gated k v) : (∃ a, p = .ret a) ∨ p.Refused k v := by
  cases p with
  | ret a => exact Or.inl ⟨a, rfl⟩
  | throw e => exact Or.inr trivial
  | query next => exact Or.inr h.1
  | exec k' wr next => exact Or.inr h.1

/-- What writes nothing spares every row. -/
theorem ReadOnly.spares {k : K} {v : V} : ∀ {p : Tx K V ε α}, p.ReadOnly → p.Spares k v
  | .ret _, _ => trivial
  | .throw _, _ => trivial
  | .query _, h => fun rows _ => (h rows).spares

/-- What writes nothing leaves the table. -/
theorem ReadOnly.run_table [DecidableEq K] {t t' : Table K V} {a : α} : ∀ {p : Tx K V ε α}, p.ReadOnly →
    p.run t = .ok (a, t') → t' = t
  | .ret _, _, h => by
    cases h
    rfl
  | .query _, hp, h => (hp t).run_table h

end Tx

/-- The transactions of the gate that have come to their end. -/
def State.passed (gate : C → Bool) (s : State K V ε α C) : Nat := s.active.countP fun w => gate w.call && w.finished

theorem not_finished_of_query {w : Worker K V ε α C} {next : Table K V → Tx K V ε α} (hp : w.prog = .query next) :
    w.finished = false := by
  rw [Worker.finished, hp]

theorem not_finished_of_exec {w : Worker K V ε α C} {k' : K} {wr : Write V} {next : Tx K V ε α}
    (hp : w.prog = .exec k' wr next) :
    w.finished = false := by
  rw [Worker.finished, hp]

/-- A transaction that is refused has not come to its end. -/
theorem not_finished_of_refused {w : Worker K V ε α C} {k : K} {v : V} (h : w.prog.Refused k v) :
    w.finished = false := by
  cases hf : w.finished with
  | false => rfl
  | true =>
    obtain ⟨a, ha⟩ := Worker.ret_of_finished hf
    rw [ha] at h
    exact absurd h id

/-- A transaction that moves and counts as before. -/
theorem countP_set_same {A : Type} {p : A → Bool} {l : List A} {i : Nat} {x y : A} (hx : l[i]? = some x)
    (h : p y = p x) : (l.set i y).countP p = l.countP p := by
  have hmap : (l.set i y).map p = l.map p := by
    obtain ⟨hi, rfl⟩ := List.getElem?_eq_some_iff.mp hx
    rw [List.map_set, h, ← List.getElem_map p (h := by simpa using hi), List.set_getElem_self]
  have hcount : ∀ m : List A, m.countP p = (m.map p).countP id := fun m => by
    rw [List.countP_map]
    rfl
  rw [hcount, hcount, hmap]

section Runs

variable {body : C → Tx K V ε α} {exempt : C → Prop} {gate : C → Bool} {k : K} {v : V} {s s' : State K V ε α C}
  {e : Event C} {w : Worker K V ε α C}

/-- The row `k` holds `v`, the transactions in flight that are not exempt spare it, and it refuses those of the gate
that have not come to their end. -/
structure Guarded (exempt : C → Prop) (gate : C → Bool) (k : K) (v : V) (s : State K V ε α C) : Prop where
  spared : Spared exempt k v s
  refused : ∀ w ∈ s.active, gate w.call = true → w.finished = true ∨ w.writes k = none ∧ w.prog.Refused k v

/-- A transaction of the gate that reads. -/
theorem Guarded.query (h : Guarded exempt gate k v s) (hw : w ∈ s.active) (hg : gate w.call = true)
    {next : Table K V → Tx K V ε α} (hp : w.prog = .query next) :
    w.writes k = none ∧ (next (view s.table w.writes)).Refused k v := by
  rcases h.refused w hw hg with hf | ⟨hn, href⟩
  · rw [not_finished_of_query hp] at hf
    cases hf
  · rw [hp] at href
    have hseen : view s.table w.writes k = some v := by simp [view, hn, h.spared.1]
    exact ⟨hn, href _ hseen⟩

/-- A transaction of the gate that writes. -/
theorem Guarded.exec (h : Guarded exempt gate k v s) (hw : w ∈ s.active) (hg : gate w.call = true) {k' : K}
    {wr : Write V} {next : Tx K V ε α} (hp : w.prog = .exec k' wr next) :
    w.writes k = none ∧ k' ≠ k ∧ next.Refused k v := by
  rcases h.refused w hw hg with hf | ⟨hn, href⟩
  · rw [not_finished_of_exec hp] at hf
    cases hf
  · rw [hp] at href
    exact ⟨hn, href⟩

variable [DecidableEq K]

/-- **A step keeps the guard**, when an exempt transaction that commits leaves the row. -/
theorem guarded_step (hbody : ∀ c, ¬exempt c → (body c).Spares k v) (hgate : ∀ c, gate c = true → (body c).Refused k v)
    (h : Guarded exempt gate k v s)
    (hc : OnCommit (fun w => exempt w.call → w.writes k = none ∨ w.writes k = some (some v)) s e)
    (hs : Step body s e s') : Guarded exempt gate k v s' := by
  refine ⟨spared_step hbody h.spared hc hs, ?_⟩
  cases hs with
  | begin c =>
    intro w hw hg
    rcases List.mem_append.mp hw with hw | hw
    · exact h.refused w hw hg
    · rw [List.mem_singleton] at hw
      subst hw
      exact Or.inr ⟨rfl, hgate c hg⟩
  | query i w next hw hp =>
    intro w' hw' hg
    rcases List.mem_or_eq_of_mem_set hw' with hw' | rfl
    · exact h.refused w' hw' hg
    · exact Or.inr (h.query (List.mem_of_getElem? hw) hg hp)
  | write i w k' wr next v' hw hp hl hv =>
    intro w' hw' hg
    rcases List.mem_or_eq_of_mem_set hw' with hw' | rfl
    · exact h.refused w' hw' hg
    · obtain ⟨hn, hk, href⟩ := h.exec (List.mem_of_getElem? hw) hg hp
      exact Or.inr ⟨by simpa [Function.update_of_ne hk.symm] using hn, href⟩
  | commit i w a hw hp => exact fun w' hw' => h.refused w' (List.mem_of_mem_eraseIdx hw')
  | rollback i => exact fun w' hw' => h.refused w' (List.mem_of_mem_eraseIdx hw')

/-- What commits had come to its end before, and nothing else of the gate comes to its end. -/
theorem commits_le (hgate : ∀ c, gate c = true → (body c).Refused k v) (h : Guarded exempt gate k v s)
    (hs : Step body s e s') : (s.commits e).countP gate + s'.passed gate ≤ s.passed gate := by
  unfold State.passed
  cases hs with
  | begin c =>
    have hnew : [Worker.start body c].countP (fun w => gate w.call && w.finished) = 0 := by
      refine List.countP_eq_zero.mpr fun w hw => ?_
      rw [List.mem_singleton.mp hw, Bool.and_eq_true]
      rintro ⟨hg, hf⟩
      rw [not_finished_of_refused (hgate c hg)] at hf
      cases hf
    have hnone : (s.commits (.begin c)).countP gate = 0 := rfl
    rw [hnone, List.countP_append, hnew]
    omega
  | query i w next hw hp =>
    have hsame : (gate w.call && Worker.finished { w with prog := next (view s.table w.writes) }) =
        (gate w.call && w.finished) := by
      cases hg : gate w.call with
      | false => rfl
      | true =>
        have href := (h.query (List.mem_of_getElem? hw) hg hp).2
        rw [not_finished_of_query hp, not_finished_of_refused href]
    have hnone : (s.commits (.stmt i)).countP gate = 0 := rfl
    rw [hnone, countP_set_same hw hsame]
    omega
  | write i w k' wr next v' hw hp hl hv =>
    have hsame : (gate w.call &&
        Worker.finished { w with prog := next, writes := Function.update w.writes k' (some v') }) =
        (gate w.call && w.finished) := by
      cases hg : gate w.call with
      | false => rfl
      | true =>
        have href := (h.exec (List.mem_of_getElem? hw) hg hp).2.2
        rw [not_finished_of_exec hp, not_finished_of_refused href]
    have hnone : (s.commits (.stmt i)).countP gate = 0 := rfl
    rw [hnone, countP_set_same hw hsame]
    omega
  | commit i w a hw hp =>
    have herase := countP_eraseIdx (p := fun w => gate w.call && w.finished) hw
    have hf : w.finished = true := by rw [Worker.finished, hp]
    have hone : [w].countP (fun w => gate w.call && w.finished) = [w.call].countP gate := by
      simp [List.countP_cons, hf]
    simp only [State.commits, hw, Option.map_some, Option.toList_some]
    omega
  | rollback i =>
    have hsub := (List.eraseIdx_sublist s.active i).countP_le (p := fun w => gate w.call && w.finished)
    have hnone : (s.commits (.rollback i)).countP gate = 0 := rfl
    rw [hnone, Nat.zero_add]
    exact hsub

/-- **While the row is kept, no more transactions of the gate commit than had come to their end before.** `I` is what
the condition on the exempt ones rests on. -/
theorem committed_le {I : State K V ε α C → Prop} {P : State K V ε α C → Event C → Prop}
    (hbody : ∀ c, ¬exempt c → (body c).Spares k v) (hgate : ∀ c, gate c = true → (body c).Refused k v)
    (hI : ∀ s e s', I s → Step body s e s' → I s')
    (hkeeps : ∀ s e s', I s → P s e → Step body s e s' →
      OnCommit (fun w => exempt w.call → w.writes k = none ∨ w.writes k = some (some v)) s e) :
    ∀ {s s' : State K V ε α C} {es : List (Event C)}, I s → Guarded exempt gate k v s →
      Machine.Along (Transaction.step body) P s es → Machine.run (Transaction.step body) s es = some s' →
      (committed body s es).countP gate ≤ s.passed gate
  | _, _, [], _, _, _, _ => Nat.zero_le _
  | s, s', e :: es, hi, hguarded, hp, hr => by
    obtain ⟨t, ht, hr⟩ := Machine.run_cons.mp hr
    have hs := step_cases ht
    have hnext := guarded_step hbody hgate hguarded (hkeeps s e t hi hp.1 hs) hs
    have ih := committed_le hbody hgate hI hkeeps (hI s e t hi hs) hnext (hp.2 t ht) hr
    have hstep := commits_le hgate hguarded hs
    rw [committed_cons ht, List.countP_append]
    omega

end Runs

end Transaction
