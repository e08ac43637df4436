import Mathlib.Logic.Function.Basic

/-!
# Runs of a labelled machine

A machine is a partial function `step : S → L → Option S`: the label says which step is taken (and resolves every
choice), `none` says that the step is not enabled.

- `run step s ls` is the state after the labels `ls`, when every one of them is enabled;
- `Along step C s ls` says that every step of that run meets the condition `C` in the state before it;
- `run_inv` carries an invariant along a run whose steps meet a condition.
-/

namespace Machine

variable {S L : Type} {step : S → L → Option S}

/-- The state after the labels, when every one of them is enabled. -/
def run (step : S → L → Option S) : S → List L → Option S
  | s, [] => some s
  | s, l :: ls => (step s l).bind fun s' => run step s' ls

/-- Every step of the run meets `C` in the state before it. -/
def Along (step : S → L → Option S) (C : S → L → Prop) : S → List L → Prop
  | _, [] => True
  | s, l :: ls => C s l ∧ ∀ s', step s l = some s' → Along step C s' ls

instance Along.decidable {C : S → L → Prop} [∀ s l, Decidable (C s l)] : ∀ s ls, Decidable (Along step C s ls)
  | _, [] => .isTrue trivial
  | s, l :: ls =>
    have next : Decidable (∀ s', step s l = some s' → Along step C s' ls) :=
      match step s l with
      | none => .isTrue fun _ h => nomatch h
      | some t => @decidable_of_iff _ (Along step C t ls) (by simp) (Along.decidable t ls)
    inferInstanceAs (Decidable (C s l ∧ ∀ s', step s l = some s' → Along step C s' ls))

@[simp] theorem run_nil (s : S) : run step s [] = some s := rfl

/-- A run is a step and a run. -/
theorem run_cons {s s' : S} {l : L} {ls : List L} :
    run step s (l :: ls) = some s' ↔ ∃ t, step s l = some t ∧ run step t ls = some s' := by
  simp [run, Option.bind_eq_some_iff]

/-- A run of two parts. -/
theorem run_append {s s' : S} {ls ls' : List L} :
    run step s (ls ++ ls') = some s' ↔ ∃ t, run step s ls = some t ∧ run step t ls' = some s' := by
  induction ls generalizing s with
  | nil => simp
  | cons l ls ih =>
    simp only [List.cons_append, run_cons, ih]
    constructor
    · rintro ⟨u, hu, t, ht, h⟩
      exact ⟨t, ⟨u, hu, ht⟩, h⟩
    · rintro ⟨t, ⟨u, hu, ht⟩, h⟩
      exact ⟨u, hu, t, ht, h⟩

/-- The last label of a kind, if there is one. -/
theorem exists_last {p : L → Prop} : ∀ ls : List L, (∀ l ∈ ls, ¬p l) ∨
    ∃ before l after, ls = before ++ l :: after ∧ p l ∧ ∀ l' ∈ after, ¬p l'
  | [] => Or.inl fun _ h => absurd h List.not_mem_nil
  | l :: ls => by
    rcases exists_last (p := p) ls with hnone | ⟨before, l', after, rfl, hl', hafter⟩
    · by_cases hl : p l
      · exact Or.inr ⟨[], l, ls, rfl, hl, hnone⟩
      · exact Or.inl (List.forall_mem_cons.mpr ⟨hl, hnone⟩)
    · exact Or.inr ⟨l :: before, l', after, rfl, hl', hafter⟩

/-- A machine whose steps are always enabled runs through. -/
theorem run_total (h : ∀ s l, ∃ s', step s l = some s') : ∀ (s : S) (ls : List L), ∃ s', run step s ls = some s'
  | s, [] => ⟨s, rfl⟩
  | s, l :: ls => by
    obtain ⟨t, ht⟩ := h s l
    obtain ⟨s', hs'⟩ := run_total h t ls
    exact ⟨s', run_cons.mpr ⟨t, ht, hs'⟩⟩

/-- Two conditions along the same run. -/
theorem Along.and {C D : S → L → Prop} : ∀ {s : S} {ls : List L}, Along step C s ls → Along step D s ls →
    Along step (fun s l => C s l ∧ D s l) s ls
  | _, [], _, _ => trivial
  | _, _ :: _, h, h' => ⟨⟨h.1, h'.1⟩, fun s' hs => (h.2 s' hs).and (h'.2 s' hs)⟩

theorem Along.mono {C D : S → L → Prop} (h : ∀ s l, C s l → D s l) : ∀ {s : S} {ls : List L}, Along step C s ls →
    Along step D s ls
  | _, [], _ => trivial
  | _, _ :: _, hc => ⟨h _ _ hc.1, fun s' hs => (hc.2 s' hs).mono h⟩

/-- A step that is known, and the rest of the run. -/
theorem along_cons {C : S → L → Prop} {s t : S} {l : L} {ls : List L} (hs : step s l = some t) (hc : C s l)
    (h : Along step C t ls) : Along step C s (l :: ls) := by
  refine ⟨hc, fun t' ht' => ?_⟩
  rw [hs] at ht'
  cases ht'
  exact h

/-- A condition that always holds, holds along a run. -/
theorem along_of_forall {C : S → L → Prop} (h : ∀ s l, C s l) : ∀ (s : S) (ls : List L), Along step C s ls
  | _, [] => trivial
  | s, l :: ls => ⟨h s l, fun s' _ => along_of_forall h s' ls⟩

/-- **The invariant rule**: what every step that meets `C` preserves, a run along `C` preserves. -/
theorem run_inv {C : S → L → Prop} {I : S → Prop} (hstep : ∀ s l s', I s → C s l → step s l = some s' → I s') :
    ∀ {s s' : S} {ls : List L}, I s → Along step C s ls → run step s ls = some s' → I s'
  | _, _, [], hi, _, h => by cases h; exact hi
  | s, _, l :: ls, hi, hc, h => by
    obtain ⟨t, ht, h⟩ := run_cons.mp h
    exact run_inv hstep (hstep s l t hi hc.1 ht) (hc.2 t ht) h

/-- `I` holds in every state of the run. -/
def Always (step : S → L → Option S) (I : S → Prop) : S → List L → Prop
  | s, [] => I s
  | s, l :: ls => I s ∧ ∀ s', step s l = some s' → Always step I s' ls

theorem Always.head {I : S → Prop} {s : S} : ∀ {ls : List L}, Always step I s ls → I s
  | [], h => h
  | _ :: _, h => h.1

theorem Always.mono {I J : S → Prop} (h : ∀ s, I s → J s) : ∀ {s : S} {ls : List L}, Always step I s ls →
    Always step J s ls
  | _, [], hi => h _ hi
  | _, _ :: _, hi => ⟨h _ hi.1, fun s' hs => (hi.2 s' hs).mono h⟩

/-- What holds throughout a run holds at its end. -/
theorem Always.last {I : S → Prop} : ∀ {s s' : S} {ls : List L}, Always step I s ls → run step s ls = some s' → I s'
  | _, _, [], hi, h => by cases h; exact hi
  | _, _, _ :: _, hi, h => by
    obtain ⟨t, ht, h⟩ := run_cons.mp h
    exact (hi.2 t ht).last h

/-- What exactly the steps that meet `C` preserve, holds throughout a run exactly when the run is along `C`. -/
theorem always_iff_along {C : S → L → Prop} {I : S → Prop}
    (hstep : ∀ s l s', I s → step s l = some s' → (I s' ↔ C s l)) :
    ∀ {s t : S} {ls : List L}, I s → run step s ls = some t → (Always step I s ls ↔ Along step C s ls)
  | _, _, [], hi, _ => ⟨fun _ => trivial, fun _ => hi⟩
  | s, _, l :: ls, hi, h => by
    obtain ⟨u, hu, hr⟩ := run_cons.mp h
    have hnext : ∀ {P : S → Prop}, P u → ∀ s', step s l = some s' → P s' := fun hp s' hs' => by
      cases hu.symm.trans hs'
      exact hp
    constructor
    · intro ha
      have hau := ha.2 u hu
      exact ⟨(hstep s l u hi hu).mp hau.head, hnext ((always_iff_along hstep hau.head hr).mp hau)⟩
    · intro hc
      have hiu := (hstep s l u hi hu).mpr hc.1
      exact ⟨hi, hnext ((always_iff_along hstep hiu hr).mpr (hc.2 u hu))⟩

/-- What every step preserves may be added to what holds throughout. -/
theorem always_and {I J : S → Prop} (hstep : ∀ s l s', J s → step s l = some s' → J s') :
    ∀ {s : S} {ls : List L}, J s → (Always step (fun s => I s ∧ J s) s ls ↔ Always step I s ls)
  | s, [], hj => and_iff_left hj
  | s, l :: ls, hj => by
    have hnext : ∀ s', step s l = some s' → (Always step (fun s => I s ∧ J s) s' ls ↔ Always step I s' ls) :=
      fun s' hs => always_and hstep (hstep s l s' hj hs)
    exact and_congr (and_iff_left hj) (forall₂_congr hnext)

/-- The invariant rule for an unconditional invariant. -/
theorem run_inv' {I : S → Prop} (hstep : ∀ s l s', I s → step s l = some s' → I s') {s s' : S} {ls : List L}
    (hi : I s) (h : run step s ls = some s') : I s' :=
  run_inv (fun s l s' hi _ => hstep s l s' hi) hi (along_of_forall (fun _ _ => trivial) s ls) h

end Machine
