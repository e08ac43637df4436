import Mathlib.Data.List.Induction
import DiscordClone.Lib.Machine

/-!
# The past of a run

`Once s P ls` says that the run of `ls` from `s` has taken a step that met `P`, where `P` looks at the labels before the
step, the state before it and its label. What has happened once has happened ever after (`Once.append`), and `P` may
itself speak of the past, so that nested `Once` are chains of events in their order (`Once.mono`).

`outputs step f s ls` collects what the steps of a run put out, in their order (`outputs_inv`).

`past_inv` is the invariant rule for a relation between the labels of a run and the state they lead to.
-/

namespace Machine

variable {S L : Type} {step : S → L → Option S} {s s' : S} {ls : List L} {P Q : List L → S → L → Prop}

/-- A run is a run and a step. -/
theorem run_snoc {l : L} : run step s (ls ++ [l]) = some s' ↔ ∃ t, run step s ls = some t ∧ step t l = some s' := by
  rw [run_append]
  refine exists_congr fun t => and_congr_right fun _ => ?_
  simp [run]

/-- A condition along the two parts of a run. -/
theorem along_append {C : S → L → Prop} : ∀ {s : S} {ls ls' : List L}, Along step C s (ls ++ ls') ↔
    Along step C s ls ∧ ∀ t, run step s ls = some t → Along step C t ls'
  | s, [], ls' => by
    constructor
    · intro h
      refine ⟨trivial, fun t ht => ?_⟩
      cases ht
      exact h
    · intro h
      exact h.2 s rfl
  | s, l :: ls, ls' => by
    constructor
    · intro h
      refine ⟨⟨h.1, fun t ht => (along_append.mp (h.2 t ht)).1⟩, fun t ht => ?_⟩
      obtain ⟨u, hu, ht⟩ := run_cons.mp ht
      exact (along_append.mp (h.2 u hu)).2 t ht
    · intro h
      exact ⟨h.1.1, fun u hu => along_append.mpr ⟨h.1.2 u hu, fun t ht => h.2 t (run_cons.mpr ⟨u, hu, ht⟩)⟩⟩

/-- A condition along a run and a step. -/
theorem along_snoc {C : S → L → Prop} {l : L} : Along step C s (ls ++ [l]) ↔
    Along step C s ls ∧ ∀ t, run step s ls = some t → C t l := by
  rw [along_append]
  refine and_congr_right fun _ => forall₂_congr fun t _ => ?_
  exact and_iff_left fun _ _ => trivial

/-- A condition on the labels alone. -/
theorem along_of_mem {C : L → Prop} : ∀ {ls : List L} (s : S), (∀ l ∈ ls, C l) → Along step (fun _ l => C l) s ls
  | [], _, _ => trivial
  | l :: _, _, h => ⟨h l List.mem_cons_self, fun t _ => along_of_mem t fun l' hl' => h l' (List.mem_cons_of_mem _ hl')⟩

/-- The run has taken a step that met `P`. -/
def Once (step : S → L → Option S) (s : S) (P : List L → S → L → Prop) (ls : List L) : Prop :=
  ∃ before l after t, ls = before ++ l :: after ∧ run step s before = some t ∧ P before t l

/-- What has happened once has happened ever after. -/
theorem Once.append (h : Once step s P ls) (ls' : List L) : Once step s P (ls ++ ls') := by
  obtain ⟨before, l, after, t, rfl, ht, hp⟩ := h
  exact ⟨before, l, after ++ ls', t, by simp, ht, hp⟩

/-- What happens now has happened once. -/
theorem once_now {l : L} {t : S} (ht : run step s ls = some t) (hp : P ls t l) : Once step s P (ls ++ [l]) :=
  ⟨ls, l, [], t, rfl, ht, hp⟩

theorem Once.mono (h : Once step s P ls) (hpq : ∀ before t l, P before t l → Q before t l) : Once step s Q ls := by
  obtain ⟨before, l, after, t, hls, ht, hp⟩ := h
  exact ⟨before, l, after, t, hls, ht, hpq before t l hp⟩

/-- **The invariant rule with the past**: a relation between the labels of a run and its state that holds in the
beginning and is kept by every step that meets `C`, holds at the end of a run along `C`. -/
theorem past_inv {C : S → L → Prop} {I : List L → S → Prop} (h₀ : I [] s)
    (hstep : ∀ ls t l t', run step s ls = some t → Along step C s ls → I ls t → C t l → step t l = some t' →
      I (ls ++ [l]) t')
    (hc : Along step C s ls) (hrun : run step s ls = some s') : I ls s' := by
  induction ls using List.reverseRecOn generalizing s' with
  | nil =>
    cases hrun
    exact h₀
  | append_singleton ls l ih =>
    obtain ⟨t, ht, hl⟩ := run_snoc.mp hrun
    obtain ⟨hc, hcl⟩ := along_snoc.mp hc
    exact hstep ls t l s' ht hc (ih hc ht) (hcl t ht) hl

/-- What the steps of a run put out: a step puts out `f` of the state before it and its label. -/
def outputs {A : Type} (step : S → L → Option S) (f : S → L → List A) : S → List L → List A
  | _, [] => []
  | s, l :: ls => (step s l).elim [] fun t => f s l ++ outputs step f t ls

section Outputs

variable {A : Type} {f : S → L → List A}

theorem outputs_cons {l : L} {t : S} (h : step s l = some t) :
    outputs step f s (l :: ls) = f s l ++ outputs step f t ls := by
  rw [outputs, h, Option.elim_some]

/-- **The invariant rule for what is put out**: what each step along `C` puts out in a state of the invariant. -/
theorem outputs_inv {C : S → L → Prop} {I : S → Prop} {O : A → Prop}
    (hstep : ∀ s l s', I s → C s l → step s l = some s' → I s')
    (hout : ∀ s l s', I s → C s l → step s l = some s' → ∀ a ∈ f s l, O a) :
    ∀ {s : S} {ls : List L}, I s → Along step C s ls → ∀ a ∈ outputs step f s ls, O a
  | _, [], _, _, a, ha => absurd ha List.not_mem_nil
  | s, l :: ls, hi, hc, a, ha => by
    cases hs : step s l with
    | none =>
      rw [outputs, hs] at ha
      cases ha
    | some t =>
      rw [outputs_cons hs] at ha
      rcases List.mem_append.mp ha with ha | ha
      · exact hout s l t hi hc.1 hs a ha
      · exact outputs_inv hstep hout (hstep s l t hi hc.1 hs) (hc.2 t hs) a ha

end Outputs

end Machine
