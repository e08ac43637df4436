import DiscordClone.Lib.Past

/-!
# Two runs in lockstep

Two runs of a machine whose labels are pairwise related by `E`. A relation `R` of their states that every pair of
related steps keeps, and under which these put out the same, keeps the outputs of the whole runs the same
(`Unwinds.run`): what `E` leaves open does not show in them.
-/

namespace Machine

variable {S L A : Type} {step : S → L → Option S} {C : S → L → Prop} {E : L → L → Prop} {out : S → L → List A}
  {R : S → S → Prop}

/-- From related states, related steps are both enabled, put out the same and lead to related states. -/
def Unwinds (step : S → L → Option S) (C : S → L → Prop) (E : L → L → Prop) (out : S → L → List A)
    (R : S → S → Prop) : Prop :=
  ∀ s t l l' s', R s t → C s l → E l l' → step s l = some s' →
    ∃ t', step t l' = some t' ∧ R s' t' ∧ out t l' = out s l

/-- **What related runs put out is the same.** -/
theorem Unwinds.run (h : Unwinds step C E out R) {ls ls' : List L} (hE : List.Forall₂ E ls ls') :
    ∀ {s t s' : S}, R s t → Along step C s ls → Machine.run step s ls = some s' →
      ∃ t', Machine.run step t ls' = some t' ∧ R s' t' ∧ outputs step out t ls' = outputs step out s ls := by
  induction hE with
  | nil =>
    intro s t s' hR _ hrun
    cases hrun
    exact ⟨t, rfl, hR, rfl⟩
  | cons hl _ ih =>
    intro s t s' hR hC hrun
    obtain ⟨u, hu, hrun⟩ := run_cons.mp hrun
    obtain ⟨v, hv, hR, hout⟩ := h _ _ _ _ _ hR hC.1 hl hu
    obtain ⟨t', ht', hR', houts⟩ := ih hR (hC.2 u hu) hrun
    refine ⟨t', run_cons.mpr ⟨v, hv, ht'⟩, hR', ?_⟩
    rw [outputs_cons hu, outputs_cons hv, hout, houts]

end Machine
