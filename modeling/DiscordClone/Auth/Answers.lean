import DiscordClone.Auth.Serial
import DiscordClone.Lib.Outcome

/-!
# What the calls answer

`Serial` says what a call that runs alone does to the sessions; here it is what the call answers: one answer, and in
which case it is which (`login_answer`, `refresh_answer`, `logout_answer`, `status_answer`). The errors are those that
`auth.service.ts` throws (`Exception.Expected`).
-/

namespace DiscordClone

/-- An error that the repository means to answer with: a `ForbiddenException`, or an exception of its own whose code
begins with its status. -/
inductive Exception.Expected : Exception → Prop
  | custom (e : CustomException) (hstatus : e.status ∈ [400, 403, 404, 409]) (hcode : e.customCode / 100 = e.status) :
    Expected (.custom e)
  | forbidden : Expected .forbidden

theorem expected_accountNotFound : accountNotFound.Expected := .custom _ (by decide) (by decide)

section Answers

open AuthState

variable {env : AuthEnv} {now pick pick' : Nat} {sessions : List Session} {ids : List String} {uuid : String}
  {t : AuthState}

/-- A call that has answered at once. -/
theorem toEnd_answer {s : AuthState} (hs : s.calls = []) {r : AuthResult} {n : Nat}
    (h : toEnd pick uuid n (s.answer r) = some t) : t = s.answer r := by
  rw [toEnd_answered (answered_answer hs r)] at h
  exact (Option.some.inj h).symm

/-- A login that is refused leaves the sessions. -/
theorem login_answer {data : LoginDto} (h : alone env (idle now sessions ids) (.login data) pick uuid = some t) :
    ((∀ e, ¬env.Accepts data e) ∧ t.sessions = sessions ∧ t.ids = ids ∧ ∃ x, x.Expected ∧ t.results = [.failed x]) ∨
      ∃ e, env.Accepts data e ∧ t.results = [.login e.id (signToken env.jwt env.config now .ACCESS e.id)
        (signToken env.jwt env.config now .REFRESH e.id)] := by
  simp only [alone, authStep, Option.bind_some] at h
  rcases login_cases env (idle now sessions ids) data with ⟨hno, x, hlogin⟩ | ⟨e, hacc, hlogin⟩
  · refine Or.inl ⟨hno, ?_⟩
    have hx : x.Expected := by
      unfold AuthService.login at hlogin
      split at hlogin
      · cases hlogin
        exact expected_accountNotFound
      · split_ifs at hlogin
        · cases hlogin
          exact .custom _ (by decide) (by decide)
        · cases hlogin
          exact .forbidden
        · cases hlogin
    rw [hlogin] at h
    rw [toEnd_answer rfl h]
    exact ⟨rfl, rfl, x, hx, rfl⟩
  · refine Or.inr ⟨e, hacc, ?_⟩
    rw [hlogin, toEnd_wait rfl] at h
    simp only [AuthService.resume] at h
    split at h
    · rename_i x hf
      rw [Option.bind_some, goOn_wait rfl, toEnd_write rfl (update_of_mem (findFirst_account hf).1 _) rfl] at h
      cases h
      rfl
    · rw [Option.bind_some, goOn_wait rfl, toEnd_wait rfl] at h
      simp only [AuthService.resume] at h
      split at h
      · cases h
      · cases h
        rfl

/-- A refresh answers a token of no session with an error. -/
theorem refresh_answer {data : RefreshDto} {a : String}
    (h : alone env (idle now sessions ids) (.refresh data a pick) pick' uuid = some t) :
    (t.sessions = sessions ∧ t.ids = ids ∧ ∃ x, x.Expected ∧ t.results = [.failed x]) ∨
      (∃ x ∈ sessions, x.accountId = a ∧ x.refreshToken = data.refreshToken) ∧
        t.results = [.refresh a (signToken env.jwt env.config now .ACCESS a)
          (signToken env.jwt env.config now .REFRESH a)] := by
  simp only [alone, authStep, AuthService.refresh, Option.bind_some] at h
  split at h
  · rw [toEnd_answer rfl h]
    exact Or.inl ⟨rfl, rfl, _, .custom _ (by decide) (by decide), rfl⟩
  · rename_i x hf
    obtain ⟨hx, rfl, ht⟩ := findFirst_token hf
    rw [toEnd_write rfl (update_of_mem hx _) rfl] at h
    cases h
    exact Or.inr ⟨⟨x, hx, rfl, ht⟩, rfl⟩

/-- A logout succeeds, with or without a session. -/
theorem logout_answer {a : String} (h : alone env (idle now sessions ids) (.logout a pick) pick' uuid = some t) :
    t.results = [.logout a] := by
  simp only [alone, authStep, AuthService.logout, Option.bind_some] at h
  split at h
  · rw [toEnd_answer rfl h]
    rfl
  · rename_i x hf
    rw [toEnd_write rfl (delete_of_mem (findFirst_account hf).1) rfl] at h
    cases h
    rfl

end Answers

end DiscordClone
