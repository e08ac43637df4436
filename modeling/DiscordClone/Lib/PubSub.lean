import Mathlib.Data.List.Basic

/-!
# Publish and subscribe

Subscribers `C` subscribe to topics `T` and unsubscribe from them, and somebody publishes messages `M` under a topic. A
message goes to those that subscribe to its topic when it is published.

- `posts es` are the messages that are published, with their topics; `inbox s c es` are those that `c` gets, when `s`
  says who subscribes to what in the beginning.
- `inbox_sublist`: nobody gets a message twice, in another order, or one that is not published.
- `inbox_stream`: who stays subscribed to a topic gets all that is published under it; `inbox_silent`: who does not
  subscribe gets nothing of it.
-/

namespace PubSub

variable {C T M : Type}

/-- What happens; who goes away subscribes to nothing any more. -/
inductive Event (C T M : Type) where
  | subscribe (c : C) (t : T)
  | unsubscribe (c : C) (t : T)
  | disconnect (c : C)
  | publish (t : T) (m : M)

/-- Who subscribes to what. -/
abbrev Subs (C T : Type) := C → T → Prop

def Subs.after (s : Subs C T) : Event C T M → Subs C T
  | .subscribe c t => fun c' t' => c' = c ∧ t' = t ∨ s c' t'
  | .unsubscribe c t => fun c' t' => s c' t' ∧ ¬(c' = c ∧ t' = t)
  | .disconnect c => fun c' t' => s c' t' ∧ c' ≠ c
  | .publish _ _ => s

def Subs.run (s : Subs C T) : List (Event C T M) → Subs C T
  | [] => s
  | e :: es => (s.after e).run es

/-- What an event publishes, with its topic. -/
def Event.published : Event C T M → Option (T × M)
  | .publish t m => some (t, m)
  | _ => none

/-- What is published. -/
def posts (es : List (Event C T M)) : List (T × M) := es.filterMap Event.published

open Classical in
/-- What `c` gets of an event. -/
noncomputable def gets (s : Subs C T) (c : C) : Event C T M → List (T × M)
  | .publish t m => if s c t then [(t, m)] else []
  | _ => []

/-- What `c` gets. -/
noncomputable def inbox (s : Subs C T) (c : C) : List (Event C T M) → List (T × M)
  | [] => []
  | e :: es => gets s c e ++ inbox (s.after e) c es

/-- `c` neither unsubscribes from `t` nor goes away. -/
def Stays (c : C) (t : T) (e : Event C T M) : Prop := e ≠ .unsubscribe c t ∧ e ≠ .disconnect c

section Runs

variable {s : Subs C T} {c : C} {t : T}

theorem posts_cons (e : Event C T M) (es : List (Event C T M)) : posts (e :: es) = e.published.toList ++ posts es := by
  cases e <;> rfl

theorem posts_append (es es' : List (Event C T M)) : posts (es ++ es') = posts es ++ posts es' :=
  List.filterMap_append

theorem run_append : ∀ (s : Subs C T) (es es' : List (Event C T M)), s.run (es ++ es') = (s.run es).run es'
  | _, [], _ => rfl
  | s, e :: es, es' => run_append (s.after e) es es'

theorem inbox_append : ∀ (s : Subs C T) (c : C) (es es' : List (Event C T M)),
    inbox s c (es ++ es') = inbox s c es ++ inbox (s.run es) c es'
  | _, _, [], _ => rfl
  | s, c, e :: es, es' => by
    have ih := inbox_append (s.after e) c es es'
    simp only [List.cons_append, inbox, Subs.run, ih, List.append_assoc]

theorem gets_sublist (s : Subs C T) (c : C) (e : Event C T M) : (gets s c e).Sublist e.published.toList := by
  cases e with
  | publish t m =>
    simp only [gets, Event.published, Option.toList]
    split
    · exact .refl _
    · exact List.nil_sublist _
  | _ => exact .refl _

/-- **Nobody gets a message twice, in another order, or one that is not published.** -/
theorem inbox_sublist : ∀ (s : Subs C T) (c : C) (es : List (Event C T M)), (inbox s c es).Sublist (posts es)
  | _, _, [] => .refl _
  | s, c, e :: es => by
    rw [posts_cons]
    exact (gets_sublist s c e).append (inbox_sublist _ c es)

/-- Where nothing is published, there is nothing to get. -/
theorem posts_silent {es : List (Event C T M)} (h : ∀ e ∈ es, e.published = none) : posts es = [] :=
  List.filterMap_eq_nil_iff.mpr h

theorem inbox_nil {es : List (Event C T M)} (h : ∀ e ∈ es, e.published = none) : inbox s c es = [] :=
  List.sublist_nil.mp (posts_silent h ▸ inbox_sublist s c es)

/-- A subscription ends only when it is given up. -/
theorem after_stays {e : Event C T M} (h : s c t) (he : Stays c t e) : s.after e c t := by
  cases e with
  | subscribe c' t' => exact Or.inr h
  | unsubscribe c' t' =>
    refine ⟨h, fun hc => he.1 ?_⟩
    rw [hc.1, hc.2]
  | disconnect c' => exact ⟨h, fun hc => he.2 (by rw [hc])⟩
  | publish t' m => exact h

/-- A subscription begins only when it is asked for. -/
theorem after_silent {e : Event C T M} (h : ¬s c t) (he : e ≠ .subscribe c t) : ¬s.after e c t := by
  cases e with
  | subscribe c' t' =>
    rintro (hc | hs)
    · exact he (by rw [hc.1, hc.2])
    · exact h hs
  | unsubscribe c' t' => exact fun hs => h hs.1
  | disconnect c' => exact fun hs => h hs.1
  | publish t' m => exact h

variable [DecidableEq T]

theorem gets_subscribed (e : Event C T M) (h : s c t) :
    (gets s c e).filter (fun p => p.1 = t) = e.published.toList.filter fun p => p.1 = t := by
  cases e with
  | publish t' m =>
    by_cases ht : t' = t
    · subst ht
      simp [gets, Event.published, h]
    · simp only [gets, Event.published]
      split <;> simp [ht]
  | _ => rfl

theorem gets_silent (e : Event C T M) (h : ¬s c t) : (gets s c e).filter (fun p => p.1 = t) = [] := by
  cases e with
  | publish t' m =>
    by_cases ht : t' = t
    · subst ht
      simp [gets, h]
    · simp only [gets]
      split <;> simp [ht]
  | _ => rfl

/-- **Who stays subscribed to a topic gets all that is published under it**, in order. -/
theorem inbox_stream : ∀ {es : List (Event C T M)} {s : Subs C T}, s c t → (∀ e ∈ es, Stays c t e) →
    (inbox s c es).filter (fun p => p.1 = t) = (posts es).filter fun p => p.1 = t
  | [], _, _, _ => rfl
  | e :: es, s, h, hes => by
    have hnext := after_stays h (hes e List.mem_cons_self)
    rw [inbox, posts_cons, List.filter_append, List.filter_append, gets_subscribed e h,
      inbox_stream hnext fun e' he' => hes e' (List.mem_cons_of_mem _ he')]

/-- **Who does not subscribe to a topic gets nothing of it.** -/
theorem inbox_silent : ∀ {es : List (Event C T M)} {s : Subs C T}, ¬s c t → (∀ e ∈ es, e ≠ .subscribe c t) →
    (inbox s c es).filter (fun p => p.1 = t) = []
  | [], _, _, _ => rfl
  | e :: es, s, h, hes => by
    have hnext := after_silent h (hes e List.mem_cons_self)
    rw [inbox, List.filter_append, gets_silent e h, inbox_silent hnext fun e' he' =>
      hes e' (List.mem_cons_of_mem _ he')]
    rfl

end Runs

end PubSub
