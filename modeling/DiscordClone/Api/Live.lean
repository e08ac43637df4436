import DiscordClone.Api.Stream

/-!
# The live view

A client reads a conversation page by page and then listens to its room. What it has read and what it hears afterwards
are what it would read later (`live_history`), as long as its socket stays in the room and the other clients send what
`ISendDirectMessageData` declares, which has no `senderId`.
-/

namespace DiscordClone

open ChatGateway Machine
open Json (Obj)

namespace Backend

/-- Nobody sends a `senderId` of another account. -/
def Honest (l : Moment × BackendEvent) : Prop :=
  ∀ client data, l.2 = .socket client (.send data) →
    (Obj.spread data).get "senderId" = none ∨ (Obj.spread data).get "senderId" = some (.str client.sub)

/-- What `c` has heard of the conversation with `w` since the state `s`. -/
def heard (s s' : Backend) (c : SocketWithAuth) (w : String) : List DirectMessage :=
  ((s'.received c).drop (s.received c).length).filter (exchanged c.sub w)

/-- A post shows its sender. -/
def Shown (e : PubSub.Event SocketWithAuth String Post) : Prop :=
  ∀ room p, e.published = some (room, p) → p.2.senderId = p.1.sub

section Posts

variable {env : BackendEnv} {s s' : Backend} {l : Moment × BackendEvent} {events : List (Moment × BackendEvent)}
  {c : SocketWithAuth} {w : String}

theorem pubsub_shown (h : Honest l) : ∀ e ∈ pubsub env s l, Shown e := by
  intro e he room p hp
  obtain ⟨m, data, db, rfl, hm, -⟩ := pubsub_publish he hp
  have hsender := (stored_message hm).1
  rcases h p.1 data rfl with hdata | hdata
  · rw [hdata] at hsender
    exact (Json.str.inj (Option.some.inj hsender)).symm
  · rw [hdata] at hsender
    exact (Json.str.inj (Option.some.inj hsender)).symm

theorem posts_shown (h : ∀ l ∈ events, Honest l) : ∀ p ∈ posts env s events, p.2.senderId = p.1.sub := by
  have hshown : ∀ e ∈ outputs (step env) (pubsub env) s events, Shown e :=
    outputs_inv (I := fun _ => True) (fun _ _ _ _ _ _ => trivial) (fun t l t' _ hl _ => pubsub_shown hl) trivial
      (along_of_mem s h)
  intro p hp
  obtain ⟨x, hx, rfl⟩ := List.mem_map.mp hp
  obtain ⟨e, he, hpublished⟩ := List.mem_filterMap.mp hx
  exact hshown e he x.1 x.2 hpublished

/-- The conversation of a post that shows its sender. -/
theorem exchanged_iff {a : String} {p : Post} (h : p.2.senderId = p.1.sub) :
    exchanged a w p.2 = true ↔ Between a w p := by
  simp only [exchanged, Between, h, Sym2.eq_iff, Bool.or_eq_true, Bool.and_eq_true, decide_eq_true_eq]

/-- The messages of a conversation among the posts. -/
theorem filter_exchanged {a : String} {L : List Post} (h : ∀ p ∈ L, p.2.senderId = p.1.sub) :
    (L.map Prod.snd).filter (exchanged a w) = (L.filter fun p => Between a w p).map Prod.snd := by
  rw [List.filter_map]
  refine congrArg (List.map Prod.snd) (List.filter_congr fun p hp => ?_)
  rw [Function.comp_apply, Bool.eq_iff_iff, decide_eq_true_eq]
  exact exchanged_iff (h p hp)

end Posts

/-- **Listening is as good as reading again.** Take any part of a run in which no token is forged, ids have their
lengths and nobody sends a `senderId` of another account. For a socket that stays in a conversation, the conversation
grows by what the socket hears of it, in this order. So the pages that it reads at the end are, up to the order of the
queries, those that it has read at the beginning and what it has heard since, when their boundaries are clear. -/
theorem live_history (env : BackendEnv) (before events : List (Moment × BackendEvent)) (s s' : Backend)
    (hunforged : Along (step env) (Unforged env) start (before ++ events)) (hsized : ∀ l ∈ before ++ events, Sized l)
    (hhonest : ∀ l ∈ events, Honest l) (hbefore : run (step env) start before = some s)
    (hevents : run (step env) s events = some s') (c : SocketWithAuth) (w : String) (hw : w.length = 36)
    (hin : s.InRoom env c w) (hstays : ∀ l ∈ events, ¬Leaves env c w l) :
    messagesBetween s'.server.db c.sub w = messagesBetween s.server.db c.sub w ++ s.heard s' c w ∧
      ∀ (take : Nat) (orders orders' : Nat → List DirectMessage → List DirectMessage) (out out' : List DirectMessage),
        0 < take → (∀ i, OrdersByCreatedAt (orders i)) → (∀ i, OrdersByCreatedAt (orders' i)) →
        ClearBoundaries s.server.db c.sub w take → ClearBoundaries s'.server.db c.sub w take →
        WalkOf orders s.server.db c.sub w take out → WalkOf orders' s'.server.db c.sub w take out' →
        out'.Perm (out ++ s.heard s' c w) := by
  obtain ⟨hkept, hnamed⟩ := run_named hunforged hsized hbefore
  have hmirrors := mirrors_run hkept.nodup hevents
  have hshown : ∀ p ∈ posts env s events, p.2.senderId = p.1.sub := posts_shown hhonest
  have hheard : s.heard s' c w = ((posts env s events).filter fun p => Between c.sub w p).map Prod.snd := by
    rw [heard, hmirrors.received_deliveries, List.drop_left,
      filter_exchanged fun p hp => hshown p (deliveries_sublist.subset hp), deliveries_stays hnamed hw hin hstays]
  have hgrows : messagesBetween s'.server.db c.sub w = messagesBetween s.server.db c.sub w ++ s.heard s' c w := by
    rw [messagesBetween, hmirrors.stored_posts, List.filter_append, filter_exchanged hshown, hheard]
    rfl
  refine ⟨hgrows, fun take orders orders' out out' ht ho ho' hclear hclear' hwalk hwalk' => ?_⟩
  have hout := Paging.walk_perm (fun i => ho i _) ht hclear.clear ((walkOf_iff ho hclear.begin_at).mp hwalk)
  have hout' := Paging.walk_perm (fun i => ho' i _) ht hclear'.clear ((walkOf_iff ho' hclear'.begin_at).mp hwalk')
  exact hout'.trans (hgrows ▸ (hout.append_right (s.heard s' c w)).symm)

/-- alice hears her own note, which is all there is to read. -/
theorem live_history_sample : messagesBetween withNote.server.db aliceId aliceId =
    messagesBetween withSocket.server.db aliceId aliceId ++ withSocket.heard withNote aliceSocket aliceId := by
  refine (live_history sampleEnv (aliceComes ++ [aliceConnects, aliceJoins]) [aliceWrites] withSocket withNote
    aliceWrites_unforged aliceWrites_sized (fun l hl => ?_) withSocket_run withNote_run aliceSocket aliceId (by decide)
    List.mem_cons_self fun l hl => ?_).1
  · rw [List.mem_singleton.mp hl]
    intro client data hsend
    cases hsend
    exact Or.inl rfl
  · rw [List.mem_singleton.mp hl]
    rintro (h | ⟨t, h, -⟩)
    · cases h
    · cases h

end Backend

end DiscordClone
