import Mathlib.Data.List.Nodup
import DiscordClone.User.Actionable

/-!
# The relationship views of the two sides

Friends and blocked users are selected by the account's own row, requests by the row of the other side, and
`inRelationshipWith` is always read from the own row. Over a table whose rows match, the three readings are one.

- `row_of_friend` and its siblings: the own row of everybody on a list has the status of that list (`ownLists`).
- `views_agree`: after every run by ACTIVE callers the lists of two accounts agree.
-/

namespace DiscordClone

open Transaction Relationships

/-- The lists of an account on their own. -/
structure OwnLists (db : Database) (a : String) : Prop where
  /-- No list holds an account twice, and no account is on two lists. -/
  nodup : (friendIds db a ++ incomingIds db a ++ outgoingIds db a ++ blockedIds db a).Nodup
  friends : ∃ users, UserService.getFriends db a = .ok users ∧
    ∀ u ∈ users, u.inRelationshipWith = some ⟨a, u.id, .FRIEND⟩
  requests : ∃ users, UserService.getPendingFriendRequest db a = .ok users ∧
    (∀ u ∈ users.incomingRequests, u.inRelationshipWith = some ⟨a, u.id, .PENDING⟩) ∧
    ∀ u ∈ users.outgoingRequests, u.inRelationshipWith = some ⟨a, u.id, .REQUESTING⟩
  blocked : ∃ users, UserService.getBlockedUsers db a = .ok users ∧
    ∀ u ∈ users, u.inRelationshipWith = some ⟨a, u.id, .BLOCKED⟩

section Lists

variable {db : Database} {a b : String}

/-! ## The own rows -/

/-- An entry shows the own row. -/
theorem toRelatedUser_row {rel : Relationships} {e : Account} {s : RelationshipStatus} (h : rel (a, e.id) = some s) :
    (toRelatedUser rel a e).inRelationshipWith = some ⟨a, e.id, s⟩ := by
  simp only [toRelatedUser, relationshipWith, h, Option.toList_some, List.map_cons, List.map_nil]

theorem row_of_friend (ha : db.accounts.Registered a) (hb : b ∈ friendIds db a) :
    db.relationships (a, b) = some .FRIEND := ((mem_friendIds ha).mp hb).2

theorem row_of_blocked (ha : db.accounts.Registered a) (hb : b ∈ blockedIds db a) :
    db.relationships (a, b) = some .BLOCKED := ((mem_blockedIds ha).mp hb).2

theorem row_of_incoming (h : WellPaired db.relationships) (ha : db.accounts.Registered a) (hb : b ∈ incomingIds db a) :
    db.relationships (a, b) = some .PENDING := by
  obtain ⟨-, hq⟩ := (mem_incomingIds ha).mp hb
  exact h.matched hq (by decide)

theorem row_of_outgoing (h : WellPaired db.relationships) (ha : db.accounts.Registered a) (hb : b ∈ outgoingIds db a) :
    db.relationships (a, b) = some .REQUESTING := by
  obtain ⟨-, hq⟩ := (mem_outgoingIds ha).mp hb
  exact h.matched hq (by decide)

/-- Lists whose own rows have different statuses have nobody in common. -/
theorem disjoint_of_rows {rel : Relationships} {l l' : List String} {s s' : RelationshipStatus} (hne : s ≠ s')
    (h : ∀ b ∈ l, rel (a, b) = some s) (h' : ∀ b ∈ l', rel (a, b) = some s') : l.Disjoint l' := by
  intro b hb hb'
  have hs := (h b hb).symm.trans (h' b hb')
  exact hne (Option.some.inj hs)

/-- **Over a table whose rows match, the lists of an account are disjoint and show its own rows.** -/
theorem ownLists (h : WellPaired db.relationships) (ha : db.accounts.Registered a) : OwnLists db a := by
  have hf : ∀ b ∈ friendIds db a, db.relationships (a, b) = some .FRIEND := fun b => row_of_friend ha
  have hi : ∀ b ∈ incomingIds db a, db.relationships (a, b) = some .PENDING := fun b => row_of_incoming h ha
  have ho : ∀ b ∈ outgoingIds db a, db.relationships (a, b) = some .REQUESTING := fun b => row_of_outgoing h ha
  have hb : ∀ b ∈ blockedIds db a, db.relationships (a, b) = some .BLOCKED := fun b => row_of_blocked ha
  constructor
  case nodup =>
    have hfi := disjoint_of_rows (by decide) hf hi
    have hfo := disjoint_of_rows (by decide) hf ho
    have hfb := disjoint_of_rows (by decide) hf hb
    have hio := disjoint_of_rows (by decide) hi ho
    have hib := disjoint_of_rows (by decide) hi hb
    have hob := disjoint_of_rows (by decide) ho hb
    have hn₁ : (friendIds db a).Nodup := by rw [friendIds_eq ha]; exact select_nodup _ _
    have hn₂ : (incomingIds db a).Nodup := by rw [incomingIds_eq ha]; exact select_nodup _ _
    have hn₃ : (outgoingIds db a).Nodup := by rw [outgoingIds_eq ha]; exact select_nodup _ _
    have hn₄ : (blockedIds db a).Nodup := by rw [blockedIds_eq ha]; exact select_nodup _ _
    refine ((hn₁.append hn₂ hfi).append hn₃ ?_).append hn₄ ?_
    · exact List.disjoint_append_left.mpr ⟨hfo, hio⟩
    · exact List.disjoint_append_left.mpr ⟨List.disjoint_append_left.mpr ⟨hfb, hib⟩, hob⟩
  all_goals obtain ⟨e, he, rfl⟩ := findFirst_self ha
  case friends =>
    refine ⟨_, by simp only [UserService.getFriends, he]; rfl, fun u hu => ?_⟩
    obtain ⟨x, hx, rfl⟩ := List.mem_map.mp hu
    obtain ⟨-, hr⟩ := List.mem_filter.mp hx
    rw [Bool.and_eq_true, decide_eq_true_eq, decide_eq_true_eq] at hr
    exact toRelatedUser_row hr.2
  case blocked =>
    refine ⟨_, by simp only [UserService.getBlockedUsers, he]; rfl, fun u hu => ?_⟩
    obtain ⟨x, hx, rfl⟩ := List.mem_map.mp hu
    obtain ⟨-, hr⟩ := List.mem_filter.mp hx
    rw [Bool.and_eq_true, decide_eq_true_eq, decide_eq_true_eq] at hr
    exact toRelatedUser_row hr.2
  case requests =>
    refine ⟨_, by simp only [UserService.getPendingFriendRequest, he]; rfl, fun u hu => ?_, fun u hu => ?_⟩
    · obtain ⟨x, hx, rfl⟩ := List.mem_map.mp hu
      obtain ⟨-, hr⟩ := List.mem_filter.mp hx
      exact toRelatedUser_row (h.matched (of_decide_eq_true hr) (by decide))
    · obtain ⟨x, hx, rfl⟩ := List.mem_map.mp hu
      obtain ⟨-, hr⟩ := List.mem_filter.mp hx
      exact toRelatedUser_row (h.matched (of_decide_eq_true hr) (by decide))

/-! ## The two sides -/

/-- A request is incoming on one side when it is outgoing on the other. -/
theorem incoming_iff_outgoing (h : WellPaired db.relationships) (ha : db.accounts.Registered a)
    (hb : db.accounts.Registered b) : b ∈ incomingIds db a ↔ a ∈ outgoingIds db b := by
  rw [mem_incomingIds ha, mem_outgoingIds hb]
  constructor
  · rintro ⟨-, hq⟩
    exact ⟨ha, h.matched hq (by decide)⟩
  · rintro ⟨-, hp⟩
    exact ⟨hb, h.matched hp (by decide)⟩

/-- Friends are friends of each other: both rows are of ACTIVE accounts. -/
theorem friend_iff_friend (h : Parties db.accounts db.relationships) (ha : db.accounts.Registered a)
    (hb : db.accounts.Registered b) : b ∈ friendIds db a ↔ a ∈ friendIds db b := by
  rw [mem_friendIds ha, mem_friendIds hb]
  constructor
  · rintro ⟨-, hp⟩
    exact ⟨h.active hp (by decide), h.wellPaired.matched hp (by decide)⟩
  · rintro ⟨-, hq⟩
    exact ⟨h.active hq (by decide), h.wellPaired.matched hq (by decide)⟩

end Lists

/-- **The relationship views of the two sides agree.** From a database without relationships, after any run of
operations by ACTIVE callers, with registrations and verifications in between: the lists of every account are disjoint,
repeat nobody and show the own row with the status of the list, an incoming request of one account is an outgoing one of
the other, and friends are friends of each other. -/
theorem views_agree (db₀ db : Database) (ops : List Operation) (h₀ : db₀.relationships = noRelationships)
    (hcallers : Machine.Along Database.operate (fun db o => o.ByActive db) db₀ ops)
    (hrun : Machine.run Database.operate db₀ ops = some db) :
    (∀ a, db.accounts.Registered a → OwnLists db a) ∧
    ∀ a b, db.accounts.Registered a → db.accounts.Registered b → a ≠ b →
      (b ∈ incomingIds db a ↔ a ∈ outgoingIds db b) ∧ (b ∈ friendIds db a ↔ a ∈ friendIds db b) := by
  have hp₀ : Parties db₀.accounts db₀.relationships := by
    rw [h₀]
    exact parties_without db₀.accounts
  have hp := parties_run hp₀ hcallers hrun
  refine ⟨fun a ha => ownLists hp.wellPaired ha, fun a b ha hb _ => ⟨?_, ?_⟩⟩
  · exact incoming_iff_outgoing hp.wellPaired ha hb
  · exact friend_iff_friend hp ha hb

/-- alice, bob and carol, who know nobody. -/
def strangers : Database := ⟨activeAccounts, fun _ => none, [], noRelationships, []⟩

/-- alice asks bob, and carol asks alice, who accepts. -/
def aliceMeetsBobAndCarol : List Operation :=
  [.relationship (.sendFriendRequest "alice" { targetUsername := some "bob" }),
    .relationship (.sendFriendRequest "carol" { targetUsername := some "alice" }),
    .relationship (.feedbackFriendRequest .accept "alice" "carol")]

/-- bob sees the request of alice that she sees, and alice and carol are friends of each other. -/
theorem views_agree_sample :
    ∃ db, Machine.run Database.operate strangers aliceMeetsBobAndCarol = some db ∧ OwnLists db "alice" ∧
      friendIds db "alice" = ["carol"] ∧ "alice" ∈ friendIds db "carol" ∧
      outgoingIds db "alice" = ["bob"] ∧ "alice" ∈ incomingIds db "bob" := by
  have h := views_agree strangers _ aliceMeetsBobAndCarol rfl (by decide) rfl
  refine ⟨_, rfl, h.1 "alice" (by decide), by decide, ?_, by decide, ?_⟩
  · exact (h.2 "alice" "carol" (by decide) (by decide) (by decide)).2.mp (by decide)
  · exact (h.2 "bob" "alice" (by decide) (by decide) (by decide)).1.mpr (by decide)

end DiscordClone
