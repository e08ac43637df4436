import Mathlib.Data.List.Sort
import Mathlib.Data.List.Nodup

/-!
# Paging by offset through an order with ties

A query orders the rows of a table by a key, from high to low, and answers with `take` of them after an offset. Rows of
equal keys come in an order that the next query may change (`Answer`).

- `Walk`: the pages up to the first empty one, one after the other.
- `Clear`: no two rows of equal keys stand on the two sides of a page boundary.
- `walk_perm`: between clear boundaries a walk is a rearrangement of the table, whatever orders the queries choose, and
  `walk_repeats`: across a boundary that is not clear they can choose to repeat a row. The keys come out in order in any
  case (`walk_keys`).
- `starts_exact`: windows with other offsets that give every row once have the offsets of the pages.
-/

namespace Paging

variable {α κ : Type} [LinearOrder κ] {key : α → κ}

/-- An answer to a query for the rows by descending key. -/
structure Answer (key : α → κ) (rows order : List α) : Prop where
  perm : order.Perm rows
  sorted : order.Pairwise fun x y => key y ≤ key x

/-- The page of an answer with this number, from 0. -/
def page (take : Nat) (order : List α) (i : Nat) : List α := (order.drop (take * i)).take take

/-- The first pages, one after the other. -/
def concat (pages : Nat → List α) (k : Nat) : List α := (List.range k).flatMap pages

/-- The pages up to the first empty one. -/
def Walk (pages : Nat → List α) (out : List α) : Prop :=
  ∃ k, (∀ i < k, pages i ≠ []) ∧ pages k = [] ∧ out = concat pages k

/-- The keys from high to low. -/
def sortedKeys (key : α → κ) (rows : List α) : List κ := (rows.map key).insertionSort (· ≥ ·)

/-- Different keys stand on the two sides of every page boundary. -/
def Clear (take : Nat) (keys : List κ) : Prop :=
  ∀ j < keys.length, 0 < j → take ∣ j → keys[j - 1]? ≠ keys[j]?

instance (take : Nat) (keys : List κ) : Decidable (Clear take keys) :=
  inferInstanceAs (Decidable (∀ j < keys.length, 0 < j → take ∣ j → keys[j - 1]? ≠ keys[j]?))

/-! ## Answers -/

theorem sortedKeys_sorted (key : α → κ) (rows : List α) : (sortedKeys key rows).Pairwise fun x y => y ≤ x :=
  List.pairwise_insertionSort (· ≥ ·) (rows.map key)

variable {rows order order' : List α} {take : Nat}

/-- The keys of an answer are those of the table, from high to low. -/
theorem Answer.map_key (h : Answer key rows order) : order.map key = sortedKeys key rows := by
  have hperm : (order.map key).Perm (sortedKeys key rows) :=
    (h.perm.map key).trans (List.perm_insertionSort _ _).symm
  have hsorted : (order.map key).Pairwise fun x y => y ≤ x := List.pairwise_map.mpr h.sorted
  exact hperm.eq_of_pairwise (fun a b _ _ hab hba => le_antisymm hba hab) hsorted (sortedKeys_sorted key rows)

theorem Answer.length (h : Answer key rows order) : order.length = (sortedKeys key rows).length := by
  rw [← h.map_key, List.length_map]

/-- The key of a row of an answer, by its place. -/
theorem Answer.getElem_key (h : Answer key rows order) {i : Nat} {x : α} (hx : order[i]? = some x) :
    (sortedKeys key rows)[i]? = some (key x) := by
  rw [← h.map_key, List.getElem?_map, hx, Option.map_some]

/-- Rows in another order with the same keys are an answer too. -/
theorem Answer.of_perm (h : Answer key rows order) (hp : order'.Perm order) (hk : order'.map key = order.map key) :
    Answer key rows order' where
  perm := hp.trans h.perm
  sorted := by
    have hs : (order'.map key).Pairwise fun x y => y ≤ x := by
      rw [hk]
      exact List.pairwise_map.mpr h.sorted
    exact List.pairwise_map.mp hs

/-- There is an answer. -/
theorem answer_exists (key : α → κ) (rows : List α) : ∃ order, Answer key rows order := by
  let r : α → α → Bool := fun x y => decide (key y ≤ key x)
  have htrans : ∀ x y z, r x y = true → r y z = true → r x z = true := fun x y z hxy hyz =>
    decide_eq_true ((of_decide_eq_true hyz).trans (of_decide_eq_true hxy))
  have htotal : ∀ x y, (r x y || r y x) = true := fun x y => by simpa [r] using le_total (key y) (key x)
  exact ⟨rows.mergeSort r, List.mergeSort_perm _ _, (List.pairwise_mergeSort htrans htotal rows).imp of_decide_eq_true⟩

/-! ## Clear boundaries -/

/-- Keys from high to low do not rise. -/
theorem le_of_sorted {keys : List κ} (h : keys.Pairwise fun x y => y ≤ x) {i j : Nat} {c d : κ} (hij : i ≤ j)
    (hc : keys[i]? = some c) (hd : keys[j]? = some d) : d ≤ c := by
  rcases hij.lt_or_eq with hlt | rfl
  · obtain ⟨hi, rfl⟩ := List.getElem?_eq_some_iff.mp hc
    obtain ⟨hj, rfl⟩ := List.getElem?_eq_some_iff.mp hd
    exact List.pairwise_iff_getElem.mp h i j hi hj hlt
  · cases hc.symm.trans hd
    exact le_refl _

/-- In front of a clear boundary stand the rows with a key at least as high as the last of them. -/
theorem Answer.take_eq_filter (h : Answer key rows order) {m : Nat} {c d : κ} (hm : 0 < m)
    (hc : (sortedKeys key rows)[m - 1]? = some c) (hd : (sortedKeys key rows)[m]? = some d) (hne : c ≠ d) :
    order.take m = order.filter fun x => decide (c ≤ key x) := by
  have hs := sortedKeys_sorted key rows
  have hdc : d < c := lt_of_le_of_ne (le_of_sorted hs (by omega) hc hd) (Ne.symm hne)
  have hfront : ∀ x ∈ order.take m, decide (c ≤ key x) = true := by
    intro x hx
    obtain ⟨i, hi⟩ := List.mem_iff_getElem?.mp hx
    have him : i < m := by
      by_contra hge
      rw [List.getElem?_take_eq_none (by omega)] at hi
      cases hi
    rw [List.getElem?_take_of_lt him] at hi
    exact decide_eq_true (le_of_sorted hs (by omega) (h.getElem_key hi) hc)
  have hback : ∀ x ∈ order.drop m, ¬decide (c ≤ key x) = true := by
    intro x hx
    obtain ⟨i, hi⟩ := List.mem_iff_getElem?.mp hx
    rw [List.getElem?_drop] at hi
    have hle : key x ≤ d := le_of_sorted hs (by omega) hd (h.getElem_key hi)
    simpa using lt_of_le_of_lt hle hdc
  have hsplit : order.filter (fun x => decide (c ≤ key x)) =
      (order.take m).filter (fun x => decide (c ≤ key x)) ++ (order.drop m).filter (fun x => decide (c ≤ key x)) := by
    rw [← List.filter_append, List.take_append_drop]
  rw [hsplit, List.filter_eq_self.mpr hfront, List.filter_eq_nil_iff.mpr hback, List.append_nil]

/-- Two answers have the same rows in front of a clear boundary. -/
theorem take_perm (h : Answer key rows order) (h' : Answer key rows order') {m : Nat}
    (hm : 0 < m → m < (sortedKeys key rows).length → (sortedKeys key rows)[m - 1]? ≠ (sortedKeys key rows)[m]?) :
    (order.take m).Perm (order'.take m) := by
  by_cases hpos : 0 < m
  · by_cases hlt : m < (sortedKeys key rows).length
    · have hc := List.getElem?_eq_getElem (l := sortedKeys key rows) (i := m - 1) (by omega)
      have hd := List.getElem?_eq_getElem hlt
      have hne : (sortedKeys key rows)[m - 1] ≠ (sortedKeys key rows)[m] := fun e => hm hpos hlt (by rw [hc, hd, e])
      rw [h.take_eq_filter hpos hc hd hne, h'.take_eq_filter hpos hc hd hne]
      exact (h.perm.trans h'.perm.symm).filter _
    · rw [List.take_of_length_le (by rw [h.length]; omega), List.take_of_length_le (by rw [h'.length]; omega)]
      exact h.perm.trans h'.perm.symm
  · have hzero : m = 0 := by omega
    subst hzero
    rw [List.take_zero, List.take_zero]

/-! ## Walks -/

section Walks

variable {orders : Nat → List α} {k : Nat}

theorem concat_succ (pages : Nat → List α) (k : Nat) : concat pages (k + 1) = concat pages k ++ pages k := by
  simp [concat, List.range_succ]

/-- A page is what one more page takes. -/
theorem take_succ (order : List α) (take k : Nat) :
    order.take (take * (k + 1)) = order.take (take * k) ++ page take order k := by
  rw [Nat.mul_succ, List.take_add, page]

/-- Windows of rows without repeats are equal at one offset only, or behind the end. -/
theorem window_inj (h : rows.Nodup) (ht : 0 < take) {i j : Nat} :
    (rows.drop i).take take = (rows.drop j).take take ↔ i = j ∨ rows.length ≤ i ∧ rows.length ≤ j := by
  constructor
  · intro heq
    have hhead : rows[i]? = rows[j]? := by
      have hzero := congrArg (fun w : List α => w[0]?) heq
      simpa [List.getElem?_take_of_lt ht, List.getElem?_drop] using hzero
    by_cases hi : i < rows.length
    · exact Or.inl ((List.getElem?_inj hi h).mp hhead)
    · rw [List.getElem?_eq_none (by omega), eq_comm, List.getElem?_eq_none_iff] at hhead
      exact Or.inr ⟨by omega, hhead⟩
  · rintro (rfl | ⟨hi, hj⟩)
    · rfl
    · rw [List.drop_eq_nil_of_le hi, List.drop_eq_nil_of_le hj]

/-- Beyond the end it does not matter where a window begins. -/
theorem window_congr {i j : Nat} (h : min i rows.length = min j rows.length) :
    (rows.drop i).take take = (rows.drop j).take take := by
  rcases (by omega : i = j ∨ rows.length ≤ i ∧ rows.length ≤ j) with rfl | ⟨hi, hj⟩
  · rfl
  · rw [List.drop_eq_nil_of_le hi, List.drop_eq_nil_of_le hj]

/-- A row without repeats stands in a window when its place does. -/
theorem mem_window (h : rows.Nodup) {i j : Nat} {x : α} (hx : rows[j]? = some x) :
    x ∈ (rows.drop i).take take ↔ i ≤ j ∧ j < i + take := by
  obtain ⟨hj, -⟩ := List.getElem?_eq_some_iff.mp hx
  constructor
  · intro hmem
    obtain ⟨k, hk⟩ := List.mem_iff_getElem?.mp hmem
    have hlt : k < take := by
      by_contra hge
      rw [List.getElem?_take_eq_none (by omega)] at hk
      cases hk
    rw [List.getElem?_take_of_lt hlt, List.getElem?_drop, ← hx] at hk
    have hkj : i + k = j := ((List.getElem?_inj hj h).mp hk.symm).symm
    omega
  · rintro ⟨hlo, hhi⟩
    refine List.mem_of_getElem? (i := j - i) ?_
    rw [List.getElem?_take_of_lt (by omega), List.getElem?_drop, Nat.add_sub_cancel' hlo, hx]

theorem page_eq_nil (ht : 0 < take) : page take order k = [] ↔ order.length ≤ take * k := by
  rw [page, List.take_eq_nil_iff, List.drop_eq_nil_iff]
  omega

/-- Whatever the queries choose, the keys of the first pages are the first keys. -/
theorem concat_keys (h : ∀ i, Answer key rows (orders i)) (k : Nat) :
    (concat (fun i => page take (orders i) i) k).map key = (sortedKeys key rows).take (take * k) := by
  induction k with
  | zero => rfl
  | succ k ih =>
    rw [concat_succ, List.map_append, ih, page, List.map_take, List.map_drop, (h k).map_key, Nat.mul_succ,
      List.take_add]

/-- Between clear boundaries the first pages are the first rows of any answer. -/
theorem concat_perm (h : ∀ i, Answer key rows (orders i)) (hclear : Clear take (sortedKeys key rows)) (k : Nat)
    (ho : Answer key rows order) :
    (concat (fun i => page take (orders i) i) k).Perm (order.take (take * k)) := by
  induction k generalizing order with
  | zero => exact List.Perm.refl _
  | succ k ih =>
    have hfirst := (ih (h k)).append_right (page take (orders k) k)
    rw [← take_succ] at hfirst
    rw [concat_succ]
    exact hfirst.trans (take_perm (h k) ho fun hpos hlt => hclear _ hlt hpos (Nat.dvd_mul_right take (k + 1)))

/-- A walk ends behind the last row. -/
theorem walk_length (h : ∀ i, Answer key rows (orders i)) (ht : 0 < take) {out : List α} :
    Walk (fun i => page take (orders i) i) out ↔
      ∃ k, (∀ i < k, take * i < (sortedKeys key rows).length) ∧ (sortedKeys key rows).length ≤ take * k ∧
        out = concat (fun i => page take (orders i) i) k := by
  have hnil : ∀ i, page take (orders i) i = [] ↔ (sortedKeys key rows).length ≤ take * i := fun i => by
    rw [page_eq_nil ht, (h i).length]
  refine exists_congr fun k => and_congr (forall₂_congr fun i _ => ?_) (and_congr_left fun _ => hnil k)
  rw [ne_eq, hnil, not_le]

/-- A walk comes to an end. -/
theorem walk_exists (h : ∀ i, Answer key rows (orders i)) (ht : 0 < take) :
    ∃ out, Walk (fun i => page take (orders i) i) out := by
  have hend : ∃ k, (sortedKeys key rows).length ≤ take * k :=
    ⟨(sortedKeys key rows).length, Nat.le_mul_of_pos_left _ ht⟩
  refine ⟨_, (walk_length h ht).mpr ⟨Nat.find hend, fun i hi => ?_, Nat.find_spec hend, rfl⟩⟩
  exact not_le.mp (Nat.find_min hend hi)

/-- The keys of a walk are the keys of the table, from high to low. -/
theorem walk_keys (h : ∀ i, Answer key rows (orders i)) (ht : 0 < take) {out : List α}
    (hw : Walk (fun i => page take (orders i) i) out) : out.map key = sortedKeys key rows := by
  obtain ⟨k, -, hend, rfl⟩ := (walk_length h ht).mp hw
  rw [concat_keys h, List.take_of_length_le hend]

/-- **Between clear boundaries a walk is a rearrangement of the table.** -/
theorem walk_perm (h : ∀ i, Answer key rows (orders i)) (ht : 0 < take) (hclear : Clear take (sortedKeys key rows))
    {out : List α} (hw : Walk (fun i => page take (orders i) i) out) : out.Perm rows := by
  obtain ⟨k, -, hend, rfl⟩ := (walk_length h ht).mp hw
  have hall := concat_perm h hclear k (h 0)
  rw [List.take_of_length_le (by rwa [(h 0).length])] at hall
  exact hall.trans (h 0).perm

/-- A row stands on a page when its place is between the boundaries of the page. -/
theorem mem_page {x : α} {j : Nat} (hx : order[j]? = some x) (hlo : take * k ≤ j) (hhi : j < take * (k + 1)) :
    x ∈ page take order k := by
  rw [Nat.mul_succ] at hhi
  refine List.mem_of_getElem? (i := j - take * k) ?_
  rw [page, List.getElem?_take_of_lt (by omega), List.getElem?_drop, Nat.add_sub_cancel' hlo, hx]

/-- A row on two pages comes twice. -/
theorem not_nodup_concat (pages : Nat → List α) {i j k : Nat} {x : α} (hij : i < j) (hjk : j < k)
    (hi : x ∈ pages i) (hj : x ∈ pages j) : ¬(concat pages k).Nodup := by
  intro hn
  have hdisj := (List.nodup_flatMap.mp hn).2
  have h := List.pairwise_iff_getElem.mp hdisj i j (by rw [List.length_range]; omega) (by rwa [List.length_range]) hij
  rw [List.getElem_range, List.getElem_range] at h
  exact h hi hj

/-- Windows of `take` places, one behind the other, that cover the places below `n` begin at the multiples of `take`. -/
theorem starts_tile {start : Nat → Nat} {n k : Nat} (hmono : ∀ i j, i ≤ j → min (start i) n ≤ min (start j) n)
    (hinside : ∀ i < k, start i < n) (hbehind : n ≤ start k)
    (hcover : ∀ j < n, ∃ i < k, start i ≤ j ∧ j < start i + take)
    (hapart : ∀ i, i + 1 < k → start i + take ≤ start (i + 1)) :
    ∀ i ≤ k, min (start i) n = min (take * i) n
  | 0, _ => by
    by_cases hpos : 0 < n
    · obtain ⟨i, -, hi, -⟩ := hcover 0 hpos
      have hle := hmono 0 i (Nat.zero_le i)
      omega
    · omega
  | i + 1, hi => by
    have hhere := starts_tile hmono hinside hbehind hcover hapart i (by omega)
    have hin := hinside i (by omega)
    -- the place behind this window is in no window up to this one
    have hnext : ∀ j < k, start j ≤ start i + take → start i + take < start j + take → i + 1 ≤ j := by
      intro j hj hlo hhi
      by_contra hji
      have hle := hmono j i (by omega)
      have hjin := hinside j hj
      omega
    rw [Nat.mul_succ]
    by_cases hlast : i + 1 < k
    · have hgap := hapart i hlast
      have hlt := hinside (i + 1) hlast
      obtain ⟨j, hj, hlo, hhi⟩ := hcover (start i + take) (by omega)
      have hle := hmono (i + 1) j (hnext j hj hlo hhi)
      omega
    · have hik : i + 1 = k := by omega
      rw [hik]
      by_contra hne
      obtain ⟨j, hj, hlo, hhi⟩ := hcover (start i + take) (by omega)
      have hij := hnext j hj hlo hhi
      omega

/-- **Windows that give every row once begin at the boundaries of the pages**, if no window begins before the one in
front of it. -/
theorem starts_exact {start : Nat → Nat} {out : List α} (ht : 0 < take) (hnodup : rows.Nodup)
    (hmono : ∀ i j, i ≤ j → min (start i) rows.length ≤ min (start j) rows.length)
    (hw : Walk (fun i => (rows.drop (start i)).take take) out) (hperm : out.Perm rows) (i : Nat) :
    min (start i) rows.length = min (take * i) rows.length := by
  obtain ⟨k, hfull, hend, rfl⟩ := hw
  have hn : (concat (fun i => (rows.drop (start i)).take take) k).Nodup := hperm.nodup_iff.mpr hnodup
  have hinside : ∀ i < k, start i < rows.length := fun i hi => by
    have hne := hfull i hi
    rw [ne_eq, List.take_eq_nil_iff, List.drop_eq_nil_iff] at hne
    omega
  have hbehind : rows.length ≤ start k := by
    rw [List.take_eq_nil_iff, List.drop_eq_nil_iff] at hend
    omega
  -- every place is in a window, and in one only
  have hcover : ∀ j < rows.length, ∃ i < k, start i ≤ j ∧ j < start i + take := fun j hj => by
    obtain ⟨i, hi, hmem⟩ := List.mem_flatMap.mp (hperm.mem_iff.mpr (List.getElem_mem hj))
    exact ⟨i, List.mem_range.mp hi, (mem_window hnodup (List.getElem?_eq_getElem hj)).mp hmem⟩
  have hapart : ∀ i, i + 1 < k → start i + take ≤ start (i + 1) := fun i hi => by
    have hlt := hinside (i + 1) hi
    have hle := hmono i (i + 1) (by omega)
    by_contra hge
    have hx := List.getElem?_eq_getElem hlt
    exact not_nodup_concat _ (Nat.lt_succ_self i) hi ((mem_window hnodup hx).mpr ⟨by omega, by omega⟩)
      ((mem_window hnodup hx).mpr ⟨le_refl _, by omega⟩) hn
  have hstart := starts_tile hmono hinside hbehind hcover hapart
  by_cases hik : i ≤ k
  · exact hstart i hik
  · have hk := hstart k (le_refl k)
    have hle := hmono k i (by omega)
    have hmul : take * k ≤ take * i := Nat.mul_le_mul_left take (by omega)
    omega

/-- Two neighbours with the same key may change places. -/
theorem answer_swap {u v : List α} {x y : α} (h : Answer key rows (u ++ x :: y :: v)) (hxy : key x = key y) :
    Answer key rows (u ++ y :: x :: v) :=
  h.of_perm ((List.Perm.swap x y v).append_left u) (by simp [hxy])

/-- One order up to a query, and another one from it on. -/
def exchange (q : Nat) (order order' : List α) (i : Nat) : List α := if i < q then order else order'

/-- **A tie across a boundary can come twice**: the queries up to the boundary answer in one order, and the others with
the two rows exchanged. -/
theorem walk_repeats (ht : 0 < take) (hnodup : rows.Nodup) (hclear : ¬Clear take (sortedKeys key rows)) :
    ∃ orders : Nat → List α, (∀ i, Answer key rows (orders i)) ∧
      ∀ out, Walk (fun i => page take (orders i) i) out → ¬out.Perm rows := by
  simp only [Clear, not_forall, not_not] at hclear
  obtain ⟨j, hlt, hpos, ⟨q, rfl⟩, heq⟩ := hclear
  obtain ⟨order, ho⟩ := answer_exists key rows
  have hq : 0 < q := Nat.pos_of_mul_pos_left hpos
  -- the two rows at the boundary
  have hlen : take * q < order.length := by rwa [ho.length]
  obtain ⟨u, w, hu, rfl⟩ : ∃ u w, u.length = take * q - 1 ∧ order = u ++ w :=
    ⟨order.take (take * q - 1), order.drop (take * q - 1), by rw [List.length_take]; omega,
      (List.take_append_drop _ _).symm⟩
  obtain ⟨x, y, v, rfl⟩ : ∃ x y v, w = x :: y :: v := by
    match w, hlen with
    | [], h | [_], h => simp at h; omega
    | x :: y :: v, _ => exact ⟨x, y, v, rfl⟩
  have hx : (u ++ x :: y :: v)[take * q - 1]? = some x := by simp [hu]
  have hy : (u ++ x :: y :: v)[take * q]? = some y := by
    rw [List.getElem?_append_right (by omega), hu, show take * q - (take * q - 1) = 1 by omega]
    rfl
  have hx' : (u ++ y :: x :: v)[take * q]? = some x := by
    rw [List.getElem?_append_right (by omega), hu, show take * q - (take * q - 1) = 1 by omega]
    rfl
  have hkey : key x = key y := by
    rw [ho.getElem_key hx, ho.getElem_key hy] at heq
    exact Option.some.inj heq
  have hans : ∀ i, Answer key rows (exchange q (u ++ x :: y :: v) (u ++ y :: x :: v) i) := fun i => by
    unfold exchange
    split
    · exact ho
    · exact answer_swap ho hkey
  refine ⟨_, hans, fun out hw hperm => ?_⟩
  obtain ⟨k, -, hend, rfl⟩ := (walk_length hans ht).mp hw
  have hqk : q < k := by
    by_contra hge
    have hle : take * k ≤ take * q := Nat.mul_le_mul_left take (not_lt.mp hge)
    omega
  have htq : take * (q - 1 + 1) = take * q := by rw [Nat.sub_add_cancel hq]
  have hlo : take * (q - 1) ≤ take * q - 1 := by
    rw [Nat.mul_sub_one]
    omega
  have hfirst : x ∈ page take (exchange q (u ++ x :: y :: v) (u ++ y :: x :: v) (q - 1)) (q - 1) := by
    rw [exchange, if_pos (by omega)]
    exact mem_page hx hlo (by omega)
  have hsecond : x ∈ page take (exchange q (u ++ x :: y :: v) (u ++ y :: x :: v) q) q := by
    rw [exchange, if_neg (by omega)]
    exact mem_page hx' (le_refl _) (by rw [Nat.mul_succ]; omega)
  have hpages := not_nodup_concat (fun i => page take (exchange q (u ++ x :: y :: v) (u ++ y :: x :: v) i) i)
    (Nat.sub_lt hq one_pos) hqk hfirst hsecond
  exact hpages (hperm.nodup_iff.mpr hnodup)

end Walks

end Paging
