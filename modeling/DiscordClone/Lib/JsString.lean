import Mathlib.Data.List.Lex
import Mathlib.Data.List.Sort
import Mathlib.Data.Sym.Sym2

/-!
# Strings as JavaScript orders and joins them

- `utf16` is the list of the code units of a string; `Array.prototype.sort` compares strings by it (`sort`).
- `join` is `Array.prototype.join`.
- A sorted and joined pair depends on the unordered pair only (`sort_pair_comm`), and when both strings have one known
  length the unordered pair can be read back off it, whatever separator characters they contain (`join_sort_inj`).
- When one of the strings is known and its separators stand unevenly, the other one can be read back off it, whatever
  it is (`join_sort_inj_right`).
-/

namespace JsString

/-- The code units of a character. -/
def units (c : Char) : List Nat :=
  if c.toNat < 0x10000 then [c.toNat]
  else [0xD800 + (c.toNat - 0x10000) / 0x400, 0xDC00 + (c.toNat - 0x10000) % 0x400]

/-- The code units of a string. -/
def utf16 (s : String) : List Nat := s.toList.flatMap units

/-- `strings.sort()`. -/
def sort (strings : List String) : List String := strings.insertionSort fun s t => utf16 s ≤ utf16 t

/-- `strings.join(separator)`. -/
def join (separator : String) : List String → String
  | [] => ""
  | [s] => s
  | s :: strings => s ++ separator ++ join separator strings

/-! ## The order -/

/-- A character is no surrogate. -/
theorem toNat_cases (c : Char) : c.toNat < 0xD800 ∨ 0xDFFF < c.toNat ∧ c.toNat < 0x110000 := c.valid

/-- The code units of a character tell where they end. -/
theorem units_append_inj {c d : Char} {l l' : List Nat} (h : units c ++ l = units d ++ l') : c = d ∧ l = l' := by
  have hc := toNat_cases c
  have hd := toNat_cases d
  have hval : c.toNat = d.toNat ∧ l = l' := by
    unfold units at h
    split_ifs at h
    · simpa using h
    · -- a character below 0x10000 is no high surrogate
      simp at h
      omega
    · simp at h
      omega
    · simp only [List.cons_append, List.nil_append, List.cons.injEq] at h
      obtain ⟨h₁, h₂, h₃⟩ := h
      exact ⟨by omega, h₃⟩
  exact ⟨Char.toNat_inj.mp hval.1, hval.2⟩

theorem units_ne_nil (c : Char) : units c ≠ [] := by
  unfold units
  split_ifs <;> simp

theorem flatMap_units_inj : ∀ {l l' : List Char}, l.flatMap units = l'.flatMap units → l = l'
  | [], [], _ => rfl
  | [], d :: l', h => by simp [units_ne_nil] at h
  | c :: l, [], h => by simp [units_ne_nil] at h
  | c :: l, d :: l', h => by
    obtain ⟨hcd, hl⟩ := units_append_inj (by simpa using h)
    rw [hcd, flatMap_units_inj hl]

theorem utf16_injective : Function.Injective utf16 := fun _ _ h => String.toList_injective (flatMap_units_inj h)

/-! ## Sorted pairs -/

theorem sort_pair (s t : String) : sort [s, t] = if utf16 s ≤ utf16 t then [s, t] else [t, s] := by
  simp [sort, List.insertionSort, List.orderedInsert]

/-- Sorting forgets the order of a pair. -/
theorem sort_pair_comm (s t : String) : sort [s, t] = sort [t, s] := by
  rw [sort_pair, sort_pair]
  rcases lt_trichotomy (utf16 s) (utf16 t) with h | h | h
  · rw [if_pos h.le, if_neg (not_le.mpr h)]
  · rw [utf16_injective h]
  · rw [if_neg (not_le.mpr h), if_pos h.le]

/-- A sorted pair is the pair in one of its orders. -/
theorem sort_pair_cases (s t : String) : sort [s, t] = [s, t] ∨ sort [s, t] = [t, s] := by
  rw [sort_pair]
  split_ifs
  · exact Or.inl rfl
  · exact Or.inr rfl

theorem join_pair (sep s t : String) : join sep [s, t] = s ++ sep ++ t := rfl

theorem length_join_sort (sep s t : String) :
    (join sep (sort [s, t])).length = s.length + sep.length + t.length := by
  rcases sort_pair_cases s t with h | h
  · rw [h, join_pair, String.length_append, String.length_append]
  · rw [h, join_pair, String.length_append, String.length_append]
    omega

/-- A joined pair of known lengths can be taken apart. -/
theorem join_pair_inj {sep s t s' t' : String} (hs : s.length = s'.length) (h : join sep [s, t] = join sep [s', t']) :
    s = s' ∧ t = t' := by
  have hlist : s.toList ++ (sep.toList ++ t.toList) = s'.toList ++ (sep.toList ++ t'.toList) := by
    simpa [join_pair, List.append_assoc] using congrArg String.toList h
  have hlen : s.toList.length = s'.toList.length := by rwa [String.length_toList, String.length_toList]
  obtain ⟨h₁, h₂⟩ := List.append_inj hlist hlen
  exact ⟨String.toList_injective h₁, String.toList_injective (List.append_cancel_left h₂)⟩

/-- **Names of pairs do not collide**: strings of one length that are sorted and joined alike are the same unordered
pair. -/
theorem join_sort_inj {sep s t s' t' : String} {n : Nat} (hs : s.length = n) (ht : t.length = n) (hs' : s'.length = n)
    (ht' : t'.length = n) (h : join sep (sort [s, t]) = join sep (sort [s', t'])) : s(s, t) = s(s', t') := by
  rcases sort_pair_cases s t with h₁ | h₁ <;> rcases sort_pair_cases s' t' with h₂ | h₂ <;> rw [h₁, h₂] at h
  · obtain ⟨rfl, rfl⟩ := join_pair_inj (hs.trans hs'.symm) h
    rfl
  · obtain ⟨rfl, rfl⟩ := join_pair_inj (hs.trans ht'.symm) h
    exact Sym2.eq_swap
  · obtain ⟨rfl, rfl⟩ := join_pair_inj (ht.trans hs'.symm) h
    exact Sym2.eq_swap
  · obtain ⟨rfl, rfl⟩ := join_pair_inj (ht.trans ht'.symm) h
    rfl

/-- The unordered pair decides the name. -/
theorem join_sort_congr {sep s t s' t' : String} (h : s(s, t) = s(s', t')) :
    join sep (sort [s, t]) = join sep (sort [s', t']) := by
  rcases Sym2.eq_iff.mp h with ⟨rfl, rfl⟩ | ⟨rfl, rfl⟩
  · rfl
  · rw [sort_pair_comm]

/-- A string is no larger than one that it begins. -/
theorem utf16_le_append (s : String) (l : List Char) : utf16 s ≤ utf16 (s ++ String.ofList l) := by
  have happend : utf16 (s ++ String.ofList l) = utf16 s ++ l.flatMap units := by
    simp [utf16]
  rw [happend]
  exact not_lt.mp fun h => List.le_append_left (α := Nat) h

/-- Strings that are sorted and joined alike with `s` are equal, when no separator in `s` is followed by `s` again. -/
theorem join_sort_inj_right {sep : Char} {s t u : String}
    (hs : ∀ n, s.toList[n]? = some sep → ∃ m, n + 1 + m < s.length ∧ s.toList[m]? ≠ s.toList[n + 1 + m]?)
    (h : join sep.toString (sort [s, t]) = join sep.toString (sort [s, u])) : t = u := by
  -- the two names are sorted differently
  have hcross : ∀ {t u : String}, utf16 u ≤ utf16 s →
      join sep.toString [s, t] = join sep.toString [u, s] → t = u := by
    intro t u hle h
    have hlist : s.toList ++ sep :: t.toList = u.toList ++ sep :: s.toList := by
      simpa [join_pair, List.append_assoc] using congrArg String.toList h
    rcases List.append_eq_append_iff.mp hlist with ⟨r, hu, hr⟩ | ⟨r, hsu, hr⟩
    · have hu' : u = s ++ String.ofList r := String.toList_injective (by simpa using hu)
      have heq : u = s := utf16_injective (le_antisymm hle (hu' ▸ utf16_le_append s r))
      rw [heq, List.self_eq_append_right] at hu
      rw [hu, List.nil_append, List.cons.injEq] at hr
      rw [heq]
      exact String.toList_injective hr.2
    · cases r with
      | nil =>
        have heq : s = u := String.toList_injective (by simpa using hsu)
        have ht : s = t := String.toList_injective (by simpa using hr)
        rw [← ht, heq]
      | cons c r =>
        rw [List.cons_append, List.cons.injEq] at hr
        obtain ⟨rfl, hst⟩ := hr
        have hsep : s.toList[u.toList.length]? = some sep := by
          rw [hsu]
          simp
        obtain ⟨m, hm, hne⟩ := hs _ hsep
        have hlen : s.length = u.toList.length + (r.length + 1) := by
          rw [← String.length_toList, hsu, List.length_append, List.length_cons]
        have hleft : s.toList[m]? = r[m]? := by
          rw [hst, List.getElem?_append_left (by omega)]
        have hright : s.toList[u.toList.length + 1 + m]? = r[m]? := by
          rw [hsu, List.getElem?_append_right (by omega),
            show u.toList.length + 1 + m - u.toList.length = m + 1 by omega, List.getElem?_cons_succ]
        exact absurd (hleft.trans hright.symm) hne
  rw [sort_pair, sort_pair] at h
  split_ifs at h with ht hu hu
  · exact (join_pair_inj rfl h).2
  · exact hcross (le_of_not_ge hu) h
  · exact (hcross (le_of_not_ge ht) h.symm).symm
  · have hlen := congrArg String.length h
    rw [join_pair, join_pair] at hlen
    simp only [String.length_append] at hlen
    exact (join_pair_inj (by omega) h).1

end JsString
