import Mathlib.Data.Nat.Prime.Basic
import Mathlib.Algebra.Order.Ring.Int
import Mathlib.Algebra.Order.Ring.Nat
import Mathlib.Algebra.Ring.Parity

/-!
# The integers among the doubles

A double has 53 significant bits, so the integers from `2 ^ e` up to `2 ^ (e + 1)` that are doubles stand
`2 ^ (e - 52)` apart, and there is none from `2 ^ 1024` on.

- `Integer` is a double that is an integer; the two zeros are one.
- `round` rounds an integer to the nearest double, and between two of them to the even one; an integer that is too large
  becomes infinite, which is `none`. It is the result of an operation of doubles whose exact result is that integer, and
  of reading the decimal digits of the integer.
- `round_value`: a double is not rounded. `isValue_of_le`: up to `2 ^ 53` every integer is a double.
- `round_mono`: rounding keeps the order.
- `lt_of_odd_factor`: the odd factors of a double have no more than 53 bits; so the predecessor of a double is one when
  a multiple of it is (`isValue_pred`).
-/

namespace Double

/-- The distance between the doubles above the power of two below this number. -/
def spacing (n : Nat) : Nat := 2 ^ (n.log2 - 52)

/-- The multiple of `u` nearest to `n`, and of two the even one. -/
def nearestMultiple (u n : Nat) : Nat :=
  if 2 * (n % u) < u ∨ 2 * (n % u) = u ∧ n / u % 2 = 0 then n / u * u else (n / u + 1) * u

/-- The double nearest to a number, if the exponents had no bound. -/
def nearest (n : Nat) : Nat := nearestMultiple (spacing n) n

/-- A double is this integer. -/
def IsValue (n : Int) : Prop := spacing n.natAbs ∣ n.natAbs ∧ n.natAbs.log2 < 1024

instance (n : Int) : Decidable (IsValue n) := inferInstanceAs (Decidable (_ ∧ _))

/-- A double that is an integer. -/
structure Integer where
  val : Int
  isValue : IsValue val
  deriving DecidableEq, Repr

instance : Zero Integer := ⟨0, by decide⟩

instance : One Integer := ⟨1, by decide⟩

@[simp] theorem Integer.val_one : (1 : Integer).val = 1 := rfl

/-! ## Multiples -/

section Multiples

variable {u m n a : Nat}

/-- A multiple is its own nearest one. -/
theorem nearestMultiple_of_dvd (hu : 0 < u) (h : u ∣ n) : nearestMultiple u n = n := by
  rw [nearestMultiple, Nat.mod_eq_zero_of_dvd h, if_pos (Or.inl (by omega)), Nat.div_mul_cancel h]

theorem dvd_nearestMultiple : u ∣ nearestMultiple u n := by
  unfold nearestMultiple
  split
  · exact Nat.dvd_mul_left u _
  · exact Nat.dvd_mul_left u _

/-- Rounding does not pass a multiple below. -/
theorem le_nearestMultiple (hu : 0 < u) (h : a * u ≤ n) : a * u ≤ nearestMultiple u n := by
  have hq : a ≤ n / u := (Nat.le_div_iff_mul_le hu).mpr h
  unfold nearestMultiple
  split
  · exact Nat.mul_le_mul_right u hq
  · exact Nat.mul_le_mul_right u (by omega)

/-- Rounding does not pass a multiple above. -/
theorem nearestMultiple_le (hu : 0 < u) (h : n ≤ a * u) : nearestMultiple u n ≤ a * u := by
  rcases h.lt_or_eq with hlt | rfl
  · have hq : n / u < a := Nat.div_lt_of_lt_mul (by rwa [Nat.mul_comm])
    unfold nearestMultiple
    split
    · exact Nat.mul_le_mul_right u (by omega)
    · exact Nat.mul_le_mul_right u hq
  · rw [nearestMultiple_of_dvd hu (Nat.dvd_mul_left u a)]

theorem nearestMultiple_mono (hu : 0 < u) (h : m ≤ n) : nearestMultiple u m ≤ nearestMultiple u n := by
  rcases (Nat.div_le_div_right h : m / u ≤ n / u).lt_or_eq with hlt | heq
  · -- a multiple stands between the two
    have hm : m ≤ n / u * u := (Nat.lt_mul_of_div_lt hlt hu).le
    exact (nearestMultiple_le hu hm).trans (le_nearestMultiple hu (Nat.div_mul_le_self n u))
  · have hr : m % u ≤ n % u := by
      have hm := Nat.div_add_mod m u
      have hn := Nat.div_add_mod n u
      rw [heq] at hm
      omega
    unfold nearestMultiple
    rw [heq]
    split
    · split
      · exact le_refl _
      · exact Nat.mul_le_mul_right u (by omega)
    · split
      · omega
      · exact le_refl _

end Multiples

/-! ## Rounding a magnitude -/

section Magnitude

variable {m n e : Nat}

theorem spacing_pos (n : Nat) : 0 < spacing n := Nat.two_pow_pos _

theorem spacing_dvd (h : n.log2 - 52 ≤ e) : spacing n ∣ 2 ^ e := Nat.pow_dvd_pow 2 h

theorem log2_eq (hlo : 2 ^ e ≤ n) (hhi : n < 2 ^ (e + 1)) : n.log2 = e :=
  (Nat.log2_eq_iff (Nat.pos_of_ne_zero fun h => absurd (Nat.two_pow_pos e) (by omega)).ne').mpr ⟨hlo, hhi⟩

theorem log2_mono (h : m ≤ n) : m.log2 ≤ n.log2 := by
  by_cases hm : m = 0
  · subst hm
    exact Nat.zero_le _
  · exact (Nat.le_log2 (by omega)).mpr ((Nat.log2_self_le hm).trans h)

theorem nearest_of_dvd (h : spacing n ∣ n) : nearest n = n := nearestMultiple_of_dvd (spacing_pos n) h

/-- Rounding stays above the power of two below. -/
theorem le_nearest (hn : n ≠ 0) : 2 ^ n.log2 ≤ nearest n := by
  obtain ⟨a, ha⟩ := spacing_dvd (n := n) (e := n.log2) (by omega)
  rw [Nat.mul_comm] at ha
  rw [ha]
  exact le_nearestMultiple (spacing_pos n) (ha ▸ Nat.log2_self_le hn)

/-- Rounding stays below the power of two above, or reaches it. -/
theorem nearest_le (n : Nat) : nearest n ≤ 2 ^ (n.log2 + 1) := by
  obtain ⟨a, ha⟩ := spacing_dvd (n := n) (e := n.log2 + 1) (by omega)
  rw [Nat.mul_comm] at ha
  rw [ha]
  exact nearestMultiple_le (spacing_pos n) (ha ▸ Nat.lt_log2_self.le)

/-- What is rounded needs no more rounding. -/
theorem spacing_nearest_dvd (n : Nat) : spacing (nearest n) ∣ nearest n := by
  by_cases hn : n = 0
  · subst hn
    decide
  · rcases (nearest_le n).lt_or_eq with hlt | heq
    · have hlog : (nearest n).log2 = n.log2 := log2_eq (le_nearest hn) hlt
      rw [spacing, hlog]
      exact dvd_nearestMultiple
    · -- the power of two above
      rw [heq, spacing, Nat.log2_two_pow]
      exact Nat.pow_dvd_pow 2 (by omega)

/-- **Rounding keeps the order**, also when the numbers are rounded to different distances: a power of two stands
between them. -/
theorem nearest_mono (h : m ≤ n) : nearest m ≤ nearest n := by
  by_cases hm : m = 0
  · subst hm
    exact Nat.zero_le _
  · rcases (log2_mono h).lt_or_eq with hlt | heq
    · calc nearest m ≤ 2 ^ (m.log2 + 1) := nearest_le m
        _ ≤ 2 ^ n.log2 := Nat.pow_le_pow_right two_pos hlt
        _ ≤ nearest n := le_nearest (by omega)
    · rw [nearest, nearest, spacing, spacing, heq]
      exact nearestMultiple_mono (Nat.two_pow_pos _) h

end Magnitude

/-! ## Rounding -/

theorem natAbs_sign_mul_nearest (n : Int) : (n.sign * nearest n.natAbs).natAbs = nearest n.natAbs := by
  by_cases hn : n = 0
  · subst hn
    decide
  · rw [Int.natAbs_mul, Int.natAbs_sign_of_ne_zero hn, Nat.one_mul, Int.natAbs_natCast]

/-- What is rounded is a double, unless it is too large. -/
theorem isValue_nearest {n : Int} : IsValue (n.sign * nearest n.natAbs) ↔ (nearest n.natAbs).log2 < 1024 := by
  rw [IsValue, natAbs_sign_mul_nearest]
  exact and_iff_right (spacing_nearest_dvd _)

/-- The double nearest to an integer; `none` is an infinity. -/
def round (n : Int) : Option Integer :=
  if h : (nearest n.natAbs).log2 < 1024 then some ⟨n.sign * nearest n.natAbs, isValue_nearest.mpr h⟩ else none

section Rounding

variable {m n : Int} {x y : Integer}

theorem round_eq_some : round n = some x ↔ x.val = n.sign * nearest n.natAbs := by
  unfold round
  split
  · rw [Option.some.injEq, Integer.mk.injEq, eq_comm]
  · rename_i h
    exact iff_of_false nofun fun hx => h (isValue_nearest.mp (hx ▸ x.isValue))

/-- **A double is not rounded.** -/
theorem round_value (x : Integer) : round x.val = some x := by
  rw [round_eq_some, nearest_of_dvd x.isValue.1, Int.sign_mul_natAbs]

theorem round_of_isValue (h : IsValue n) : round n = some ⟨n, h⟩ := round_value ⟨n, h⟩

theorem sign_mul_nearest_natCast (k : Nat) : (k : Int).sign * nearest k = nearest k := by
  cases k with
  | zero => decide
  | succ k => rw [Int.sign_eq_one_of_pos (by omega), Int.one_mul]

theorem round_natCast {k : Nat} : round k = some x ↔ x.val = nearest k := by
  rw [round_eq_some, Int.natAbs_natCast, sign_mul_nearest_natCast]

theorem round_nonneg (hn : 0 ≤ n) (h : round n = some x) : 0 ≤ x.val := by
  obtain ⟨k, rfl⟩ := Int.eq_ofNat_of_zero_le hn
  rw [round_natCast.mp h]
  exact Int.natCast_nonneg _

/-- **Rounding keeps the order** of the integers that are not negative, and what stands below a finite result is
finite. -/
theorem round_mono (hm : 0 ≤ m) (h : m ≤ n) (hy : round n = some y) : ∃ x, round m = some x ∧ x.val ≤ y.val := by
  obtain ⟨j, rfl⟩ := Int.eq_ofNat_of_zero_le hm
  obtain ⟨k, rfl⟩ := Int.eq_ofNat_of_zero_le (hm.trans h)
  have hy : y.val = nearest k := round_natCast.mp hy
  have hle : nearest j ≤ nearest k := nearest_mono (Int.ofNat_le.mp h)
  have hfinite : (nearest k).log2 < 1024 := by
    have hvalue := y.isValue.2
    rwa [hy] at hvalue
  have hvalue : IsValue (nearest j : Nat) :=
    ⟨spacing_nearest_dvd j, (log2_mono hle).trans_lt hfinite⟩
  exact ⟨⟨nearest j, hvalue⟩, round_natCast.mpr rfl, hy ▸ Int.ofNat_le.mpr hle⟩

/-- Rounding does not pass a double below. -/
theorem le_of_round (hx : 0 ≤ x.val) (h : x.val ≤ n) (hy : round n = some y) : x.val ≤ y.val := by
  obtain ⟨x', hx', hle⟩ := round_mono hx h hy
  cases (round_value x).symm.trans hx'
  exact hle

/-- Up to `2 ^ 53` every integer is a double. -/
theorem isValue_of_le (h : n.natAbs ≤ 2 ^ 53) : IsValue n := by
  rcases h.lt_or_eq with hlt | heq
  · have hlog : n.natAbs.log2 < 53 := by
      by_cases hn : n.natAbs = 0
      · rw [hn]
        decide
      · exact (Nat.log2_lt hn).mpr hlt
    refine ⟨?_, by omega⟩
    rw [spacing, show n.natAbs.log2 - 52 = 0 by omega]
    exact one_dvd _
  · rw [IsValue, heq]
    decide

/-- Above `2 ^ 53` the doubles are even. -/
theorem even_of_lt (h : 2 ^ 53 < n.natAbs) (hn : IsValue n) : Even n := by
  have hlog : 53 ≤ n.natAbs.log2 := (Nat.le_log2 (by omega)).mpr h.le
  have htwo : 2 ∣ spacing n.natAbs := dvd_pow_self 2 (by omega)
  exact Int.natAbs_even.mp (even_iff_two_dvd.mpr (htwo.trans hn.1))

/-- **The odd factors of a double have no more than 53 bits.** -/
theorem lt_of_odd_factor {a q : Nat} (ha : 0 < a) (hq : Odd q) (h : spacing (a * q) ∣ a * q) : q < 2 ^ 53 := by
  have hcop : Nat.Coprime (spacing (a * q)) q := Nat.Coprime.pow_left _ (Nat.coprime_two_left.mpr hq)
  have hle : spacing (a * q) ≤ a := Nat.le_of_dvd ha (hcop.dvd_of_dvd_mul_right h)
  have hlt : a * q < 2 ^ ((a * q).log2 + 1) := Nat.lt_log2_self
  have hpow : 2 ^ ((a * q).log2 + 1) ≤ spacing (a * q) * 2 ^ 53 := by
    rw [spacing, ← Nat.pow_add]
    exact Nat.pow_le_pow_right two_pos (by omega)
  have hmul : spacing (a * q) * q ≤ a * q := Nat.mul_le_mul_right q hle
  exact lt_of_mul_lt_mul_left (hmul.trans_lt (hlt.trans_le hpow)) (Nat.zero_le _)

/-- The predecessor of a double is one when a multiple of it is. -/
theorem isValue_pred {a : Nat} (ha : 0 < a) (hx : 1 ≤ x.val) (h : IsValue (a * (x.val - 1))) : IsValue (x.val - 1) := by
  obtain ⟨q, hq⟩ := Int.eq_ofNat_of_zero_le (by omega : 0 ≤ x.val - 1)
  rcases Nat.even_or_odd q with heven | hodd
  · -- the double is odd
    refine isValue_of_le ?_
    by_contra hlt
    obtain ⟨c, hc⟩ := even_of_lt (by omega) x.isValue
    obtain ⟨d, hd⟩ := heven
    omega
  · rw [hq, ← Int.natCast_mul] at h
    have hlt := lt_of_odd_factor ha hodd h.1
    exact isValue_of_le (by omega)

end Rounding

end Double
