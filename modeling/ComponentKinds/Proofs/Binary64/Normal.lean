import ComponentKinds.Json.Numeral
import Mathlib.Algebra.Order.Field.Power
import Mathlib.Algebra.Order.Field.Rat
import Mathlib.Tactic.Ring

/-!
# Numbers that are read are in normal form

A positive fraction lies between a power of two and the next one. So it has 53 binary digits
before the point when it is scaled by the right power, or fewer with the least exponent of the
format. Rounding keeps to these bounds, and what is rounded up to one digit more takes the next
exponent. Decimals and numerals are therefore read as normal forms.
-/

namespace ComponentKinds

namespace Binary64

section Rescale

variable {base : Nat} {power : Int} {num den : Nat}

/-- A rescaled fraction is the fraction divided by the power. -/
theorem rescale_div (base : Nat) (power : Int) (num den : Nat) :
    ((rescale base power num den).1 / (rescale base power num den).2 : ℚ) =
      num / den / (base : ℚ) ^ power := by
  unfold rescale
  split
  · next hneg =>
    obtain ⟨n, rfl⟩ : ∃ n : Nat, power = -n := ⟨power.natAbs, by omega⟩
    simp only [Int.natAbs_neg, Int.natAbs_natCast, Nat.pow_eq, Nat.cast_mul, Nat.cast_pow, zpow_neg,
      zpow_natCast, div_inv_eq_mul]
    ring
  · next hpos =>
    obtain ⟨n, rfl⟩ : ∃ n : Nat, power = n := ⟨power.natAbs, by omega⟩
    simp only [Int.natAbs_natCast, Nat.pow_eq, Nat.cast_mul, Nat.cast_pow, zpow_natCast, div_div]

theorem rescale_fst_pos (hbase : 0 < base) (hnum : 0 < num) :
    0 < (rescale base power num den).1 := by
  unfold rescale
  split
  · exact Nat.mul_pos hnum (Nat.pow_pos hbase)
  · exact hnum

theorem rescale_snd_pos (hbase : 0 < base) (hden : 0 < den) :
    0 < (rescale base power num den).2 := by
  unfold rescale
  split
  · exact hden
  · exact Nat.mul_pos hden (Nat.pow_pos hbase)

/-- Bounds of a rescaled fraction are bounds of the fraction, scaled back. -/
theorem rescale_lt_iff (hbase : 0 < base) (hden : 0 < den) {n : Nat} :
    (rescale base power num den).1 < n * (rescale base power num den).2 ↔
      (num / den : ℚ) < n * (base : ℚ) ^ power := by
  have hpow : (0 : ℚ) < (base : ℚ) ^ power := zpow_pos (Nat.cast_pos.mpr hbase) power
  have hunit : (0 : ℚ) < (rescale base power num den).2 := by
    exact_mod_cast rescale_snd_pos hbase hden
  rw [← div_lt_iff₀ hpow, ← rescale_div, div_lt_iff₀ hunit]
  norm_cast

end Rescale

/-- The numbers of binary digits of its parts give a positive fraction up to a factor of two either
way. -/
theorem log2_sub_log2_spec {num den : Nat} (hnum : 0 < num) (hden : 0 < den) :
    (2 : ℚ) ^ ((Nat.log2 num : Int) - Nat.log2 den - 1) ≤ num / den ∧
      (num / den : ℚ) < 2 ^ ((Nat.log2 num : Int) - Nat.log2 den + 1) := by
  have hdenpos : (0 : ℚ) < den := by exact_mod_cast hden
  have hnumlow : (2 : ℚ) ^ (Nat.log2 num : Int) ≤ num := by
    exact_mod_cast Nat.log2_self_le (Nat.ne_of_gt hnum)
  have hnumhigh : (num : ℚ) < 2 ^ (Nat.log2 num + 1 : Int) := by
    exact_mod_cast Nat.lt_log2_self (n := num)
  have hdenlow : (2 : ℚ) ^ (Nat.log2 den : Int) ≤ den := by
    exact_mod_cast Nat.log2_self_le (Nat.ne_of_gt hden)
  have hdenhigh : (den : ℚ) < 2 ^ (Nat.log2 den + 1 : Int) := by
    exact_mod_cast Nat.lt_log2_self (n := den)
  generalize (Nat.log2 num : Int) = m at *
  generalize (Nat.log2 den : Int) = n at *
  constructor
  · rw [le_div_iff₀ hdenpos]
    calc (2 : ℚ) ^ (m - n - 1) * den ≤ 2 ^ (m - n - 1) * 2 ^ (n + 1) := by gcongr
      _ = 2 ^ m := by
        rw [← zpow_add₀ two_ne_zero]
        congr 1
        omega
      _ ≤ num := hnumlow
  · rw [div_lt_iff₀ hdenpos]
    calc (num : ℚ) < 2 ^ (m + 1) := hnumhigh
      _ = 2 ^ (m - n + 1) * 2 ^ n := by
        rw [← zpow_add₀ two_ne_zero]
        congr 1
        omega
      _ ≤ 2 ^ (m - n + 1) * den := by gcongr

/-- A positive fraction lies between two powers of two that follow each other. -/
theorem binaryOrder_spec {num den : Nat} (hnum : 0 < num) (hden : 0 < den) :
    (2 : ℚ) ^ binaryOrder num den ≤ num / den ∧
      (num / den : ℚ) < 2 ^ (binaryOrder num den + 1) := by
  obtain ⟨hlow, hhigh⟩ := log2_sub_log2_spec hnum hden
  let order : Int := (Nat.log2 num : Int) - Nat.log2 den
  have hless : (rescale 2 order num den).1 < 1 * (rescale 2 order num den).2 ↔
      (num / den : ℚ) < (1 : Nat) * ((2 : Nat) : ℚ) ^ order := rescale_lt_iff two_pos hden
  simp only [one_mul, Nat.cast_one, Nat.cast_ofNat] at hless
  have horder : binaryOrder num den =
      if (rescale 2 order num den).1 < (rescale 2 order num den).2 then order - 1 else order := rfl
  rw [horder]
  split
  · next hscaled => exact ⟨hlow, by simpa using hless.mp hscaled⟩
  · next hscaled => exact ⟨not_lt.mp (mt hless.mpr hscaled), hhigh⟩

/-- A quotient is not rounded up beyond a number that is above it. -/
theorem roundDiv_le {num den n : Nat} (h : num < n * den) : roundDiv num den ≤ n := by
  have hquotient : num / den < n := Nat.div_lt_of_lt_mul (Nat.mul_comm n den ▸ h)
  simp only [roundDiv]
  split <;> omega

/-- A quotient is not rounded down below a number that is not above it. -/
theorem le_roundDiv {num den n : Nat} (hden : 0 < den) (h : n * den ≤ num) :
    n ≤ roundDiv num den := by
  have hquotient : n ≤ num / den := (Nat.le_div_iff_mul_le hden).mpr h
  simp only [roundDiv]
  split <;> omega

/-- The significand that a positive fraction is rounded to is `2 ^ 53` at most, and it has 53 binary
digits at least unless the exponent is the least one. -/
theorem roundDiv_rescale_bounds {num den : Nat} (hnum : 0 < num) (hden : 0 < den) {exponent : Int}
    (hexponent : exponent = max (binaryOrder num den - 52) minExponent) :
    let scaled := rescale 2 exponent num den
    roundDiv scaled.1 scaled.2 ≤ 2 ^ 53 ∧
      (2 ^ 52 ≤ roundDiv scaled.1 scaled.2 ∨ exponent = minExponent) := by
  intro scaled
  obtain ⟨hlow, hhigh⟩ := binaryOrder_spec hnum hden
  constructor
  · apply roundDiv_le
    rw [rescale_lt_iff two_pos hden]
    calc (num / den : ℚ) < 2 ^ (binaryOrder num den + 1) := hhigh
      _ ≤ 2 ^ (53 + exponent) := zpow_le_zpow_right₀ one_le_two (by omega)
      _ = ((2 ^ 53 : Nat) : ℚ) * ((2 : Nat) : ℚ) ^ exponent := by
        rw [zpow_add₀ two_ne_zero]
        norm_cast
  · rcases max_choice (binaryOrder num den - 52) minExponent with horder | hleast
    · left
      apply le_roundDiv (rescale_snd_pos two_pos hden)
      rw [← not_lt, rescale_lt_iff two_pos hden, not_lt]
      calc ((2 ^ 52 : Nat) : ℚ) * ((2 : Nat) : ℚ) ^ exponent = 2 ^ (52 + exponent) := by
            rw [zpow_add₀ two_ne_zero]
            norm_cast
        _ = 2 ^ binaryOrder num den := by
            congr 1
            omega
        _ ≤ num / den := hlow
    · exact Or.inr (hexponent.trans hleast)

/-- The number nearest to a positive fraction is in normal form. -/
theorem normal_of_nearest? {negative : Bool} {num den : Nat} {x : Binary64} (hnum : 0 < num)
    (hden : 0 < den) (h : nearest? negative num den = some x) : x.Normal := by
  let exponent := max (binaryOrder num den - 52) minExponent
  let scaled := rescale 2 exponent num den
  let significand := roundDiv scaled.1 scaled.2
  have hmin : minExponent ≤ exponent := le_max_right _ _
  obtain ⟨hle, hfull⟩ := roundDiv_rescale_bounds hnum hden rfl
  have hnearest : nearest? negative num den =
      let x : Binary64 := if significand = 1 <<< 53 then ⟨negative, 1 <<< 52, exponent + 1⟩
        else ⟨negative, significand, exponent⟩
      if x.exponent ≤ maxExponent then some x else none := rfl
  rw [hnearest] at h
  by_cases hcarry : significand = 1 <<< 53
  · simp only [if_pos hcarry, Option.ite_none_right_eq_some, Option.some.injEq] at h
    obtain ⟨hmax, rfl⟩ := h
    have hlt : 1 <<< 52 < 1 <<< 53 := by decide
    exact ⟨hlt, Or.inl (le_refl _), Int.le_add_one hmin, hmax⟩
  · simp only [if_neg hcarry, Option.ite_none_right_eq_some, Option.some.injEq] at h
    obtain ⟨hmax, rfl⟩ := h
    exact ⟨lt_of_le_of_ne hle hcarry, hfull, hmin, hmax⟩

/-- What a decimal is read as is in normal form. -/
theorem normal_of_ofDecimal? {negative : Bool} {coefficient : Nat} {power : Int} {x : Binary64}
    (h : ofDecimal? negative coefficient power = some x) : x.Normal := by
  simp only [ofDecimal?] at h
  split at h
  · cases h
    exact normal_zero negative
  · next hnonzero =>
    split at h
    · cases h
    · have hcoefficient : 0 < coefficient := Nat.pos_of_ne_zero (not_or.mp hnonzero).1
      exact normal_of_nearest? (rescale_fst_pos (by decide) hcoefficient)
        (rescale_snd_pos (by decide) Nat.one_pos) h

end Binary64

/-- A numeral that is no integer is read as a number in normal form. -/
theorem Json.Numeral.normal_of_number? {n : Numeral} {x : Binary64}
    (h : n.number? = some (.float x)) : x.Normal := by
  unfold number? at h
  extract_lets value at h
  split at h
  · cases h
  · obtain ⟨y, hy, heq⟩ := Option.map_eq_some_iff.mp h
    cases heq
    exact Binary64.normal_of_ofDecimal? hy

end ComponentKinds
