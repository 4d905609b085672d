import Mathlib.Algebra.Order.Field.Power
import Mathlib.Data.Nat.Log
import Mathlib.Data.Nat.MaxPowDiv
import Mathlib.Tactic.FieldSimp
import Mathlib.Tactic.Linarith
import Mathlib.Tactic.Positivity
import PaymentsProcessor.Python.Decimal

namespace Python

-- At most so many digits before and after the point, trailing zeros aside.
def FitsDigits (whole fractional : ℕ) (q : ℚ) : Prop :=
  (∃ n : ℤ, q * 10 ^ fractional = n) ∧ |q| < 10 ^ whole

def numDigits (n : ℕ) : ℕ := Nat.log 10 n + 1

theorem lt_pow_numDigits (n : ℕ) : n < 10 ^ numDigits n :=
  Nat.lt_pow_succ_log_self (by norm_num) n

theorem pow_numDigits_le {n : ℕ} (h : n ≠ 0) : 10 ^ (numDigits n - 1) ≤ n :=
  Nat.pow_log_le_self 10 h

namespace Decimal

def signed (d : Decimal) : ℤ := if d.negative then -d.coefficient else d.coefficient

-- The same number without trailing zeros.
def normalized (d : Decimal) : Decimal :=
  if d.coefficient = 0 then ⟨d.negative, 0, 0⟩
  else ⟨d.negative, d.coefficient.divMaxPow 10, d.exponent + padicValNat 10 d.coefficient⟩

-- The digits after the point.
def decimals (d : Decimal) : ℕ := (-d.exponent).toNat

-- All digits. A positive exponent adds zeros behind the coefficient, a negative
-- one puts them before it where the coefficient is too short.
def digits (d : Decimal) : ℕ :=
  max (numDigits d.coefficient + d.exponent.toNat) d.decimals

-- The digits of the triple, counted against both limits and against what the
-- two leave for the digits before the point.
def WithinDigits (max_digits decimal_places : ℕ) (d : Decimal) : Prop :=
  d.digits ≤ max_digits ∧ d.decimals ≤ decimal_places ∧
    d.digits - d.decimals ≤ max_digits - decimal_places

instance (max_digits decimal_places : ℕ) (d : Decimal) :
    Decidable (d.WithinDigits max_digits decimal_places) :=
  inferInstanceAs (Decidable (_ ∧ _ ∧ _))

-- The default context: its precision, its least exponent and the greatest exponent
-- of a first digit.
def prec : ℕ := 28

def Etiny : ℤ := -1000026

def Emax : ℤ := 999999

-- A number other than zero that this context holds without rounding.
def Exact (d : Decimal) : Prop :=
  d.coefficient ≠ 0 ∧ d.normalized.coefficient < 10 ^ prec ∧ Etiny ≤ d.normalized.exponent ∧
    d.normalized.exponent + (numDigits d.normalized.coefficient - 1) ≤ Emax

variable {d : Decimal}

theorem toRat_eq (d : Decimal) : d.toRat = d.signed * (10 : ℚ) ^ d.exponent := by
  obtain ⟨negative, coefficient, exponent⟩ := d
  cases exponent with
  | ofNat n =>
      simp only [toRat, signed, Int.ofNat_eq_natCast, zpow_natCast]
      push_cast
      rfl
  | negSucc n =>
      simp only [toRat, signed, zpow_negSucc, Rat.mkRat_eq_div]
      push_cast
      rw [div_eq_mul_inv]

theorem abs_signed (d : Decimal) : |d.signed| = d.coefficient := by
  unfold signed
  split <;> simp

theorem abs_toRat (d : Decimal) : |d.toRat| = d.coefficient * (10 : ℚ) ^ d.exponent := by
  have hpow : (0 : ℚ) < 10 ^ d.exponent := by positivity
  rw [toRat_eq, abs_mul, abs_of_pos hpow, ← Int.cast_abs, abs_signed, Int.cast_natCast]

theorem toRat_of_zero (h : d.coefficient = 0) : d.toRat = 0 := by
  simp [toRat_eq, signed, h]

theorem normalized_coefficient (h : d.coefficient ≠ 0) :
    d.normalized.coefficient ≠ 0 ∧ ¬10 ∣ d.normalized.coefficient := by
  have hdvd := Nat.not_dvd_divMaxPow (p := 10) (by norm_num) h
  have heq : d.normalized.coefficient = d.coefficient.divMaxPow 10 := by
    rw [normalized, if_neg h]
  rw [heq]
  exact ⟨fun hzero => hdvd (hzero ▸ dvd_zero 10), hdvd⟩

@[simp] theorem toRat_normalized (d : Decimal) : d.normalized.toRat = d.toRat := by
  by_cases h : d.coefficient = 0
  · rw [normalized, if_pos h, toRat_of_zero h]
    exact toRat_of_zero rfl
  · have hcoefficient : (d.coefficient : ℚ) =
        d.coefficient.divMaxPow 10 * 10 ^ padicValNat 10 d.coefficient := by
      exact_mod_cast (Nat.divMaxPow_mul_pow_padicValNat 10 d.coefficient).symm
    have hpow : (10 : ℚ) ^ (d.exponent + padicValNat 10 d.coefficient) =
        10 ^ padicValNat 10 d.coefficient * 10 ^ d.exponent := by
      rw [zpow_add₀ (by norm_num), zpow_natCast, mul_comm]
    rw [normalized, if_neg h, toRat_eq, toRat_eq, hpow, ← mul_assoc]
    congr 1
    unfold signed
    split
    · push_cast
      rw [hcoefficient, neg_mul]
    · push_cast
      rw [hcoefficient]

-- The digits before the point bound the number, and are bounded by it.
theorem abs_lt_iff (h : d.coefficient ≠ 0) (whole : ℕ) :
    |d.toRat| < 10 ^ whole ↔ numDigits d.coefficient + d.exponent ≤ whole := by
  have hten : (1 : ℚ) < 10 := by norm_num
  rw [abs_toRat]
  constructor
  · intro hlt
    have hle : (10 : ℚ) ^ (numDigits d.coefficient - 1) ≤ d.coefficient := by
      exact_mod_cast pow_numDigits_le h
    have hpow : (10 : ℚ) ^ ((numDigits d.coefficient - 1 : ℕ) + d.exponent) < 10 ^ (whole : ℤ) := by
      rw [zpow_add₀ (by norm_num), zpow_natCast, zpow_natCast]
      exact lt_of_le_of_lt (by gcongr) hlt
    have hexponent := (zpow_lt_zpow_iff_right₀ hten).mp hpow
    simp only [numDigits] at hexponent ⊢
    omega
  · intro hle
    have hlt : (d.coefficient : ℚ) < 10 ^ numDigits d.coefficient := by
      exact_mod_cast lt_pow_numDigits d.coefficient
    calc (d.coefficient : ℚ) * 10 ^ d.exponent
        < 10 ^ numDigits d.coefficient * 10 ^ d.exponent := by gcongr
      _ = 10 ^ ((numDigits d.coefficient : ℤ) + d.exponent) := by
          rw [zpow_add₀ (by norm_num), zpow_natCast]
      _ ≤ 10 ^ (whole : ℤ) := zpow_le_zpow_right₀ hten.le hle
      _ = 10 ^ whole := zpow_natCast _ _

-- Without trailing zeros, every place after the point is needed.
theorem integral_iff (h : ¬10 ∣ d.coefficient) (fractional : ℕ) :
    (∃ n : ℤ, d.toRat * 10 ^ fractional = n) ↔ 0 ≤ d.exponent + fractional := by
  have hshift : d.toRat * 10 ^ fractional = d.signed * (10 : ℚ) ^ (d.exponent + fractional) := by
    rw [toRat_eq, zpow_add₀ (by norm_num), zpow_natCast, mul_assoc]
  rw [hshift]
  constructor
  · rintro ⟨n, hn⟩
    by_contra hneg
    obtain ⟨k, hk⟩ : ∃ k : ℕ, -(d.exponent + fractional) = (k + 1 : ℕ) :=
      ⟨(-(d.exponent + fractional)).toNat - 1, by omega⟩
    have hsigned : (d.signed : ℚ) = n * 10 ^ (k + 1) := by
      rw [← hn, mul_assoc, ← zpow_natCast, ← hk, ← zpow_add₀ (by norm_num), add_neg_cancel,
        zpow_zero, mul_one]
    have hdvd : (10 : ℤ) ∣ d.signed := by
      have heq : d.signed = n * 10 ^ k * 10 := by
        rw [mul_assoc, ← pow_succ]
        exact_mod_cast hsigned
      exact ⟨_, heq.trans (mul_comm _ _)⟩
    rw [← dvd_abs, abs_signed] at hdvd
    exact h (by exact_mod_cast hdvd)
  · intro hpos
    obtain ⟨k, hk⟩ := Int.eq_ofNat_of_zero_le hpos
    exact ⟨d.signed * 10 ^ k, by rw [hk, zpow_natCast]; push_cast; rfl⟩

-- What the counts of a number without its trailing zeros say of its digits.
theorem fitsDigits_iff (h : d.coefficient ≠ 0) (whole fractional : ℕ) :
    FitsDigits whole fractional d.toRat ↔
      0 ≤ d.normalized.exponent + fractional ∧
        numDigits d.normalized.coefficient + d.normalized.exponent ≤ whole := by
  obtain ⟨hne, hdvd⟩ := normalized_coefficient h
  rw [← toRat_normalized, FitsDigits, integral_iff hdvd, abs_lt_iff hne]

theorem fits_of_withinDigits {max_digits decimal_places : ℕ}
    (h : d.normalized.WithinDigits max_digits decimal_places) :
    FitsDigits (max_digits - decimal_places) decimal_places d.toRat := by
  by_cases hzero : d.coefficient = 0
  · rw [toRat_of_zero hzero]
    exact ⟨⟨0, by simp⟩, by simp⟩
  · obtain ⟨hdigits, hdecimals, hwhole⟩ := h
    unfold digits at hdigits hwhole
    unfold decimals at hdigits hdecimals hwhole
    exact (fitsDigits_iff hzero _ _).mpr ⟨by omega, by omega⟩

-- Few digits are no more than the context holds.
theorem exact_of_fits {whole fractional : ℕ} (hprec : whole + fractional ≤ prec)
    (hne : d.coefficient ≠ 0) (h : FitsDigits whole fractional d.toRat) : d.Exact := by
  obtain ⟨hexponent, hwhole⟩ := (fitsDigits_iff hne _ _).mp h
  have hdigits : numDigits d.normalized.coefficient ≤ prec := by omega
  unfold prec at hprec
  refine ⟨hne, ?_, ?_, ?_⟩
  · calc d.normalized.coefficient < 10 ^ numDigits d.normalized.coefficient := lt_pow_numDigits _
      _ ≤ 10 ^ prec := Nat.pow_le_pow_right (by norm_num) hdigits
  · unfold Etiny
    omega
  · unfold Emax
    omega

theorem withinDigits_of_fits {max_digits decimal_places : ℕ} (hplaces : decimal_places ≤ max_digits)
    (hne : d.coefficient ≠ 0)
    (h : FitsDigits (max_digits - decimal_places) decimal_places d.toRat) :
    d.normalized.WithinDigits max_digits decimal_places := by
  obtain ⟨hexponent, hwhole⟩ := (fitsDigits_iff hne _ _).mp h
  unfold WithinDigits digits decimals
  exact ⟨by omega, by omega, by omega⟩

end Decimal

end Python
