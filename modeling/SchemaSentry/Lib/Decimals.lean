import Mathlib.Algebra.Order.Field.Power
import Mathlib.Algebra.Order.Ring.Rat
import Mathlib.Data.Rat.Cast.Order
import Mathlib.Tactic.Linarith
import Mathlib.Tactic.NormNum
import Mathlib.Tactic.Ring
/-!
# Decimals of a precision and a scale

The numbers of at most `p` digits, `s` of them behind the point. One such
set holds another where it has as many digits on either side of the point
(`decimals_subset_iff`), and none holds all decimals.
-/

namespace Lib

/-- The numbers `m * 10 ^ (-s)` with `|m| < 10 ^ p`. -/
def decimals (p s : ℤ) : Set ℚ := {q | ∃ m : ℤ, |(m : ℚ)| < 10 ^ p ∧ q = m * 10 ^ (-s)}

/-- The numbers with finitely many digits. -/
def allDecimals : Set ℚ := {q | ∃ m s : ℤ, q = m * 10 ^ (-s)}

variable {p s p' s' : ℤ}

theorem decimals_subset_of_le (h : p ≤ p') : decimals p s ⊆ decimals p' s := by
  rintro q ⟨m, hm, rfl⟩
  exact ⟨m, hm.trans_le (zpow_le_zpow_right₀ (by norm_num) h), rfl⟩

theorem decimals_subset_allDecimals (p s : ℤ) : decimals p s ⊆ allDecimals := by
  rintro q ⟨m, -, rfl⟩
  exact ⟨m, s, rfl⟩

/-- Moving the point: `m` at scale `s` is `m * 10 ^ (s' - s)` at scale `s'`. -/
theorem eq_mul_zpow_iff {m m' : ℚ} :
    m * 10 ^ (-s) = m' * 10 ^ (-s') ↔ m' = m * 10 ^ (s' - s) := by
  have hpow : (10 : ℚ) ^ (s' - s) = 10 ^ (-s) * 10 ^ s' := by
    rw [← zpow_add₀ (by norm_num)]
    congr 1
    ring
  have hone : (10 : ℚ) ^ (-s') * 10 ^ s' = 1 := by
    rw [← zpow_add₀ (by norm_num), neg_add_cancel, zpow_zero]
  rw [hpow]
  constructor
  · intro h
    calc m' = m' * 10 ^ (-s') * 10 ^ s' := by rw [mul_assoc, hone, mul_one]
      _ = m * 10 ^ (-s) * 10 ^ s' := by rw [h]
      _ = m * (10 ^ (-s) * 10 ^ s') := mul_assoc _ _ _
  · intro h
    calc m * 10 ^ (-s) = m * 10 ^ (-s) * (10 ^ (-s') * 10 ^ s') := by rw [hone, mul_one]
      _ = m * (10 ^ (-s) * 10 ^ s') * 10 ^ (-s') := by ring
      _ = m' * 10 ^ (-s') := by rw [h]

/-- No precision is enough for all decimals. -/
theorem not_allDecimals_subset (p s : ℤ) : ¬ allDecimals ⊆ decimals p s := by
  intro h
  obtain ⟨m, hm, heq⟩ := h ⟨1, s - p, rfl⟩
  rw [eq_mul_zpow_iff, Int.cast_one, one_mul, sub_sub_cancel] at heq
  rw [heq, abs_of_pos (zpow_pos (by norm_num) p)] at hm
  exact lt_irrefl _ hm

/-- A power of ten with an exponent that is not negative is an integer. -/
theorem cast_pow_toNat (hp : 0 ≤ p) : (((10 : ℤ) ^ p.toNat : ℤ) : ℚ) = 10 ^ p := by
  rw [Int.cast_pow, ← zpow_natCast, Int.toNat_of_nonneg hp]
  norm_num

/-- The greatest decimal of a precision and a scale has nines only. -/
theorem nines_mem (hp : 0 ≤ p) (s : ℤ) : ((10 : ℚ) ^ p - 1) * 10 ^ (-s) ∈ decimals p s := by
  refine ⟨10 ^ p.toNat - 1, ?_, ?_⟩
  · have hone : (1 : ℚ) ≤ 10 ^ p := one_le_zpow₀ (by norm_num) hp
    rw [Int.cast_sub, cast_pow_toNat hp, Int.cast_one, abs_of_nonneg (by linarith)]
    linarith
  · rw [Int.cast_sub, cast_pow_toNat hp, Int.cast_one]

/-- Decimals that hold the others have as many digits behind the point. -/
theorem scale_le_of_subset (hp : 0 < p) (h : decimals p s ⊆ decimals p' s') : s ≤ s' := by
  have hone : (1 : ℚ) * 10 ^ (-s) ∈ decimals p s := by
    refine ⟨1, ?_, by norm_num⟩
    rw [Int.cast_one, abs_one]
    exact one_lt_zpow₀ (by norm_num) hp
  obtain ⟨m, -, heq⟩ := h hone
  rw [eq_mul_zpow_iff, one_mul] at heq
  by_contra hlt
  -- an integer strictly between zero and one
  have hpos : (0 : ℚ) < m := by
    rw [heq]
    exact zpow_pos (by norm_num) _
  have hless : (m : ℚ) < 1 := by
    rw [heq]
    exact zpow_lt_one_of_neg₀ (by norm_num) (by omega)
  have hpos' : 0 < m := by exact_mod_cast hpos
  have hless' : m < 1 := by exact_mod_cast hless
  omega

/-- Decimals that hold the others have as many digits before the point. -/
theorem whole_le_of_subset (hp : 0 < p) (h : decimals p s ⊆ decimals p' s') :
    p - s ≤ p' - s' := by
  obtain ⟨m, hm, heq⟩ := h (nines_mem hp.le s)
  rw [eq_mul_zpow_iff] at heq
  by_contra hlt
  have hshift : (0 : ℚ) < 10 ^ (s' - s) := zpow_pos (by norm_num) _
  have hten : (10 : ℚ) ^ p = 10 ^ (p - 1) * 10 := by
    rw [← zpow_add_one₀ (by norm_num), sub_add_cancel]
  have hone : (1 : ℚ) ≤ 10 ^ (p - 1) := one_le_zpow₀ (by norm_num) (by omega)
  have hnines : (10 : ℚ) ^ (p - 1) ≤ 10 ^ p - 1 := by linarith
  have hle : (10 : ℚ) ^ p' ≤ m :=
    calc (10 : ℚ) ^ p' ≤ 10 ^ (p - 1 + (s' - s)) :=
          zpow_le_zpow_right₀ (by norm_num) (by omega)
      _ = 10 ^ (p - 1) * 10 ^ (s' - s) := zpow_add₀ (by norm_num) _ _
      _ ≤ (10 ^ p - 1) * 10 ^ (s' - s) := mul_le_mul_of_nonneg_right hnines hshift.le
      _ = m := heq.symm
  exact absurd (hle.trans (le_abs_self _)) (not_le.2 hm)

/-- **Decimals hold other decimals** where they have as many digits on
either side of the point, or where the others are zero only. -/
theorem decimals_subset_iff (hp : 0 ≤ p) :
    decimals p s ⊆ decimals p' s' ↔ p = 0 ∨ s ≤ s' ∧ p - s ≤ p' - s' := by
  constructor
  · intro h
    rcases hp.eq_or_lt with hzero | hpos
    · exact Or.inl hzero.symm
    · exact Or.inr ⟨scale_le_of_subset hpos h, whole_le_of_subset hpos h⟩
  · rintro (rfl | ⟨hscale, hwhole⟩)
    · rintro q ⟨m, hm, rfl⟩
      rw [zpow_zero] at hm
      have hless : |m| < 1 := by exact_mod_cast hm
      have hzero : m = 0 := Int.abs_lt_one_iff.1 hless
      refine ⟨0, ?_, by simp [hzero]⟩
      rw [Int.cast_zero, abs_zero]
      exact zpow_pos (by norm_num) _
    · rintro q ⟨m, hm, rfl⟩
      have hshift : (0 : ℚ) < 10 ^ (s' - s) := zpow_pos (by norm_num) _
      have hcast : ((m * 10 ^ (s' - s).toNat : ℤ) : ℚ) = m * 10 ^ (s' - s) := by
        rw [Int.cast_mul, cast_pow_toNat (by omega)]
      refine ⟨m * 10 ^ (s' - s).toNat, ?_, ?_⟩
      · rw [hcast, abs_mul, abs_of_pos hshift]
        calc |(m : ℚ)| * 10 ^ (s' - s) < 10 ^ p * 10 ^ (s' - s) :=
              mul_lt_mul_of_pos_right hm hshift
          _ = 10 ^ (p + (s' - s)) := (zpow_add₀ (by norm_num) _ _).symm
          _ ≤ 10 ^ p' := zpow_le_zpow_right₀ (by norm_num) (by omega)
      · rw [eq_mul_zpow_iff]
        exact hcast

end Lib
