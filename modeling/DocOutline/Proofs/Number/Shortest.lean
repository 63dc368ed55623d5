import Mathlib
import DocOutline.Number.Binary64

/-!
# Decimals of finite numbers

The decimal with which a finite number is written reads back as the number (`magnitudeOfDecimal_shortest`). Each short
candidate is tried out before it is taken, so what has to be shown is that the exact expansion behind them all reads
back: rounding leaves a magnitude's own units as they are.
-/

namespace DocOutline.Binary64

theorem fractionModulus_eq : fractionModulus = 2 ^ 52 := rfl

theorem fractionModulus_pos : 0 < fractionModulus := by decide

theorem units_of_lt {m : Nat} (h : m < 2 * fractionModulus) : units m = m := if_pos h

/-- The units of a number with a leading bit: the fraction behind it, as often as the exponent doubles it. -/
theorem units_of_le {m : Nat} (h : 2 * fractionModulus ≤ m) :
    units m = (fractionModulus + m % fractionModulus) * 2 ^ (m / fractionModulus - 1) := by
  rw [units, if_neg (by omega), Nat.shiftLeft_eq]

theorem two_le_div {m : Nat} (h : 2 * fractionModulus ≤ m) : 2 ≤ m / fractionModulus :=
  (Nat.le_div_iff_mul_le fractionModulus_pos).mpr h

/-- The largest magnitude of at most the units of a magnitude is that magnitude. -/
theorem below_units (m : Nat) : below (units m) = m := by
  by_cases h : m < 2 * fractionModulus
  · rw [units_of_lt h, below, if_pos h]
  have hle := Nat.not_lt.mp h
  have hexp := two_le_div hle
  have hfraction := Nat.mod_lt m fractionModulus_pos
  have hsplit := Nat.div_add_mod m fractionModulus
  generalize he : m / fractionModulus = e at hexp hsplit
  generalize hf : m % fractionModulus = f at hfraction hsplit
  have hunits : units m = (fractionModulus + f) * 2 ^ (e - 1) := by rw [units_of_le hle, he, hf]
  have hlarge : 2 * fractionModulus ≤ units m := by
    have htwo : 2 ^ 1 ≤ 2 ^ (e - 1) := Nat.pow_le_pow_right Nat.zero_lt_two (by omega)
    rw [hunits, Nat.mul_comm]
    exact Nat.mul_le_mul (Nat.le_add_right _ _) htwo
  have hlog : (units m).log2 = 52 + (e - 1) := by
    rw [Nat.log2_eq_iff (by have := fractionModulus_pos; omega), hunits, Nat.pow_succ, Nat.pow_add,
      ← fractionModulus_eq]
    constructor
    · exact Nat.mul_le_mul_right _ (Nat.le_add_right _ _)
    · rw [Nat.mul_right_comm]
      exact Nat.mul_lt_mul_of_pos_right (by omega) (Nat.two_pow_pos _)
  rw [below, if_neg (by omega), hlog, show 52 + (e - 1) - 52 = e - 1 by omega, Nat.shiftRight_eq_div_pow, hunits,
    Nat.mul_div_cancel _ (Nat.two_pow_pos _), ← Nat.add_assoc, ← Nat.succ_mul, show (e - 1).succ = e by omega,
    Nat.mul_comm]
  exact hsplit

theorem units_lt_units_succ (m : Nat) : units m < units (m + 1) := by
  have hpos := fractionModulus_pos
  by_cases h : m + 1 < 2 * fractionModulus
  · rw [units_of_lt h, units_of_lt (by omega)]
    exact Nat.lt_succ_self m
  by_cases h' : m < 2 * fractionModulus
  · have hm : m + 1 = 2 * fractionModulus := by omega
    have hunits : units (2 * fractionModulus) = 2 * fractionModulus := by decide
    rw [units_of_lt h', hm, hunits]
    exact h'
  rw [units_of_le (by omega), units_of_le (by omega)]
  have hsplit := Nat.div_add_mod m fractionModulus
  have hfraction := Nat.mod_lt m hpos
  by_cases hcarry : m % fractionModulus + 1 < fractionModulus
  · -- the fraction goes up, the exponent stays
    have hnext : m + 1 = fractionModulus * (m / fractionModulus) + (m % fractionModulus + 1) := by omega
    have hdiv : (m + 1) / fractionModulus = m / fractionModulus := by
      rw [hnext, Nat.mul_add_div hpos, Nat.div_eq_of_lt hcarry, Nat.add_zero]
    have hmod : (m + 1) % fractionModulus = m % fractionModulus + 1 := by
      rw [hnext, Nat.mul_add_mod, Nat.mod_eq_of_lt hcarry]
    rw [hdiv, hmod]
    exact Nat.mul_lt_mul_of_pos_right (by omega) (Nat.two_pow_pos _)
  · -- the exponent goes up, the fraction starts again
    have hnext : m + 1 = fractionModulus * (m / fractionModulus + 1) := by rw [Nat.mul_succ]; omega
    have hdiv : (m + 1) / fractionModulus = m / fractionModulus + 1 := by
      rw [hnext, Nat.mul_div_cancel_left _ hpos]
    have hmod : (m + 1) % fractionModulus = 0 := by rw [hnext, Nat.mul_mod_right]
    have hexp := two_le_div (Nat.not_lt.mp h')
    have hpow : 2 ^ (m / fractionModulus + 1 - 1) = 2 * 2 ^ (m / fractionModulus - 1) := by
      rw [← Nat.pow_succ', Nat.add_sub_cancel, show (m / fractionModulus - 1).succ = m / fractionModulus by omega]
    rw [hdiv, hmod, hpow, Nat.add_zero, ← Nat.mul_assoc]
    exact Nat.mul_lt_mul_of_pos_right (by omega) (Nat.two_pow_pos _)

/-! ## Rounding -/

theorem nearest_units (m : Nat) : nearest (units m) 1 = m := by
  have := units_lt_units_succ m
  rw [nearest, Nat.div_one, below_units]
  exact if_pos (by omega)

/-- Rounding a fraction does not depend on how it is written. -/
theorem nearest_mul_right (num den : Nat) {c : Nat} (hc : 0 < c) : nearest (num * c) (den * c) = nearest num den := by
  have hnum : 2 * (num * c) = 2 * num * c := (Nat.mul_assoc _ _ _).symm
  have hmiddle (u : Nat) : u * (den * c) = u * den * c := (Nat.mul_assoc _ _ _).symm
  simp only [nearest, Nat.mul_div_mul_right _ _ hc, hnum, hmiddle, Nat.mul_lt_mul_right hc]

theorem units_pos {m : Nat} (h : 0 < m) : 0 < units m := by
  have := units_lt_units_succ (m - 1)
  rw [Nat.sub_add_cancel h] at this
  omega

/-- A magnitude's exact decimal expansion reads back as the magnitude. The number of digits behind the point is a
variable here, since no step should compute with powers of its size. -/
theorem magnitudeOfDecimal_units {m k : Nat} (hk : k = 1074) (hpos : 0 < m) (hfinite : m < infinity) :
    magnitudeOfDecimal (units m * Nat.pow 5 k) (-(k : Int)) = m := by
  have hdigits : 0 < units m * 5 ^ k := Nat.mul_pos (units_pos hpos) (Nat.pow_pos (by decide))
  -- the expansion is too long to be taken for zero without being read
  have hlog : 2 * k ≤ (units m * 5 ^ k).log2 := by
    refine (Nat.le_log2 (Nat.ne_of_gt hdigits)).mpr ?_
    calc 2 ^ (2 * k) = (2 ^ 2) ^ k := Nat.pow_mul 2 2 k
      _ ≤ 5 ^ k := Nat.pow_le_pow_left (by decide) k
      _ ≤ units m * 5 ^ k := Nat.le_mul_of_pos_left _ (units_pos hpos)
  have hread : nearest (units m * 5 ^ k * unitsPerOne) (10 ^ k) = m := by
    have hpower : 5 ^ k * unitsPerOne = 10 ^ k := by
      rw [unitsPerOne, Nat.one_shiftLeft, ← hk, ← Nat.mul_pow]
    have hscaled := nearest_mul_right (units m) 1 (c := 10 ^ k) (Nat.pow_pos (by decide))
    rwa [nearest_units, Nat.one_mul, ← hpower, ← Nat.mul_assoc, hpower] at hscaled
  have hshort : ¬ (-(k : Int) + ((units m * 5 ^ k).log2 / 3 + 1) < -maxPower) := by
    simp only [maxPower]
    omega
  simp only [magnitudeOfDecimal, Nat.pow_eq, Int.neg_neg, Int.toNat_natCast, Int.toNat_neg_natCast, Nat.pow_zero,
    Nat.mul_one, hread]
  rw [if_neg (Nat.ne_of_gt hdigits), if_neg (by simp only [maxPower]; omega), if_neg hshort]
  exact Nat.min_eq_right (Nat.le_of_lt hfinite)

/-- A decimal without a fraction can be written with one digit more, a zero behind the point. -/
theorem magnitudeOfDecimal_point {n k : Nat} (hn : n ≠ 0) (hk : k ≤ maxPower) :
    magnitudeOfDecimal (n * 10 ^ (k + 1)) (-1) = magnitudeOfDecimal n k := by
  have hdigits : n * 10 ^ (k + 1) ≠ 0 := Nat.mul_ne_zero hn (Nat.ne_of_gt (Nat.pow_pos (by decide)))
  have hread := nearest_mul_right (n * 10 ^ k * unitsPerOne) 1 (c := 10) (by decide)
  rw [Nat.mul_right_comm, Nat.mul_assoc n, ← Nat.pow_succ, Nat.one_mul] at hread
  simp only [magnitudeOfDecimal, Nat.pow_eq, Int.toNat_natCast, Int.toNat_neg_natCast, Nat.pow_zero]
  have hmax : (maxPower : Int) = 400 := rfl
  rw [if_neg hdigits, if_neg hn, if_neg (by omega), if_neg (by omega), if_neg (by omega), if_neg (by omega)]
  exact congrArg (min infinity) (by simpa using hread)

/-- **The decimal of a finite number reads back as the number.** -/
theorem magnitudeOfDecimal_shortest {m : Nat} (hpos : 0 < m) (hfinite : m < infinity) :
    magnitudeOfDecimal (shortest m).1 (shortest m).2 = m := by
  simp only [shortest, if_neg (Nat.ne_of_gt hpos)]
  generalize (List.range 17).flatMap _ = candidates
  match hfind : candidates.find? fun candidate => magnitudeOfDecimal candidate.1 candidate.2 = m with
  | some candidate =>
    have hreads := List.find?_some hfind
    rw [hfind, Option.getD_some]
    exact of_decide_eq_true hreads
  | none =>
    have hexact := magnitudeOfDecimal_units (k := 1074) rfl hpos hfinite
    rw [show ((1074 : Nat) : Int) = 1074 from rfl] at hexact
    rw [hfind, Option.getD_none]
    exact hexact

theorem shortest_ne_zero {m : Nat} (hpos : 0 < m) (hfinite : m < infinity) : (shortest m).1 ≠ 0 := by
  intro h
  have := magnitudeOfDecimal_shortest hpos hfinite
  rw [h] at this
  exact Nat.ne_of_gt hpos this.symm

end DocOutline.Binary64
