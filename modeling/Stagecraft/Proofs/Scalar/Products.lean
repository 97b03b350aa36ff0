/-
This file shows that rounding keeps the order of numbers. Every positive number that is not too
small is rounded to some mantissa and exponent, and what is too small is rounded to nothing. So
products of doubles are in the order of the products of the numbers that they stand for, even where
the exponent is too large for a double.
-/

import Stagecraft.Proofs.Scalar.Doubles

namespace Stagecraft

open Float.Model Float.Model.UnpackedFloat

namespace Rounding

variable {mantissa mantissa' : Nat} {exponent exponent' : Int} {x x' : ℚ}

/-! ### Order -/

theorem RoundsTo.half_le (rounds : RoundsTo mantissa exponent x) :
    (mantissa - 1 / 2 : ℚ) * 2 ^ exponent ≤ x := by
  refine le_trans (mul_le_mul_of_nonneg_right ?_ (by positivity)) rounds.low
  split <;> linarith

/-- What is rounded to a double of a smaller exponent lies below all that is rounded to a double of
the larger one. -/
theorem RoundsTo.lt_of_exponent_lt (first : IsReduced mantissa exponent)
    (second : IsReduced mantissa' exponent') (rounds : RoundsTo mantissa exponent x)
    (rounds' : RoundsTo mantissa' exponent' x') (less : exponent < exponent') : x < x' := by
  have unit : (0 : ℚ) < 2 ^ exponent := by positivity
  let edge : ℚ := (2 ^ 53 - 1 / 2) * 2 ^ exponent
  have below : x < edge := by
    have small : mantissa + 1 ≤ 2 ^ 53 := first.lt
    rcases Nat.lt_or_eq_of_le small with further | last
    · have bound : (mantissa : ℚ) + 2 ≤ 2 ^ 53 := by exact_mod_cast further
      refine rounds.high.trans_lt (mul_lt_mul_of_pos_right ?_ unit)
      linarith
    · have value : (mantissa : ℚ) + 1 = 2 ^ 53 := by exact_mod_cast last
      refine (rounds.open_ends (by omega)).2.trans_le (mul_le_mul_of_nonneg_right ?_ unit.le)
      linarith
  have above : edge ≤ x' := by
    have full : 2 ^ 52 ≤ mantissa' := second.full.resolve_right (by have := first.least; omega)
    have step : edge ≤ (2 ^ 52 - 1 / 4) * 2 ^ exponent' := by
      have half : edge = (2 ^ 52 - 1 / 4) * 2 ^ (exponent + 1) := by
        rw [zpow_add_one₀ two_ne_zero]
        ring
      rw [half]
      exact mul_le_mul_of_nonneg_left (zpow_le_zpow_right₀ one_le_two less) (by norm_num)
    refine step.trans (le_trans (mul_le_mul_of_nonneg_right ?_ (by positivity)) rounds'.low)
    rcases Nat.lt_or_eq_of_le full with larger | same
    · have bound : (2 : ℚ) ^ 52 + 1 ≤ mantissa' := by exact_mod_cast larger
      split <;> linarith
    · have least := first.least
      rw [if_pos ⟨same.symm, by omega⟩, ← same]
      norm_num
  exact below.trans_le above

/-- Rounding keeps the order. -/
theorem RoundsTo.le (first : IsReduced mantissa exponent) (second : IsReduced mantissa' exponent')
    (rounds : RoundsTo mantissa exponent x) (rounds' : RoundsTo mantissa' exponent' x')
    (ordered : x ≤ x') : (mantissa * 2 ^ exponent : ℚ) ≤ mantissa' * 2 ^ exponent' := by
  rcases lt_trichotomy exponent exponent' with less | rfl | greater
  · exact (Double.mul_two_zpow_lt first second less).le
  · refine mul_le_mul_of_nonneg_right ?_ (by positivity)
    by_contra above
    rw [not_le, Nat.cast_lt] at above
    -- Between two mantissas lies at least the middle below the larger one.
    have unit : (0 : ℚ) < 2 ^ exponent := by positivity
    have low := rounds.half_le
    have high := rounds'.high
    have middle : (mantissa' + 1 / 2 : ℚ) * 2 ^ exponent ≤ (mantissa - 1 / 2) * 2 ^ exponent := by
      have bound : (mantissa' : ℚ) + 1 ≤ mantissa := by exact_mod_cast above
      refine mul_le_mul_of_nonneg_right ?_ unit.le
      linarith
    rcases Nat.lt_or_eq_of_le (Nat.succ_le_of_lt above) with apart | rfl
    · have bound : (mantissa' : ℚ) + 2 ≤ mantissa := by exact_mod_cast apart
      have strict : (mantissa' + 1 / 2 : ℚ) * 2 ^ exponent < (mantissa - 1 / 2) * 2 ^ exponent := by
        refine mul_lt_mul_of_pos_right ?_ unit
        linarith
      linarith
    · rcases Nat.mod_two_eq_zero_or_one mantissa' with even | odd
      · have strict := (rounds.open_ends (by omega)).1
        linarith
      · have strict := (rounds'.open_ends odd).2
        linarith
  · exact absurd (rounds'.lt_of_exponent_lt second first rounds greater) (not_lt.mpr ordered)

/-! ### What numbers are rounded to -/

/-- The nearest whole number; in the middle the even one. -/
theorem exists_nearest (nonneg : 0 ≤ x) :
    ∃ nearest : Nat, (nearest : ℚ) - 1 / 2 ≤ x ∧ x ≤ nearest + 1 / 2 ∧
      (nearest % 2 = 1 → (nearest : ℚ) - 1 / 2 < x ∧ x < nearest + 1 / 2) := by
  have low := Nat.floor_le nonneg
  have high := Nat.lt_floor_add_one x
  generalize Nat.floor x = whole at low high
  rcases lt_trichotomy x (whole + 1 / 2) with below | middle | above
  · exact ⟨whole, by linarith, below.le, fun _ => ⟨by linarith, below⟩⟩
  · rcases Nat.mod_two_eq_zero_or_one whole with even | odd
    · exact ⟨whole, by linarith, middle.le, fun odd => by omega⟩
    · refine ⟨whole + 1, ?_, ?_, fun odd => by omega⟩
      · push_cast
        linarith
      · push_cast
        linarith
  · refine ⟨whole + 1, ?_, ?_, fun _ => ⟨?_, ?_⟩⟩ <;> push_cast <;> linarith

theorem half_least : (2 : ℚ) ^ (-1075 : Int) = 1 / 2 * 2 ^ (-1074 : Int) := by
  have next : (-1074 : Int) = -1075 + 1 := rfl
  rw [next, zpow_add_one₀ two_ne_zero]
  generalize (2 : ℚ) ^ (-1075 : Int) = half
  ring

theorem exists_roundsTo (above : 2 ^ (-1075 : Int) < x) :
    ∃ mantissa exponent, IsReduced mantissa exponent ∧ RoundsTo mantissa exponent x := by
  have positive : 0 < x := lt_trans (by positivity) above
  let exponent : Int := max (Int.log 2 x - 52) (-1074)
  have unit : (0 : ℚ) < 2 ^ exponent := by positivity
  have low : (2 : ℚ) ^ Int.log 2 x ≤ x := Int.zpow_log_le_self (by norm_num) positive
  have high : x < 2 ^ (Int.log 2 x + 1) := Int.lt_zpow_succ_log_self (by norm_num) x
  obtain ⟨nearest, below, beyond, open_ends⟩ := exists_nearest (div_nonneg positive.le unit.le)
  rw [le_div_iff₀ unit] at below
  rw [div_le_iff₀ unit] at beyond
  rw [lt_div_iff₀ unit, div_lt_iff₀ unit] at open_ends
  have nonzero : 0 < nearest := by
    refine Nat.pos_of_ne_zero fun zero => ?_
    rw [zero, Nat.cast_zero, zero_add] at beyond
    have least : -1074 < exponent := by
      by_contra notAbove
      have same : exponent = -1074 := le_antisymm (not_lt.mp notAbove) (le_max_right _ _)
      rw [same, ← half_least] at beyond
      exact absurd above (not_lt.mpr beyond)
    have exact : Int.log 2 x = exponent + 52 := by omega
    rw [exact, zpow_add₀ two_ne_zero] at low
    have large : (1 : ℚ) * 2 ^ exponent ≤ 2 ^ exponent * 2 ^ (52 : Int) := by
      rw [mul_comm]
      exact mul_le_mul_of_nonneg_left (one_le_zpow₀ one_le_two (by norm_num)) unit.le
    linarith
  have small : nearest ≤ 2 ^ 53 := by
    have top : x < 2 ^ 53 * 2 ^ exponent := by
      refine high.trans_le ?_
      rw [← zpow_natCast, ← zpow_add₀ two_ne_zero]
      exact zpow_le_zpow_right₀ one_le_two (by omega)
    have bound := lt_of_mul_lt_mul_right (below.trans_lt top) unit.le
    have next : (nearest : ℚ) < (2 ^ 53 + 1 : Nat) := by
      push_cast
      linarith
    exact Nat.lt_succ_iff.mp (by exact_mod_cast next)
  have full : 2 ^ 52 ≤ nearest ∧ (2 ^ 52 : ℚ) * 2 ^ exponent ≤ x ∨ exponent = -1074 := by
    by_cases least : exponent = -1074
    · exact .inr least
    · have exact : Int.log 2 x = 52 + exponent := by omega
      rw [exact, zpow_add₀ two_ne_zero] at low
      have inside : (2 ^ 52 : ℚ) * 2 ^ exponent ≤ x := by exact_mod_cast low
      have bound := le_of_mul_le_mul_right (inside.trans beyond) unit
      have next : ((2 ^ 52 : Nat) : ℚ) < (nearest + 1 : Nat) := by
        push_cast
        linarith
      exact .inl ⟨Nat.lt_succ_iff.mp (by exact_mod_cast next), inside⟩
  rcases Nat.lt_or_eq_of_le small with less | rfl
  · refine ⟨nearest, exponent, ⟨nonzero, less, le_max_right _ _, full.imp_left And.left⟩, ?_, beyond,
      open_ends⟩
    split
    · rename_i bottom
      have inside := (full.resolve_right (by omega)).2
      refine le_trans (mul_le_mul_of_nonneg_right ?_ unit.le) inside
      rw [bottom.1]
      norm_num
    · exact below
  · -- The mantissa overflows, and the next power of two is the nearest double.
    have least : -1074 ≤ exponent := le_max_right _ _
    have power : (2 : ℚ) ^ (exponent + 1) = 2 * 2 ^ exponent := by
      rw [zpow_add_one₀ two_ne_zero, mul_comm]
    refine ⟨2 ^ 52, exponent + 1, ⟨by norm_num, by norm_num, by omega, .inl le_rfl⟩, ?_, ?_,
      fun odd => absurd odd (by norm_num)⟩
    · rw [if_pos ⟨rfl, by omega⟩, power]
      push_cast at below ⊢
      linarith
    · rw [power]
      push_cast at beyond ⊢
      linarith

/-- What is at most half of the least double is rounded to nothing. -/
theorem IsRounding.eq_zero {sign : Sign} {result : UnpackedFloat} (rounding : IsRounding sign x result)
    (nonneg : 0 ≤ x) (small : x ≤ 2 ^ (-1075 : Int)) : result = .zero sign := by
  obtain @⟨count, shift, accuracy, enough, knows⟩ := rounding
  have unit : (0 : ℚ) < 2 ^ shift := by positivity
  have least : Rounding.target count shift = -1074 := by
    rw [target_eq] at enough ⊢
    by_cases nothing : count = 0
    · simp only [nothing, Nat.log2_zero] at enough ⊢
      omega
    · have between := knows.bounds
      rw [mantissa_ofMantissaAndAccuracy, le_div_iff₀ unit, div_lt_iff₀ unit] at between
      have lower := (two_zpow_log2_le nothing between.1 between.2).1
      have order := (zpow_le_zpow_iff_right₀ one_lt_two).mp (lower.trans small)
      omega
  let steps := (Rounding.target count shift - shift).toNat
  have arrival : shift + steps = -1074 := by omega
  have first : shiftToTargetExponent Format.binary64 count shift accuracy =
      (ExtendedMantissa.ofMantissaAndAccuracy count accuracy >>> steps, -1074) :=
    Prod.ext rfl arrival
  have shifted := knows.shiftRight steps
  rw [div_div, ← zpow_natCast, ← zpow_add₀ two_ne_zero, arrival] at shifted
  have rounded : (ExtendedMantissa.ofMantissaAndAccuracy count accuracy >>>
      steps).roundedMantissa = 0 := by
    refine shifted.roundedMantissa_eq ?_ ?_ (fun odd => absurd odd (by norm_num))
    · refine le_trans ?_ (div_nonneg nonneg (by positivity))
      norm_num
    · rw [div_le_iff₀ (by positivity), Nat.cast_zero, zero_add, ← half_least]
      exact small
  have second := shiftToTargetExponent_of_lt (Nat.two_pow_pos 53) (le_refl (-1074))
  rw [roundWithAccuracy, first]
  dsimp only
  rw [rounded, second, dif_pos rfl]

end Rounding

/-! ### Products -/

namespace Double

open Rounding

/-- The double is what a positive number is rounded to; infinite, if the exponent is too large. -/
inductive IsRounded (x : Float) (q : ℚ) : Prop
  | nothing : x = Float.ofNat 0 → q ≤ 2 ^ (-1075 : Int) → IsRounded x q
  | number {mantissa : Nat} {exponent : Int} (reduced : IsReduced mantissa exponent) :
    x = Float.ofModel (Float.Model.pack (.finite .positive mantissa exponent reduced.pos)) →
      RoundsTo mantissa exponent q → IsRounded x q

theorem ofNat_zero_eq : Float.ofNat 0 = Float.ofModel (Float.Model.pack (.zero .positive)) := by
  decide +kernel

/-- A product of doubles is rounded as that of the numbers, and the signs make its sign. -/
theorem mul_rounded {x y : Float} {sign sign' : Sign} {mantissa mantissa' : Nat}
    {exponent exponent' : Int} {positive : 0 < mantissa} {positive' : 0 < mantissa'}
    (first : x.toModel.unpack = .finite sign mantissa exponent positive)
    (second : y.toModel.unpack = .finite sign' mantissa' exponent' positive') :
    let product : ℚ := mantissa * 2 ^ exponent * (mantissa' * 2 ^ exponent')
    product ≤ 2 ^ (-1075 : Int) ∧
        x * y = Float.ofModel (Float.Model.pack (.zero (sign * sign'))) ∨
      2 ^ (-1075 : Int) < product ∧ ∃ mantissa exponent,
        ∃ reduced : IsReduced mantissa exponent, RoundsTo mantissa exponent product ∧
          x * y = Float.ofModel (Float.Model.pack
            (.finite (sign * sign') mantissa exponent reduced.pos)) := by
  intro product
  have enough := mul_enough (isCanonical_of_unpack first).toIsReduced
    (isCanonical_of_unpack second).toIsReduced
  have multiplied : x * y = Float.ofModel (Float.Model.pack (UnpackedFloat.mul Format.binary64
      (.finite sign mantissa exponent positive) (.finite sign' mantissa' exponent' positive'))) := by
    rw [← first, ← second]
    rfl
  have rounding := isRounding_mul sign sign' positive positive' enough
  rcases le_or_gt product (2 ^ (-1075 : Int)) with small | large
  · exact .inl ⟨small, by rw [multiplied, rounding.eq_zero (by positivity) small]⟩
  · obtain ⟨rounded, power, reduced, rounds⟩ := exists_roundsTo large
    exact .inr ⟨large, rounded, power, reduced, rounds, by
      rw [multiplied, rounding.eq reduced rounds]⟩

theorem StandsFor.isRounded_mul {x y : Float} {p q : ℚ} (first : StandsFor x p)
    (second : StandsFor y q) : IsRounded (x * y) (p * q) := by
  obtain ⟨_, _, _, unpacked, rfl⟩ := first
  obtain ⟨_, _, _, unpacked', rfl⟩ := second
  rcases mul_rounded unpacked unpacked' with ⟨small, zero⟩ | ⟨-, _, _, reduced, rounds, number⟩
  · exact .nothing (zero.trans ofNat_zero_eq.symm) small
  · exact .number reduced number rounds

end Double

end Stagecraft
