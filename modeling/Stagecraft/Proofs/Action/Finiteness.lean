/-
This file says when what is worked out for an action is finite. Steps are finite where the product
of duration and rate is, and they are not close to zero unless they are zero. So if no number is too
large, only a movement by an offset leads to something infinite, and it does so exactly if it takes
time and its steps are zero.
-/

import Stagecraft.Proofs.Action.Lasting
import Stagecraft.Proofs.Effect.Demands
import Stagecraft.Proofs.Logic.Finiteness
import Stagecraft.Proofs.Program.Contracts
import Stagecraft.Proofs.Scalar.Magnitudes

namespace Stagecraft

open Float.Model Double

/-! ### Steps -/

/-- The double that is above all numbers. -/
def Double.infinity : Float :=
  Float.ofModel (Float.Model.pack (.infinity .positive))

/-- Any number is divided by infinity to zero. -/
theorem Double.isFinite_div_infinity {x : Float} (finite : Scalar.isFinite x) :
    Scalar.isFinite (x / infinity) := by
  change x.toModel.unpack.isFinite = true at finite
  have unpacked : infinity.toModel.unpack = .infinity .positive := rfl
  show Rounding.Fits (UnpackedFloat.div Format.binary64 x.toModel.unpack infinity.toModel.unpack)
  rw [unpacked]
  cases seen : x.toModel.unpack with
  | infinity | notANumber =>
    rw [seen] at finite
    cases finite
  | zero sign | finite sign => exact Rounding.fits_zero _

namespace Timing

/-- What is divided by, as the product of duration and rate has it. -/
inductive Divides (timing : Timing Float) : Prop
  | byZero : Scalar.isFinite (timing.duration * timing.rate) →
    ¬Ticks.tolerance < timing.duration * timing.rate → timing.steps = Float.ofNat 0 → Divides timing
  | byNumber {s : ℚ} : Scalar.isFinite (timing.duration * timing.rate) →
    Ticks.tolerance < timing.duration * timing.rate → StandsFor timing.steps s →
    2 ^ (-30 : Int) < s → Divides timing
  | byInfinity : ¬Scalar.isFinite (timing.duration * timing.rate) →
    Ticks.tolerance < timing.duration * timing.rate → timing.steps = infinity → Divides timing

variable {timing : Timing Float}

theorem divides (finite : Scalar.isFinite timing.duration) (timed : timing.isTimed)
    (finiteRate : Scalar.isFinite timing.rate) (forward : 0 < timing.rate) : timing.Divides := by
  obtain ⟨p, duration⟩ := exists_standsFor finite (of_decide_eq_true timed)
  obtain ⟨q, rate⟩ := exists_standsFor finiteRate forward
  rcases (duration.isRounded_mul rate).zero_or with zero | ⟨r, stands⟩ | infinite
  · refine .byZero ?_ ?_ ?_
    · rw [zero]
      decide +kernel
    · rw [zero]
      decide +kernel
    · show Ticks.settle (timing.duration * timing.rate) = _
      rw [zero, settle_zero]
  · have isFinite := (stands.isWithin le_rfl).isFinite
    by_cases above : Ticks.tolerance < timing.duration * timing.rate
    · obtain ⟨s, settled, notTiny⟩ := stands.exists_settle above
      exact .byNumber isFinite above settled notTiny
    · exact .byZero isFinite above (stands.settle_eq_zero above)
  · refine .byInfinity ?_ ?_ ?_
    · rw [infinite]
      decide +kernel
    · rw [infinite]
      decide +kernel
    · show Ticks.settle (timing.duration * timing.rate) = _
      rw [infinite, settle_infinity, infinity]

/-- An action happens at once, or takes time and divides by its steps. -/
theorem instant_or_divides (magnitude : Scalar.isMagnitude timing.duration)
    (finiteRate : Scalar.isFinite timing.rate) (forward : 0 < timing.rate) :
    timing.isInstant = true ∧ ¬timing.isTimed ∨
      timing.isInstant = false ∧ timing.isTimed ∧ timing.Divides := by
  have measured := Measuring.beq_zero_iff timing.duration magnitude
  by_cases timed : timing.isTimed
  · refine .inr ⟨?_, timed, ?_⟩
    · exact Bool.eq_false_iff.mpr fun isZero => measured.mp isZero (of_decide_eq_true timed)
    · exact divides (Bool.and_eq_true_iff.mp magnitude).1 timed finiteRate forward
  · exact .inl ⟨measured.mpr fun lasting => timed (decide_eq_true lasting), timed⟩

theorem Divides.isFinite_steps_iff (divides : timing.Divides) :
    Scalar.isFinite timing.steps ↔ Scalar.isFinite (timing.duration * timing.rate) := by
  cases divides with
  | byZero finite _ zero =>
    rw [zero]
    exact iff_of_true (by decide +kernel) finite
  | byNumber finite _ stands _ => exact iff_of_true (stands.isWithin le_rfl).isFinite finite
  | byInfinity endless _ infinite =>
    rw [infinite]
    exact iff_of_false (by decide +kernel) endless

/-- A number that is not too large has a finite quotient exactly if the product of duration and rate
is above the tolerance. -/
theorem Divides.isFinite_div_iff (divides : timing.Divides) {x : Float}
    (moderate : IsModerate x) :
    Scalar.isFinite (x / timing.steps) ↔ Ticks.tolerance < timing.duration * timing.rate := by
  have within := moderate.isWithin
  cases divides with
  | byZero _ notAbove zero =>
    rw [zero]
    exact iff_of_false (not_isFinite_div_zero x) notAbove
  | byNumber _ above stands notTiny =>
    refine iff_of_true (within.isFinite_div (le_refl 1023) stands ?_) above
    rw [div_le_iff₀ stands.pos]
    calc (2 : ℚ) ^ (990 : Int) ≤ 2 ^ (1023 : Int) * 2 ^ (-30 : Int) := by
          rw [← zpow_add₀ two_ne_zero]
          exact zpow_le_zpow_right₀ one_le_two (by norm_num)
      _ ≤ _ := mul_le_mul_of_nonneg_left notTiny.le (by positivity)
  | byInfinity _ above infinite =>
    rw [infinite]
    exact iff_of_true (isFinite_div_infinity within.isFinite) above

end Timing

/-! ### Actions -/

/-- The offset by which a movement goes. -/
def Effect.offset? {α : Type} : Effect α → Option (Vec α)
  | .move ⟨.relative offset, _⟩ => some offset
  | _ => none

namespace Instance

variable {action : Instance Float}

/-- Nothing that is given is so large that what is worked out from it is infinite. A turn is finite
itself, since nothing is said about sines. -/
structure IsModerate (action : Instance Float) : Prop where
  ticks : Scalar.isFinite (action.timing.duration * action.timing.rate)
  offset : ∀ offset ∈ action.effect.offset?, ∀ axis, Double.IsModerate (offset.get axis)
  turn : ∀ motion, action.effect = .move motion → motion.turn.Meets .finite ∧
    (action.isTimed → motion.turn.WorksOut .finite action.timing.steps)

/-- What is worked out for a moderate action is finite, unless it moves by an offset in a time that
is too short to last. -/
theorem IsModerate.worksOut_iff (moderate : action.IsModerate)
    (magnitude : Scalar.isMagnitude action.timing.duration)
    (finiteRate : Scalar.isFinite action.timing.rate) (forward : 0 < action.timing.rate) :
    action.WorksOut .finite ↔ (action.isTimed → action.effect.offset?.isSome →
      Ticks.tolerance < action.timing.duration * action.timing.rate) := by
  obtain ⟨number, label, targets, timing, effect⟩ := action
  obtain ⟨ticks, offset, turn⟩ := moderate
  rcases timing.instant_or_divides magnitude finiteRate forward with
    ⟨instant, notTimed⟩ | ⟨notInstant, timed, divides⟩
  · have still {promised : Prop} : timing.isInstant = false → promised := by simp [instant]
    refine iff_of_true ?_ (absurd · notTimed)
    cases effect with
    | move motion => exact ⟨(turn _ rfl).1, still⟩
    | fade | sound | restore => exact still
    | timeline | toggle => trivial
  · have finite := divides.isFinite_steps_iff.mpr ticks
    have none {promised : Prop} : Option.isSome (none : Option (Vec Float)) → promised := by simp
    refine Iff.trans ?_ (imp_iff_right timed).symm
    cases effect with
    | move motion =>
      obtain ⟨shift, rotation⟩ := motion
      obtain ⟨turns, inTick⟩ := turn _ rfl
      rw [WorksOut, Effect.WorksOut, and_iff_right turns, imp_iff_right notInstant,
        and_iff_left (inTick timed)]
      cases shift with
      | stay => exact iff_of_true trivial none
      | absolute goal reference => exact iff_of_true finite none
      | relative way =>
        have each (axis : Axis) := divides.isFinite_div_iff (offset way rfl axis)
        constructor
        · exact fun every _ => (each .x).mp (every .x)
        · exact fun lasts axis => (each axis).mpr (lasts rfl)
    | fade | sound | restore => exact iff_of_true (fun _ => finite) none
    | timeline | toggle => exact iff_of_true trivial none

end Instance

end Stagecraft
