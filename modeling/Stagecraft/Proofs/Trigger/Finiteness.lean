/-
This file says which triggers work out: those whose threshold is not so large, nor their epsilon,
that the band between them is infinite.
-/

import Stagecraft.Proofs.Logic.Finiteness
import Stagecraft.Proofs.Scalar.Magnitudes
import Stagecraft.Proofs.Trigger.Demands

namespace Stagecraft

/-- The threshold of the condition, if it has one. -/
def Condition.threshold? {α : Type} : Condition α → Option α
  | .orientation _ _ threshold => some threshold
  | .proximity _ _ threshold => some threshold
  | .lookAt _ threshold => some threshold
  | .movement _ threshold => some threshold
  | .volume .. => none

/-- Neither the threshold nor epsilon is so large that the band around the threshold is infinite. -/
structure Trigger.IsModerate (trigger : Trigger Float) : Prop where
  epsilon : Double.IsModerate trigger.epsilon
  threshold : ∀ threshold ∈ trigger.condition.threshold?, Double.IsModerate threshold

theorem Double.IsModerate.bandWorksOut {threshold epsilon : Float} (moderate : IsModerate threshold)
    (moderate' : IsModerate epsilon) :
    BandWorksOut .finite (threshold - epsilon) epsilon ∧
      BandWorksOut .finite (threshold + epsilon) epsilon := by
  have twice : (2 : ℚ) * 2 ^ (990 : Int) = 2 ^ (990 + 1 : Int) := by
    rw [zpow_add_one₀ two_ne_zero, mul_comm]
  have two : IsWithin 2 Scalar.two := (standsFor_ofNat two_pos (by norm_num)).isWithin (by norm_num)
  have width := two.isFinite_mul (by norm_num) moderate'.isWithin twice.le
  obtain ⟨sum, difference⟩ := moderate.isWithin.isFinite_add (by norm_num) moderate'.isWithin
    ((two_mul _).symm.trans_le twice.le)
  exact ⟨⟨difference, width⟩, sum, width⟩

theorem Trigger.IsModerate.worksOut {trigger : Trigger Float} (moderate : trigger.IsModerate) :
    trigger.WorksOut .finite := by
  obtain ⟨epsilon, threshold⟩ := moderate
  rw [WorksOut]
  cases seen : trigger.condition with
  | volume => trivial
  | movement _ distance =>
    rw [seen] at threshold
    exact ((threshold distance rfl).bandWorksOut epsilon).2
  | orientation _ _ limit | proximity _ _ limit | lookAt _ limit =>
    rw [seen] at threshold
    exact ((threshold limit rfl).bandWorksOut epsilon).1

end Stagecraft
