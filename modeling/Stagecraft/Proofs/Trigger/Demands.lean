/-
This file says which numbers a trigger brings into logic that are not given but worked out: where
the band around its threshold begins, and how wide it is. All other numbers of a condition are
finite once it has been checked, so what the trigger watches meets a demand exactly if those do.
-/

import Stagecraft.Proofs.Effect.Demands
import Stagecraft.Proofs.Trigger.Sensing
import Stagecraft.Trigger.Watching

namespace Stagecraft

variable {α : Type} [Trigonometric α] {demand : Demand α}

/-! ### What is worked out -/

/-- The beginning of a band and its width are as demanded. -/
@[mk_iff bandWorksOut_iff]
structure BandWorksOut (demand : Demand α) (beginning epsilon : α) : Prop where
  beginning : demand.number beginning
  width : demand.number (Scalar.two * epsilon)

/-- The numbers that are worked out for the condition are as demanded. -/
def Condition.WorksOut (demand : Demand α) (epsilon : α) : Condition α → Prop
  | .orientation _ _ threshold => BandWorksOut demand (threshold - epsilon) epsilon
  | .proximity _ _ threshold => BandWorksOut demand (threshold - epsilon) epsilon
  | .lookAt _ threshold => BandWorksOut demand (threshold - epsilon) epsilon
  | .movement _ threshold => BandWorksOut demand (threshold + epsilon) epsilon
  | .volume .. => True

def Trigger.WorksOut (demand : Demand α) (trigger : Trigger α) : Prop :=
  trigger.condition.WorksOut demand trigger.epsilon

/-- Where nothing is asked of numbers, nothing has to be worked out. -/
theorem Trigger.worksOut_of_forall (each : ∀ value, demand.number value) (trigger : Trigger α) :
    trigger.WorksOut demand := by
  rw [WorksOut]
  cases trigger.condition with
  | volume => trivial
  | _ => exact ⟨each _, each _⟩

/-! ### Bands -/

namespace Expr

variable {value previous : Expr α} (meets : value.Meets demand) (meets' : previous.Meets demand)
  (threshold epsilon : α)

include meets meets'

theorem meets_isBelow : (value.isBelow threshold epsilon previous).Meets demand ↔
    BandWorksOut demand (threshold - epsilon) epsilon := by
  simp [isBelow, meets, meets', bandWorksOut_iff]

theorem meets_isAbove : (value.isAbove threshold epsilon previous).Meets demand ↔
    BandWorksOut demand (threshold + epsilon) epsilon := by
  simp [isAbove, meets, meets', bandWorksOut_iff]

end Expr

/-! ### Sensors -/

namespace Sensor

theorem meets_isInside {position : Vec (Expr α)} (meets : position.AllMeet demand)
    {least greatest : Vec α} (low : least.Meets demand) (high : greatest.Meets demand)
    {margin : Expr α} (wider : margin.Meets demand) :
    (isInside position least greatest margin).Meets demand := by
  have meets (axis : Axis) : (position.get axis).Meets demand := meets axis
  have low (axis : Axis) : demand.number (least.get axis) := low axis
  have high (axis : Axis) : demand.number (greatest.get axis) := high axis
  simp [isInside, meets, low, high, wider]

variable {directory : Directory α} {condition : Condition α} {sensor : Sensor α}
  (made : Made directory condition sensor) (epsilon : α) (watch : Watch)

include made

theorem Made.meets_level :
    (sensor.level epsilon watch).Meets demand ↔ condition.WorksOut demand epsilon := by
  have previous : (Slot.watch watch .previous).read.Meets demand := Expr.meets_read _
  cases made with
  | orientation subject direction angle _ normalizable =>
    have towards := Vec.Meets.constant (demand.direction normalizable)
    exact Expr.meets_isBelow ((Vec.allMeet_forwardOf _).angleExpr towards) previous _ _
  | nearPoint | nearObject => exact Expr.meets_isBelow (Expr.meets_var _) previous _ _
  | atPoint position angle finite =>
    have line : (lineOfSight (.point position)).AllMeet demand :=
      finite.meets.constant.sub (Vec.allMeet_positionOf headId)
    exact Expr.meets_isBelow ((Vec.allMeet_forwardOf _).angleExpr line) previous _ _
  | along direction angle normalizable =>
    have towards := Vec.Meets.constant (demand.direction normalizable)
    exact Expr.meets_isBelow ((Vec.allMeet_forwardOf _).angleExpr towards) previous _ _
  | atObject id angle =>
    have line : (lineOfSight (.object id)).AllMeet demand :=
      (Vec.allMeet_positionOf id).sub (Vec.allMeet_positionOf headId)
    exact Expr.meets_isBelow ((Vec.allMeet_forwardOf _).angleExpr line) previous _ _
  | movement subject distance =>
    have above := Expr.meets_isAbove (Expr.meets_var movedName) previous distance epsilon
    refine Iff.trans ?_ above
    simp [level]
  | volume subject least greatest crossing _ finite finite' =>
    exact iff_of_true (meets_isInside (Vec.allMeet_positionOf _) finite.meets finite'.meets
      (Expr.meets_var _)) trivial

theorem Made.meets_before (given : demand.number epsilon) :
    Block.Meets demand (sensor.before epsilon watch) := by
  cases made with
  | nearPoint subject position distance _ finite =>
    have other : (anchorPosition (.point position)).AllMeet demand := finite.meets.constant
    simpa [before] using ((Vec.allMeet_positionOf subject.id).sub other).lengthExpr
  | nearObject subject id =>
    have other : (anchorPosition (.object id)).AllMeet demand :=
      Vec.allMeet_positionOf id
    simpa [before] using ((Vec.allMeet_positionOf subject.id).sub other).lengthExpr
  | movement subject =>
    have last : (lastPosition watch).AllMeet demand :=
      Vec.allMeet_ofAxes fun _ => Expr.meets_read _
    simpa [before] using ((Vec.allMeet_positionOf subject.id).sub last).lengthExpr
  | volume => simp [before, given]
  | orientation | atPoint | along | atObject => exact Block.meets_nil

theorem Made.meets_after : Block.Meets demand (sensor.after watch) := by
  cases made with
  | movement subject =>
    simpa [after] using fun axis _ => Vec.allMeet_positionOf subject.id axis
  | _ => exact Block.meets_nil

end Sensor

/-! ### Watches -/

theorem Edge.meets_fires (edge : Edge) (remain : Bool) (watch : Watch) :
    (edge.fires remain (.var Watch.levelName)
      (Slot.watch watch .previous).read.isSet).Meets demand := by
  cases edge <;> cases remain <;> simp [Edge.fires]

theorem Watch.meets_isEnabled (watch : Watch) (declared : Bool) :
    (watch.isEnabled declared).Meets demand := by
  cases declared <;> simp [isEnabled, Effect.enabledState, Effect.disabledState]

/-- Around its level a watch is written as demanded, if its dispatch is. -/
theorem Watch.meets_evaluate (watch : Watch) {sensor : Sensor α} {epsilon : α} (remain : Bool)
    {dispatch : Block α} (before : Block.Meets demand (sensor.before epsilon watch))
    (after : Block.Meets demand (sensor.after watch)) (meets : Block.Meets demand dispatch) :
    Block.Meets demand (watch.evaluate sensor epsilon remain dispatch) ↔
      (sensor.level epsilon watch).Meets demand := by
  have guarded : Block.Meets demand (if Block.isIdle dispatch then []
      else [.onlyIf (sensor.edge.fires remain (.var levelName)
        (Slot.watch watch .previous).read.isSet) dispatch]) := by
    split <;> simp [Edge.meets_fires, meets]
  simp [evaluate, before, after, guarded]

end Stagecraft
