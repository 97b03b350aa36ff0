/-
This file shows that watching a sensor is sound logic, as long as what it dispatches is. The level
is a condition that is named once and read as a condition, and it is stored as a number; what the
sensor names beforehand are numbers. A sensor that was made looks at known objects only.
-/

import Stagecraft.Proofs.Logic.Kinds
import Stagecraft.Proofs.Trigger.Sensing
import Stagecraft.Trigger.Watching

namespace Stagecraft

variable {α : Type}

/-! ### Sensors -/

namespace Sensor

/-- The objects that a sensor looks at. -/
def objects : Sensor α → List String
  | .orientation subject _ _ => [subject]
  | .proximity subject (.point _) _ => [subject]
  | .proximity subject (.object id) _ => [subject, id]
  | .lookAt (.object id) _ => [headId, id]
  | .lookAt _ _ => [headId]
  | .movement subject _ => [subject]
  | .volume subject _ _ _ => [subject]
  | .selection => []

/-- The temporaries that a sensor names before its level. -/
def kinds : Sensor α → Kinds
  | .proximity .. => [(distanceName, .number)]
  | .movement .. => [(movedName, .number)]
  | .volume .. => [(marginName, .number)]
  | _ => []

variable {known : String → Bool} {sensor : Sensor α} (sees : ∀ id ∈ sensor.objects, known id)

theorem areNumbers_lastPosition (watch : Watch) (kinds : Kinds) :
    (lastPosition watch : Vec (Expr α)).AreNumbers known kinds :=
  Vec.areNumbers_ofAxes fun _ => Slot.isNumber_read _

section

variable [Scalar α]

@[simp] theorem isCondition_isBelow {kinds : Kinds} (value previous : Expr α)
    (threshold epsilon : α) :
    (value.isBelow threshold epsilon previous).IsCondition known kinds ↔
      value.IsNumber known kinds ∧ previous.IsNumber known kinds := by
  simp [Expr.isBelow]

@[simp] theorem isCondition_isAbove {kinds : Kinds} (value previous : Expr α)
    (threshold epsilon : α) :
    (value.isAbove threshold epsilon previous).IsCondition known kinds ↔
      value.IsNumber known kinds ∧ previous.IsNumber known kinds := by
  simp [Expr.isAbove]

omit [Scalar α] in
theorem isCondition_isInside {kinds : Kinds} {position : Vec (Expr α)}
    (numbers : position.AreNumbers known kinds) (least greatest : Vec α) {margin : Expr α}
    (isNumber : margin.IsNumber known kinds) :
    (isInside position least greatest margin).IsCondition known kinds := by
  simp [isInside, isNumber, numbers .x, numbers .y, numbers .z]

include sees

theorem after?_before (epsilon : α) (watch : Watch) :
    Block.after? known [] (sensor.before epsilon watch) = some sensor.kinds := by
  have single {name : String} {value : Expr α} (isNumber : value.IsNumber known []) :
      Block.after? known [] [.bind name value] = some [(name, .number)] := by
    rw [Block.after?_cons, Stmt.after?_bind _ isNumber]
    rfl
  cases sensor with
  | proximity subject anchor distance =>
    refine single (Vec.AreNumbers.lengthExpr (.sub (Vec.areNumbers_positionOf ?_) ?_))
    · cases anchor <;> exact sees subject List.mem_cons_self
    · cases anchor with
      | point position => exact Vec.areNumbers_constant position
      | object id => exact Vec.areNumbers_positionOf (sees id (by simp [objects]))
  | movement subject distance =>
    exact single (Vec.AreNumbers.lengthExpr
      (.sub (Vec.areNumbers_positionOf (sees subject List.mem_cons_self))
        (areNumbers_lastPosition watch [])))
  | volume => exact single (by simp)
  | _ => exact Block.after?_nil

theorem isSound_after (watch : Watch) : Block.IsSound known (sensor.after watch) := by
  cases sensor with
  | movement subject distance =>
    have isKnown := sees subject List.mem_cons_self
    refine .append (Block.isSound_map fun axis _ => ?_) (Block.isSound_singleton.mpr (by simp))
    exact (Stmt.isSound_write _ _).mpr (Vec.areNumbers_positionOf isKnown axis)
  | _ => exact Block.isSound_nil

end

variable [Trigonometric α]

include sees in
theorem isCondition_level (epsilon : α) (watch : Watch) :
    (sensor.level epsilon watch).IsCondition known sensor.kinds := by
  cases sensor with
  | orientation subject direction angle =>
    have isKnown := sees subject List.mem_cons_self
    exact (isCondition_isBelow _ _ _ _).mpr ⟨(Vec.areNumbers_forwardOf isKnown).angleExpr
      (Vec.areNumbers_constant direction), Slot.isNumber_read _⟩
  | proximity => simp [level, kinds, distanceName]
  | lookAt target angle =>
    refine (isCondition_isBelow _ _ _ _).mpr ⟨?_, Slot.isNumber_read _⟩
    have isKnown : known headId := by cases target <;> exact sees headId List.mem_cons_self
    refine (Vec.areNumbers_forwardOf isKnown).angleExpr ?_
    cases target with
    | point position =>
      exact (Vec.areNumbers_constant position).sub (Vec.areNumbers_positionOf isKnown)
    | direction direction => exact Vec.areNumbers_constant direction
    | object id =>
      exact (Vec.areNumbers_positionOf (sees id (by simp [objects]))).sub
        (Vec.areNumbers_positionOf isKnown)
  | movement => simp [level, kinds, movedName]
  | volume subject least greatest crossing =>
    have isKnown := sees subject List.mem_cons_self
    exact isCondition_isInside (Vec.areNumbers_positionOf isKnown) least greatest
      ((Expr.isNumber_var marginName).mpr (by simp [kinds]))
  | selection => simp [level]

/-- Every object that a sensor looks at was looked up when the sensor was made. -/
theorem isAddressable_of_ofCondition {directory : Directory α} {context : Context}
    {condition : Condition α} (made : ofCondition directory context condition = .ok sensor) :
    ∀ id ∈ sensor.objects, directory.isAddressable id := by
  have headKnown : directory.isAddressable headId := Directory.isAddressable_iff.mpr (.inl rfl)
  cases made_of_ofCondition made with
  | orientation _ _ _ known | nearPoint _ _ _ known | movement _ _ known | volume _ _ _ _ known =>
    simpa [objects] using known
  | nearObject _ _ _ known known' => simpa [objects] using ⟨known, known'⟩
  | atPoint | along => simpa [objects] using headKnown
  | atObject _ _ known => simpa [objects] using ⟨headKnown, known⟩

end Sensor

/-! ### Watches -/

theorem Edge.isCondition_fires {known : String → Bool} {kinds : Kinds} (edge : Edge)
    (remain : Bool) {present wasSet : Expr α} (isPresent : present.IsCondition known kinds)
    (isWasSet : wasSet.IsCondition known kinds) :
    (edge.fires remain present wasSet).IsCondition known kinds := by
  cases edge <;> cases remain <;> simp [fires, isPresent, isWasSet]

namespace Watch

variable [Trigonometric α] {known : String → Bool}

theorem isCondition_isEnabled (watch : Watch) (declared : Bool) :
    (watch.isEnabled declared : Expr α).IsCondition known [] := by
  rw [isEnabled]
  split <;> simp

theorem isSound_evaluate (watch : Watch) {sensor : Sensor α}
    (sees : ∀ id ∈ sensor.objects, known id) (epsilon : α) (remain : Bool) {dispatch : Block α}
    (sound : Block.IsSound known dispatch) :
    Block.IsSound known (watch.evaluate sensor epsilon remain dispatch) := by
  let kinds : Kinds := (levelName, .condition) :: sensor.kinds
  have present : (Expr.var levelName : Expr α).IsCondition known kinds :=
    (Expr.isCondition_var levelName).mpr (by simp [kinds])
  have guarded : Block.after? known kinds (if Block.isIdle dispatch then []
      else [.onlyIf (sensor.edge.fires remain (.var levelName)
        (Slot.watch watch .previous).read.isSet) dispatch]) = some kinds := by
    have fires := sensor.edge.isCondition_fires remain present
      ((Expr.isCondition_isSet _).mpr (Slot.isNumber_read (.watch watch .previous)))
    split
    · exact Block.after?_nil
    · rw [Block.after?_cons, Stmt.after?_onlyIf fires (sound.isSome kinds), Option.bind_some,
        Block.after?_nil]
  refine Block.isSound_append_of_after (?_ : Block.after? known [] _ = some kinds) ?_
  · rw [Block.after?_append, Sensor.after?_before sees, Option.bind_some, Block.after?_cons,
      Stmt.after?_bind _ (Sensor.isCondition_level sees epsilon watch)]
    exact guarded
  · rw [Block.after?_cons, Stmt.after?_write _ ((Expr.isNumber_flag _).mpr present)]
    exact (Sensor.isSound_after sees watch).isSome kinds

end Watch

end Stagecraft
