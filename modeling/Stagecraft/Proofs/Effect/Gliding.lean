/-
This file follows a slot that an effect leads to a goal in equal steps. As it begins, the effect
notes the step, which is the whole way from where the slot is to where it goes, divided by their
number. In a tick it adds the step to the slot, and in the end it puts the slot at the goal. Both
only depend on the notes, and for a return on the snapshot.
-/

import Mathlib
import Stagecraft.Proofs.Effect.Arrival
import Stagecraft.Proofs.Logic.Vectors
import Stagecraft.Proofs.Scalar.Exact

namespace Stagecraft

variable {α : Type}

/-! ### Goals -/

namespace World

variable [Scalar α] (world : World α)

/-- The snapshot that an object goes back to; it is taken now if the object has not been set up. -/
def remembered (object : String) (channel : Channel) : α :=
  if world.read object Slot.initialized.key == 0 then world.snapshot object channel
  else world.read object (Slot.captured channel).key

end World

/-- The place that a shift goes to. -/
def Shift.goal [Scalar α] (world : World α) (this : String) : Shift α → Vec α
  | .stay => world.positionOf this
  | .absolute offset none => offset
  | .absolute offset (some object) => world.positionOf object + offset
  | .relative offset => world.positionOf this + offset

/-- Two worlds hold the same notes of an action on an object. -/
def World.SharesNotes [Scalar α] (number : Nat) (this : String) (first second : World α) : Prop :=
  ∀ slot : Slot, slot.IsNote number → second.read this slot.key = first.read this slot.key

theorem World.SharesNotes.trans [Scalar α] {number : Nat} {this : String}
    {first second third : World α} (early : SharesNotes number this first second)
    (late : SharesNotes number this second third) : SharesNotes number this first third :=
  fun slot isNote => (late slot isNote).trans (early slot isNote)

/-- An effect that begins in a world leads a slot of its object in equal steps to a goal. -/
inductive Effect.Leads [Scalar α] (world : World α) (this : String) :
    Effect α → Slot → α → Prop
  | fade (visible : Bool) : Leads world this (.fade visible) .alpha (Scalar.ofBool visible)
  | sound (name : String) (volume : Option α) :
    Leads world this (.sound name volume) (.sound name .volume) (finalVolume volume)
  | shift (shift : Shift α) (turn : Turn α) (axis : Axis) :
    shift.Moves → Leads world this (.move ⟨shift, turn⟩) (.position axis)
      ((shift.goal world this).get axis)
  | turn (shift : Shift α) (goal : Quaternion α) (part : Part) :
    Leads world this (.move ⟨shift, .absolute goal⟩) (.orientation part)
      (((world.orientationOf this).nearer goal).get part)
  | restore (channel : Channel) :
    channel ∈ Channel.gradual → Leads world this .restore (.channel channel)
      (world.remembered this channel)

/-- Slots in which actions keep their state are not led anywhere. -/
theorem Effect.Leads.ne_action [Scalar α] {world : World α} {this : String} {effect : Effect α}
    {slot : Slot} {goal : α} (leads : effect.Leads world this slot goal) (number : Nat)
    (field : ActionField) : slot ≠ .action number field := by
  cases leads <;> simp [Slot.alpha, Slot.position, Slot.orientation]

variable [Trigonometric α] {this : String} {locals : Locals α} {world : World α}

/-! ### Equal steps -/

theorem Expr.eval_perTick (target current : Expr α) (steps : α) :
    (Expr.perTick target current steps).eval world this locals =
      .num (((target.eval world this locals).number -
        (current.eval world this locals).number) / steps) := by
  rw [perTick, eval_div, eval_sub, eval_num, Value.number, Value.number]

namespace Block

variable {ι : Type} {toward channel : ι → Slot} (step : ι → Slot) {indices : List ι}
  (hosted : world.hosts this) (once : indices.Nodup) {index : ι} (member : index ∈ indices)

include hosted once member

/-- Steps are computed one beside the other. -/
theorem read_assign_perTick (injective : Function.Injective step)
    (apart : ∀ first second, toward first ≠ step second ∧ channel first ≠ step second) (steps : α) :
    (runAll this locals world (assign step (fun index =>
      .perTick (toward index).read (channel index).read steps) indices)).read this
        (step index).key =
      (world.read this (toward index).key - world.read this (channel index).key) / steps := by
  have ignores (index : ι) : (Expr.perTick (toward index).read (channel index).read steps).Ignores
      this locals fun other => ∃ beside, beside ≠ index ∧ other = step beside := by
    intro first second same
    rw [Expr.eval_perTick, Expr.eval_perTick]
    rw [Expr.ignores_read (fun ⟨beside, _, clash⟩ => (apart index beside).1 clash) _ _ same,
      Expr.ignores_read (fun ⟨beside, _, clash⟩ => (apart index beside).2 clash) _ _ same]
  rw [read_assign _ _ hosted once injective ignores member, Expr.eval_perTick, Slot.eval_read,
    Slot.eval_read, Value.number, Value.number, Value.number]

/-- Steps are taken one beside the other. -/
theorem read_assign_step (injective : Function.Injective channel)
    (apart : ∀ first second, step first ≠ channel second) :
    (runAll this locals world (assign channel (fun index =>
      ((channel index).read + (step index).read : Expr α)) indices)).read this
        (channel index).key =
      world.read this (channel index).key + world.read this (step index).key := by
  have ignores (index : ι) : ((channel index).read + (step index).read : Expr α).Ignores this
      locals fun other => ∃ beside, beside ≠ index ∧ other = channel beside :=
    (Expr.ignores_read fun ⟨_, other, clash⟩ => other (injective clash).symm).add
      (Expr.ignores_read fun ⟨_, _, clash⟩ => apart _ _ clash)
  rw [read_assign _ _ hosted once injective ignores member, Expr.eval_add, Slot.eval_read,
    Slot.eval_read, Value.number, Value.number, Value.number]

end Block

namespace Effect

open Block

variable {number : Nat} {steps : α} (hosted : world.hosts this)

include hosted

/-! ### Fades -/

theorem read_beginFade (visible : Bool) :
    (runAll this locals world (beginFade number steps visible)).read this
        (Slot.action number .delta).key =
      (Scalar.ofBool visible - world.read this Slot.alpha.key) / steps := by
  have apart : Slot.visible ≠ Slot.alpha := by decide
  simp [beginFade, hosted, World.read_write, Expr.eval_perTick, Value.number, Slot.key_inj, apart]

theorem read_advanceFade :
    (runAll this locals world (advanceFade number)).read this Slot.alpha.key =
      world.read this Slot.alpha.key + world.read this (Slot.action number .delta).key := by
  simp [advanceFade, hosted, World.read_write, Expr.eval_add, Value.number]

theorem read_beginSound (name : String) (volume : Option α) :
    (runAll this locals world (beginSound number steps name volume)).read this
        (Slot.action number .delta).key =
      (finalVolume volume - world.read this (Slot.sound name .volume).key) / steps := by
  let playing : String → Slot → Prop := fun _ slot => slot = .sound name .playing
  have prepared : WritesOnly playing this (prepareSound name volume) := by
    rw [prepareSound]
    split
    · rw [startPlaying, writesOnly_onlyIf, writesOnly_cons, writesOnly_write]
      exact ⟨writesOnly_host, rfl⟩
    · exact writesOnly_nil
  rw [beginSound, runAll_append, runAll_cons, runAll_nil, Slot.run_write, World.read_write,
    if_pos ⟨by rwa [hosts_runAll], rfl, rfl⟩, Expr.eval_perTick, Expr.eval_num, Slot.eval_read,
    prepared.read_runAll (by simp [playing])]
  rfl

theorem read_advanceSound (name : String) :
    (runAll this locals world (advanceSound number name)).read this (Slot.sound name .volume).key =
      world.read this (Slot.sound name .volume).key +
        world.read this (Slot.action number .delta).key := by
  simp [advanceSound, hosted, World.read_write, Expr.eval_add, Value.number]

/-! ### Shifts -/

omit hosted in
theorem number_destination (shift : Shift α) (axis : Axis) :
    ((destination shift axis).eval world this locals).number =
      (shift.goal world this).get axis := by
  cases shift with
  | stay =>
    cases axis <;>
      simp [destination, Shift.goal, World.positionOf, Vec.ofAxes, Vec.get, Value.number]
  | relative offset =>
    rw [destination, Expr.eval_add, Slot.eval_read, Expr.eval_num]
    cases axis <;> rfl
  | absolute offset reference =>
    cases reference with
    | none => cases axis <;> exact congrArg Value.number (Expr.eval_num _ _ _ _)
    | some object =>
      cases axis <;> exact congrArg Value.number (Expr.eval_add _ _ _ _ _)

theorem read_advanceShift {shift : Shift α} (moves : shift.Moves) (axis : Axis) :
    (runAll this locals world (advanceShift number shift)).read this (Slot.position axis).key =
      world.read this (Slot.position axis).key + world.read this (stepSlot number axis).key := by
  have assigned : advanceShift number shift = assign Slot.position
      (fun axis => (Slot.position axis).read + (stepSlot number axis).read) Axis.all := by
    cases shift with
    | stay => cases moves
    | _ => rfl
  rw [assigned]
  refine read_assign_step (stepSlot number) hosted (by decide) axis.mem_all ?_ ?_
  · exact fun first second same => by simpa [Slot.position] using same
  · simp [Slot.position, stepSlot]

theorem read_noteSteps (axis : Axis) :
    (runAll this locals world (noteSteps number steps)).read this (stepSlot number axis).key =
      (world.read this (targetSlot number axis).key -
        world.read this (Slot.position axis).key) / steps := by
  refine read_assign_perTick (stepSlot number) hosted (by decide) axis.mem_all ?_ ?_ steps
  · exact fun first second same => by simpa [stepSlot] using same
  · simp [targetSlot, stepSlot, Slot.position]

/-! ### Turns -/

theorem read_noteTurns (part : Part) :
    (runAll this locals world (noteTurns number steps)).read this (turnSlot number part).key =
      (world.read this (goalSlot number part).key -
        world.read this (Slot.orientation part).key) / steps := by
  refine read_assign_perTick (turnSlot number) hosted (by decide) part.mem_all ?_ ?_ steps
  · exact fun first second same => by simpa [turnSlot] using same
  · simp [goalSlot, turnSlot, Slot.orientation]

/-- A turn to a goal notes the steps towards the nearer name of it. -/
theorem read_beginTurn_step (goal : Quaternion α) (part : Part) :
    (runAll this locals world (beginTurn number steps (.absolute goal))).read this
        (turnSlot number part).key =
      (((world.orientationOf this).nearer goal).get part -
        world.read this (Slot.orientation part).key) / steps := by
  let goals : String → Slot → Prop := fun _ slot => ∃ part, slot = goalSlot number part
  have bounded : WritesOnly goals this (noteGoals number goal) :=
    writesOnly_cons.mpr ⟨writesOnly_bind, writesOnly_assign goals fun part _ => ⟨part, rfl⟩⟩
  rw [beginTurn_absolute, runAll_append, read_noteTurns (by rwa [hosts_runAll]),
    read_noteGoals hosted, bounded.read_runAll (by simp [goals, goalSlot, Slot.orientation])]

theorem read_advanceTurn (goal : Quaternion α) (part : Part) :
    (runAll this locals world (advanceTurn number steps (.absolute goal))).read this
        (Slot.orientation part).key =
      world.read this (Slot.orientation part).key + world.read this (turnSlot number part).key := by
  have assigned : advanceTurn number steps (.absolute goal) = assign Slot.orientation
      (fun part => (Slot.orientation part).read + (turnSlot number part).read) Part.all := rfl
  rw [assigned]
  refine read_assign_step (turnSlot number) hosted (by decide) part.mem_all ?_ ?_
  · exact fun first second same => by simpa [Slot.orientation] using same
  · simp [Slot.orientation, turnSlot]

/-! ### Movements -/

variable (motion : Motion α)

omit hosted in
/-- What a movement notes of its shift is not written again by its turn. -/
theorem read_beginMotion_of_shift {slot : Slot}
    (ofShift : ∃ axis, slot = targetSlot number axis ∨ slot = stepSlot number axis) :
    (runAll this locals world (beginMotion number steps motion)).read this slot.key =
      (runAll this locals world (beginShift number steps motion.shift)).read this slot.key := by
  obtain ⟨axis, ofShift⟩ := ofShift
  let notes : String → Slot → Prop := fun _ slot => ∃ part,
    slot = goalSlot number part ∨ slot = turnSlot number part ∨ slot = originSlot number part
  have bounded : WritesOnly notes this (beginTurn number steps motion.turn) :=
    writesOnly_beginTurn (fun part => ⟨part, .inl rfl⟩) (fun part => ⟨part, .inr (.inl rfl)⟩)
      (fun part => ⟨part, .inr (.inr rfl)⟩) motion.turn
  rw [beginMotion, runAll_append]
  refine bounded.read_runAll ?_ _ _
  rcases ofShift with rfl | rfl <;>
    simp [notes, targetSlot, stepSlot, goalSlot, turnSlot, originSlot]

/-- A movement notes the goal of its turn, and the steps towards it, as if it were a turn only. -/
theorem read_beginMotion_of_turn {goal : Quaternion α} (turns : motion.turn = .absolute goal)
    (part : Part) :
    (runAll this locals world (beginMotion number steps motion)).read this
        (goalSlot number part).key = ((world.orientationOf this).nearer goal).get part ∧
      (runAll this locals world (beginMotion number steps motion)).read this
          (turnSlot number part).key =
        (((world.orientationOf this).nearer goal).get part -
          world.read this (Slot.orientation part).key) / steps := by
  let notes : String → Slot → Prop := fun _ slot => ∃ axis,
    slot = targetSlot number axis ∨ slot = stepSlot number axis
  have bounded : WritesOnly notes this (beginShift number steps motion.shift) :=
    writesOnly_beginShift (fun axis => ⟨axis, .inl rfl⟩) (fun axis => ⟨axis, .inr rfl⟩) motion.shift
  have kept (part : Part) :
      (runAll this locals world (beginShift number steps motion.shift)).read this
        (Slot.orientation part).key = world.read this (Slot.orientation part).key :=
    bounded.read_runAll (by simp [notes, targetSlot, stepSlot, Slot.orientation]) _ _
  have sameTurn : (runAll this locals world (beginShift number steps motion.shift)).orientationOf
      this = world.orientationOf this := by
    rw [World.orientationOf, World.orientationOf, funext kept]
  rw [beginMotion, runAll_append, turns, read_beginTurn_goal (by rwa [hosts_runAll]),
    read_beginTurn_step (by rwa [hosts_runAll]), sameTurn, kept]
  exact ⟨rfl, rfl⟩

/-- Shift and turn do not touch each other in a tick. -/
theorem read_advanceMotion_position (moves : motion.shift.Moves) (axis : Axis) :
    (runAll this locals world (advanceMotion number steps motion)).read this
        (Slot.position axis).key =
      world.read this (Slot.position axis).key + world.read this (stepSlot number axis).key := by
  let parts : String → Slot → Prop := fun _ slot => ∃ part, slot = .orientation part
  have bounded : WritesOnly parts this (advanceTurn number steps motion.turn) :=
    writesOnly_advanceTurn (fun _ part => ⟨part, rfl⟩) steps
  rw [advanceMotion, runAll_append,
    bounded.read_runAll (by simp [parts, Slot.position, Slot.orientation]),
    read_advanceShift hosted moves]

theorem read_advanceMotion_orientation {goal : Quaternion α} (turns : motion.turn = .absolute goal)
    (part : Part) :
    (runAll this locals world (advanceMotion number steps motion)).read this
        (Slot.orientation part).key =
      world.read this (Slot.orientation part).key + world.read this (turnSlot number part).key := by
  let axes : String → Slot → Prop := fun _ slot => ∃ axis, slot = .position axis
  have bounded : WritesOnly axes this (advanceShift number motion.shift) :=
    writesOnly_advanceShift fun _ axis => ⟨axis, rfl⟩
  rw [advanceMotion, runAll_append, turns, read_advanceTurn (by rwa [hosts_runAll]),
    bounded.read_runAll (by simp [axes, Slot.position, Slot.orientation]),
    bounded.read_runAll (by simp [axes, Slot.position, turnSlot])]

/-- Nor do they in the end. -/
theorem read_settleMotion_position (moves : motion.shift.Moves) (axis : Axis) :
    (runAll this locals world (settleMotion number motion)).read this (Slot.position axis).key =
      world.read this (targetSlot number axis).key := by
  let parts : String → Slot → Prop := fun _ slot => ∃ part, slot = .orientation part
  have bounded : WritesOnly parts this (settleTurn number motion.turn) :=
    writesOnly_settleTurn fun _ part => ⟨part, rfl⟩
  rw [settleMotion, runAll_append,
    bounded.read_runAll (by simp [parts, Slot.position, Slot.orientation])]
  exact congrArg (·.getD 0) (entry_settleShift hosted moves axis)

theorem read_settleMotion_orientation {goal : Quaternion α} (turns : motion.turn = .absolute goal)
    (part : Part) :
    (runAll this locals world (settleMotion number motion)).read this (Slot.orientation part).key =
      world.read this (goalSlot number part).key := by
  let axes : String → Slot → Prop := fun _ slot => ∃ axis, slot = .position axis
  have bounded : WritesOnly axes this (settleShift number motion.shift) :=
    writesOnly_settleShift fun _ axis => ⟨axis, rfl⟩
  have kept : (runAll this locals world (settleShift number motion.shift)).read this
      (goalSlot number part).key = world.read this (goalSlot number part).key :=
    bounded.read_runAll (by simp [axes, Slot.position, goalSlot]) locals world
  have hostedTurn : (runAll this locals world (settleShift number motion.shift)).hosts this := by
    rwa [hosts_runAll]
  rw [settleMotion, runAll_append, turns, ← kept]
  exact congrArg (·.getD 0) (entry_settleTurn_absolute hostedTurn goal part)

/-! ### Returns -/

theorem read_captureOnce (channel : Channel) :
    (captureOnce.run this locals world).2.read this (Slot.captured channel).key =
      world.remembered this channel := by
  rw [captureOnce, Stmt.run_onlyIf, Expr.isTruthy_equals_read, World.remembered]
  split
  · exact read_captured hosted locals channel
  · rfl

/-- A return notes the steps towards the snapshot. -/
theorem read_beginRestore {channel : Channel} (gradual : channel ∈ Channel.gradual) :
    (runAll this locals world (beginRestore number steps)).read this
        (Slot.action number (.change channel)).key =
      (world.remembered this channel - world.read this (Slot.channel channel).key) / steps := by
  let lead : Block α := [captureOnce, Slot.visible.write
    (Slot.visible.read.isSet.or (Slot.captured .visible).read.isSet).flag]
  have begins : beginRestore number steps = lead ++
      assign (fun channel => Slot.action number (.change channel))
        (fun channel => .perTick (Slot.captured channel).read (Slot.channel channel).read steps)
        Channel.gradual := rfl
  have notVisible : channel ≠ .visible := by
    rintro rfl
    revert gradual
    decide
  let led : String → Slot → Prop := fun _ slot =>
    slot = .visible ∨ ∃ channel, slot = .captured channel
  have bounded : WritesOnly led this lead := by
    rw [writesOnly_cons, captureOnce, writesOnly_onlyIf, writesOnly_write]
    exact ⟨writesOnly_capture fun channel => .inr ⟨channel, rfl⟩, .inl rfl⟩
  have captured : (runAll this locals world lead).read this (Slot.captured channel).key =
      world.remembered this channel := by
    rw [runAll_cons, runAll_cons, runAll_nil, Slot.run_write, World.read_write,
      if_neg (by simp [Slot.key_inj, Slot.visible]), read_captureOnce hosted]
  rw [begins, runAll_append,
    read_assign_perTick (fun channel => Slot.action number (.change channel))
      (by rwa [hosts_runAll]) (by decide) gradual (fun _ _ same => by simpa using same) (by simp),
    captured,
    bounded.read_runAll (by simp [led, Slot.visible, notVisible])]

theorem read_advanceRestore {channel : Channel} (gradual : channel ∈ Channel.gradual) :
    (runAll this locals world (advanceRestore number)).read this (Slot.channel channel).key =
      world.read this (Slot.channel channel).key +
        world.read this (Slot.action number (.change channel)).key := by
  have assigned : (advanceRestore number : Block α) = assign Slot.channel
      (fun channel => (Slot.channel channel).read + (Slot.action number (.change channel)).read)
      Channel.gradual := rfl
  rw [assigned]
  exact read_assign_step (fun channel => Slot.action number (.change channel)) hosted (by decide)
    gradual (fun _ _ => Slot.channel.inj) (by simp)

end Effect

/-! ### Ways to a goal -/

/-- All that a tick writes is led to a goal, but for the parts of an orientation that turns about an
axis, which goes along an arc. -/
theorem Effect.leads_or_turns (effect : Effect α) (world : World α) (number : Nat) (steps : α) :
    Block.WritesOnly (fun _ slot => (∃ goal, effect.Leads world this slot goal) ∨
      ∃ shift axis angle part, effect = .move ⟨shift, .relative axis angle⟩ ∧
        slot = .orientation part) this (effect.advance number steps) := by
  cases effect with
  | fade visible => exact Block.writesOnly_write.mpr (.inl ⟨_, .fade visible⟩)
  | sound name volume => exact Block.writesOnly_write.mpr (.inl ⟨_, .sound name volume⟩)
  | restore =>
    exact Block.writesOnly_map fun channel gradual =>
      Block.writesOnly_write.mpr (.inl ⟨_, .restore channel gradual⟩)
  | timeline name change => exact Block.writesOnly_nil
  | toggle name enabled => exact Block.writesOnly_nil
  | move motion =>
    obtain ⟨shift, turn⟩ := motion
    refine Block.writesOnly_append.mpr
      ⟨writesOnly_advanceShift fun moves axis => .inl ⟨_, .shift shift turn axis moves⟩, ?_⟩
    cases turn with
    | keep => exact Block.writesOnly_nil
    | absolute goal =>
      exact writesOnly_advanceTurn (fun _ part => .inl ⟨_, .turn shift goal part⟩) steps
    | relative axis angle =>
      exact writesOnly_advanceTurn (fun _ part => .inr ⟨shift, axis, angle, part, rfl, rfl⟩) steps

namespace Effect.Leads

open Block

variable {effect : Effect α} {slot : Slot} {goal : α} (leads : effect.Leads world this slot goal)
  (number : Nat) (steps : α)

include leads

/-- In every tick the slot is written. -/
theorem exists_write_advance : ∃ value, slot.write value ∈ effect.advance number steps := by
  cases leads with
  | fade visible => exact ⟨_, List.mem_singleton_self _⟩
  | sound name volume => exact ⟨_, List.mem_singleton_self _⟩
  | shift shift turn axis moves =>
    cases shift with
    | stay => cases moves
    | _ => exact ⟨_, List.mem_append_left _ (List.mem_map_of_mem axis.mem_all)⟩
  | turn shift goal part => exact ⟨_, List.mem_append_right _ (List.mem_map_of_mem part.mem_all)⟩
  | restore channel gradual => exact ⟨_, List.mem_map_of_mem gradual⟩

/-- In the end the slot is written. -/
theorem exists_write_settle : ∃ value, slot.write value ∈ effect.settle number := by
  cases leads with
  | fade visible => exact ⟨_, List.mem_cons_self⟩
  | sound name volume => exact ⟨_, List.mem_cons_self⟩
  | shift shift turn axis moves =>
    cases shift with
    | stay => cases moves
    | _ => exact ⟨_, List.mem_append_left _ (List.mem_map_of_mem axis.mem_all)⟩
  | turn shift goal part => exact ⟨_, List.mem_append_right _ (List.mem_map_of_mem part.mem_all)⟩
  | restore channel => exact ⟨_, List.mem_map_of_mem channel.mem_all⟩

end Effect.Leads

section

open Exact Block Effect

variable {K : Type} [Field K] [LinearOrder K] [FloorRing K] [Angles K]
  {this : String} {locals locals' : Locals K} {world later : World K} {number : Nat} {steps : K}

/-- A shift notes the steps towards where it goes. -/
theorem Effect.read_beginShift_step (hosted : world.hosts this) {shift : Shift K}
    (moves : shift.Moves) (axis : Axis) :
    (runAll this locals world (beginShift number steps shift)).read this
        (stepSlot number axis).key =
      ((shift.goal world this).get axis - world.read this (Slot.position axis).key) / steps := by
  cases shift with
  | stay => cases moves
  | absolute offset reference =>
    let targets : String → Slot → Prop := fun _ slot => ∃ axis, slot = targetSlot number axis
    have bounded : WritesOnly targets this (noteTargets number offset reference) :=
      writesOnly_assign targets fun axis _ => ⟨axis, rfl⟩
    rw [beginShift_absolute, runAll_append, read_noteSteps (by rwa [hosts_runAll]),
      read_noteTargets hosted, number_destination,
      bounded.read_runAll (by simp [targets, targetSlot, Slot.position])]
  | relative offset =>
    have way : (Shift.goal world this (.relative offset)).get axis -
        world.read this (Slot.position axis).key = offset.get axis := by
      cases axis <;> exact add_sub_cancel_left _ _
    rw [beginShift_relative, way]
    refine (read_assign _ _ hosted (by decide) (fun _ _ => (Slot.action.inj · |>.2))
      (fun field => ?_) (show ActionField.step axis ∈ _ by cases axis <;> decide)).trans ?_
    · cases field with
      | target axis => exact ignores_destination _ (by simp [Slot.position])
      | _ => exact Expr.ignores_num _
    · rw [Expr.eval_num, Value.number]

namespace Effect.Leads

variable {effect : Effect K} {slot : Slot} {goal : K} (leads : effect.Leads world this slot goal)
  (hosted : world.hosts this) (hostedLater : later.hosts this)
  (shared : World.SharesNotes number this
    (runAll this locals world (effect.start number steps)) later)

include leads hosted hostedLater shared

/-- As long as the notes stay, a tick brings the slot nearer to the goal by one of the steps. -/
theorem read_advance :
    (runAll this locals' later (effect.advance number steps)).read this slot.key =
      later.read this slot.key + (goal - world.read this slot.key) / steps := by
  cases leads with
  | fade visible =>
    rw [advance, read_advanceFade hostedLater, shared _ ⟨.delta, by simp, by simp, rfl⟩, start,
      read_beginFade hosted]
  | sound name volume =>
    rw [advance, read_advanceSound hostedLater, shared _ ⟨.delta, by simp, by simp, rfl⟩, start,
      read_beginSound hosted]
  | shift shift turn axis moves =>
    rw [advance, read_advanceMotion_position hostedLater _ moves,
      shared (stepSlot number axis) ⟨.step axis, by simp, by simp, rfl⟩, start]
    exact congrArg _ ((read_beginMotion_of_shift _ ⟨axis, .inr rfl⟩).trans
      (read_beginShift_step hosted moves axis))
  | turn shift goal part =>
    rw [advance, read_advanceMotion_orientation hostedLater _ rfl,
      shared (turnSlot number part) ⟨.turn part, by simp, by simp, rfl⟩, start]
    exact congrArg _ (read_beginMotion_of_turn hosted _ rfl part).2
  | restore channel gradual =>
    rw [advance, read_advanceRestore hostedLater gradual,
      shared _ ⟨.change channel, by simp, by simp, rfl⟩, start, read_beginRestore hosted gradual]

/-- As long as the notes and the snapshot stay, the slot is at the goal in the end. -/
theorem read_settle
    (recalled : ∀ channel, effect = .restore → slot = .channel channel →
      later.read this (Slot.captured channel).key = goal) :
    (runAll this locals' later (effect.settle number)).read this slot.key = goal := by
  cases leads with
  | fade visible =>
    exact congrArg (·.getD 0) (entry_showNow hostedLater visible (.inr rfl))
  | sound name volume =>
    exact congrArg (·.getD 0) (entry_settleSound hostedLater (.inl rfl))
  | shift shift turn axis moves =>
    rw [settle, read_settleMotion_position hostedLater _ moves,
      shared (targetSlot number axis) ⟨.target axis, by simp, by simp, rfl⟩, start]
    refine (read_beginMotion_of_shift _ ⟨axis, .inl rfl⟩).trans ?_
    rw [read_beginShift hosted moves, number_destination]
  | turn shift goal part =>
    rw [settle, read_settleMotion_orientation hostedLater _ rfl,
      shared (goalSlot number part) ⟨.goal part, by simp, by simp, rfl⟩, start]
    exact (read_beginMotion_of_turn hosted _ rfl part).1
  | restore channel gradual =>
    rw [settle, read_settleRestore hostedLater, recalled channel rfl rfl]

end Effect.Leads

end

end Stagecraft
