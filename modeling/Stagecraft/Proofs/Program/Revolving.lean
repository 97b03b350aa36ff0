/-
This file shows that relative turns compose. A turn of the present orientation multiplies it from
the left, so turns one after the other are their product, and an object faces where it faced before,
turned. A relative turn that takes time multiplies by the same quaternion in every tick. In the end
it does not rely on these products but turns the orientation that it noted in the beginning, so it
settles at the whole turn whatever the ticks have done.
-/

import Stagecraft.Proofs.Geometry.Forward
import Stagecraft.Proofs.Program.Turning

namespace Stagecraft

open Block Exact

variable {K : Type} [Field K] [LinearOrder K] [FloorRing K] [Angles K]

/-! ### One block -/

theorem Block.WritesOnly.orientationOf_runAll {allowed : String → Slot → Prop} {this : String}
    {block : Block K} (bounded : WritesOnly allowed this block)
    (spared : ∀ part, ¬allowed this (.orientation part)) (locals : Locals K) (world : World K) :
    (runAll this locals world block).orientationOf this = world.orientationOf this :=
  Quaternion.ext_get fun part => by
    rw [World.get_orientationOf, World.get_orientationOf, bounded.read_runAll (spared part)]

namespace Effect

section

variable {this : String} {world : World K} (hosted : world.hosts this)

include hosted

/-- A turn of the present orientation multiplies it from the left. -/
theorem orientationOf_turnPresent (rotation : Quaternion K) (locals : Locals K) :
    (runAll this locals world (turnPresent rotation)).orientationOf this =
      rotation * world.orientationOf this :=
  Quaternion.ext_get fun part => by
    rw [World.get_orientationOf]
    exact congrArg (·.getD 0) (entry_turnPresent hosted rotation part)

/-- The end of a turn multiplies what was noted from the left. -/
theorem orientationOf_turnOrigin {number : Nat} {start : Quaternion K}
    (noted : ∀ part, world.read this (originSlot number part).key = start.get part)
    (rotation : Quaternion K) (locals : Locals K) :
    (runAll this locals world (turnOrigin number rotation)).orientationOf this =
      rotation * start := by
  have isStart : (Quaternion.ofParts fun part => world.read this (originSlot number part).key) =
      start := Quaternion.ext_get fun part => by rw [Quaternion.get_ofParts, noted]
  refine Quaternion.ext_get fun part => ?_
  rw [World.get_orientationOf, ← isStart]
  exact congrArg (·.getD 0) (entry_turnOrigin hosted rotation part)

end

/-! ### Ticks -/

/-- An object has noted its orientation for an action and has been turned so many times by the same
quaternion. In between, other logic may have run, but it kept the notes of the action, and the
orientation of the object. -/
inductive Revolves (this : String) (number : Nat) (step : Quaternion K) (origin : World K) :
    Nat → World K → Prop
  | begins (steps : K) (axis : Vec K) (angle : K) (locals : Locals K) :
    Revolves this number step origin 0
      (runAll this locals origin (beginTurn number steps (.relative axis angle)))
  | waits {passed : Nat} {world later : World K} :
    Revolves this number step origin passed world → later.hosts this →
    World.SharesNotes number this world later →
    later.orientationOf this = world.orientationOf this →
      Revolves this number step origin passed later
  | turns {passed : Nat} {world : World K} (locals : Locals K) :
    Revolves this number step origin passed world →
      Revolves this number step origin (passed + 1)
        (runAll this locals world (turnPresent step))

/-- So many turns later the object still holds where it started, and its orientation is the start
after all of them. -/
structure HasRevolved (this : String) (number : Nat) (start turned : Quaternion K)
    (world : World K) : Prop where
  hosted : world.hosts this
  noted : ∀ part, world.read this (originSlot number part).key = start.get part
  orientation : world.orientationOf this = turned

namespace Revolves

variable {this : String} {number : Nat} {step : Quaternion K} {origin world : World K}
  {passed : Nat}

theorem hasRevolved (hosted : origin.hosts this)
    (revolves : Revolves this number step origin passed world) :
    let start := origin.orientationOf this
    HasRevolved this number start (step ^ passed * start) world := by
  induction revolves with
  | begins steps axis angle locals =>
    have onlyNotes : WritesOnly (fun _ slot => slot.IsNote number) this
        (beginTurn number steps (.relative axis angle)) :=
      writesOnly_beginTurn (fun part => ⟨.goal part, by simp, by simp, rfl⟩)
        (fun part => ⟨.turn part, by simp, by simp, rfl⟩)
        (fun part => ⟨.origin part, by simp, by simp, rfl⟩) _
    refine ⟨by rwa [hosts_runAll], fun part => ?_, ?_⟩
    · rw [read_beginTurn_relative hosted, World.get_orientationOf]
    · rw [onlyNotes.orientationOf_runAll (by simp [Slot.IsNote, Slot.orientation]), pow_zero,
        one_mul]
  | waits _ hostedLater shared same revolved =>
    exact ⟨hostedLater,
      fun part => (shared _ ⟨.origin part, by simp, by simp, rfl⟩).trans (revolved.noted part),
      same.trans revolved.orientation⟩
  | turns locals _ revolved =>
    have kept : WritesOnly (fun _ slot => ¬slot.IsNote number) this (turnPresent step) :=
      writesOnly_turnPresent (by simp [Slot.IsNote, Slot.orientation]) step
    refine ⟨by rw [hosts_runAll, revolved.hosted], fun part => ?_, ?_⟩
    · exact (kept.read_runAll (not_not.mpr ⟨.origin part, by simp, by simp, rfl⟩) _ _).trans
        (revolved.noted part)
    · rw [orientationOf_turnPresent revolved.hosted, revolved.orientation, pow_succ', mul_assoc]

/-- A change of the position does not disturb the turn. -/
theorem shifts {block : Block K} (hosted : origin.hosts this)
    (revolves : Revolves this number step origin passed world)
    (bounded : WritesOnly (fun _ slot => ∃ axis, slot = .position axis) this block)
    (locals : Locals K) :
    Revolves this number step origin passed (runAll this locals world block) := by
  refine revolves.waits ?_ ?_ ?_
  · rw [hosts_runAll, (revolves.hasRevolved hosted).hosted]
  · rintro slot ⟨field, -, -, rfl⟩
    exact bounded.read_runAll (by simp [Slot.position]) _ _
  · exact bounded.orientationOf_runAll (by simp [Slot.position, Slot.orientation]) _ _

end Revolves

end Effect

namespace Instance

open Effect

variable {action : Instance K} {this : String} {shift : Shift K} {axis : Vec K} {angle : K}
  (timed : action.isTimed) (turns : action.effect = .move ⟨shift, .relative axis angle⟩)
  {origin world : World K} (hosted : origin.hosts this) {passed : Nat}
  (passes : action.Passes this origin passed world)

include timed turns hosted passes

/-- What an action does in its ticks are turns by the same quaternion, next to shifts. -/
theorem revolves_of_passes : ∃ shifted : World K, shifted.hosts this ∧
    shifted.orientationOf this = origin.orientationOf this ∧
      Revolves this action.number (Quaternion.ofAxisAngle axis (angle / action.timing.steps))
        shifted passed world := by
  induction passes with
  | begins locals =>
    have onlyNotes : WritesOnly (fun _ slot => slot.IsNote action.number) this
        (beginShift action.number action.timing.steps shift) :=
      writesOnly_beginShift (fun axis => ⟨.target axis, by simp, by simp, rfl⟩)
        (fun axis => ⟨.step axis, by simp, by simp, rfl⟩) shift
    have begins : action.phases.enter = beginShift action.number action.timing.steps shift ++
        beginTurn action.number action.timing.steps (.relative axis angle) := by
      rw [phases_of_timed timed, turns]
      rfl
    rw [begins, runAll_append]
    exact ⟨_, by rwa [hosts_runAll],
      onlyNotes.orientationOf_runAll (by simp [Slot.IsNote, Slot.orientation]) locals origin,
      .begins _ _ _ _⟩
  | waits _ hostedLater shared same revolving =>
    obtain ⟨shifted, hosted, start, revolves⟩ := revolving
    exact ⟨shifted, hosted, start, revolves.waits hostedLater shared same⟩
  | ticks locals _ revolving =>
    obtain ⟨shifted, hosted, start, revolves⟩ := revolving
    have advances : action.phases.advance = advanceShift action.number shift ++
        turnPresent (Quaternion.ofAxisAngle axis (angle / action.timing.steps)) := by
      rw [phases_of_timed timed, turns]
      rfl
    rw [advances, runAll_append]
    exact ⟨shifted, hosted, start,
      (revolves.shifts hosted (writesOnly_advanceShift fun _ axis => ⟨axis, rfl⟩) _).turns _⟩

/-- The end of the action turns the orientation of the beginning by the whole angle. -/
theorem orientationOf_exit (locals : Locals K) :
    (runAll this locals world action.phases.exit).orientationOf this =
      Quaternion.ofAxisAngle axis angle * origin.orientationOf this := by
  obtain ⟨shifted, hosted, start, revolves⟩ :=
    revolves_of_passes timed turns hosted passes
  have ends : action.phases.exit = settleShift action.number shift ++
      turnOrigin action.number (Quaternion.ofAxisAngle axis angle) := by
    rw [phases_of_timed timed, turns]
    rfl
  have shiftsOnly : WritesOnly (fun _ slot => ∃ axis, slot = .position axis) this
      (settleShift action.number shift) := writesOnly_settleShift fun _ axis => ⟨axis, rfl⟩
  have revolved := (revolves.shifts hosted shiftsOnly locals).hasRevolved hosted
  rw [ends, runAll_append, orientationOf_turnOrigin revolved.hosted revolved.noted, start]

theorem orientationOf_of_passes : world.orientationOf this =
    Quaternion.ofAxisAngle axis (angle / action.timing.steps) ^ passed *
      origin.orientationOf this := by
  obtain ⟨shifted, hosted, start, revolves⟩ :=
    revolves_of_passes timed turns hosted passes
  rw [(revolves.hasRevolved hosted).orientation, start]

end Instance

/-! ### Angles -/

namespace Quaternion

theorem ofAxisAngle_eq (axis : Vec ℝ) (angle : ℝ) :
    ofAxisAngle axis angle = ofVector (Real.cos (angle * Scalar.half))
      (axis.scale (Real.sin (angle * Scalar.half))) := rfl

variable {axis : Vec ℝ} (unit : axis.dot axis = 1)

include unit

/-- About a unit axis, angles add up. -/
theorem ofAxisAngle_add (angle angle' : ℝ) :
    ofAxisAngle axis (angle + angle') = ofAxisAngle axis angle * ofAxisAngle axis angle' := by
  rw [Vec.dot] at unit
  rw [← product_eq, ofAxisAngle_eq, ofAxisAngle_eq, ofAxisAngle_eq, add_mul, Real.cos_add,
    Real.sin_add]
  ext <;> simp only [product, ofVector, Vec.scale]
  · linear_combination
      Real.sin (angle * Scalar.half) * Real.sin (angle' * Scalar.half) * unit
  all_goals ring

theorem ofAxisAngle_pow (angle : ℝ) (count : Nat) :
    ofAxisAngle axis angle ^ count = ofAxisAngle axis (count * angle) := by
  induction count with
  | zero =>
    show (⟨1, 0, 0, 0⟩ : Quaternion ℝ) = _
    simp [ofAxisAngle_eq, ofVector, Vec.scale]
  | succ count inductionHypothesis =>
    rw [pow_succ, inductionHypothesis, ← ofAxisAngle_add unit]
    push_cast
    rw [add_mul, one_mul]

end Quaternion

/-- Where the steps of a turn about a unit axis are a whole number, the ticks amount to the whole
turn, and its end does not show. -/
theorem Instance.settles_evenly {action : Instance ℝ} {this : String} {shift : Shift ℝ}
    {axis : Vec ℝ} (unit : axis.dot axis = 1) {angle : ℝ} (timed : action.isTimed)
    (turns : action.effect = .move ⟨shift, .relative axis angle⟩) {origin world : World ℝ}
    (hosted : origin.hosts this) {passed : Nat} (passes : action.Passes this origin passed world)
    (moving : 0 < action.timing.steps) (whole : action.timing.steps = passed)
    (locals : Locals ℝ) :
    (runAll this locals world action.phases.exit).orientationOf this =
      world.orientationOf this := by
  rw [orientationOf_exit timed turns hosted passes, orientationOf_of_passes timed turns hosted
    passes, Quaternion.ofAxisAngle_pow unit, ← whole, mul_div_cancel₀ _ moving.ne']

/-! ### Turns together -/

/-- In exact arithmetic relative turns compose. The turn of an object by one quaternion and then by
another leaves it turned by their product, whose sum of squares is the product of theirs; it faces
what it faced before, turned. So many turns by one quaternion leave it turned by its power, and the
end of the action leaves it turned by the whole from where it started, whatever the turns before
were. That does not show where they amount to the whole. This is what a relative turn that takes
time does, also next to a shift and with other logic in between. -/
theorem Effect.turns_compose {this : String} {world : World ℝ} (hosted : world.hosts this) :
    let start := world.orientationOf this
    (∀ (first second : Quaternion ℝ) (locals locals' : Locals ℝ),
      let turned := runAll this locals world (turnPresent first)
      let after := runAll this locals' turned (turnPresent second)
      after.orientationOf this = second * first * start ∧
        (after.orientationOf this).normSquared =
          second.normSquared * first.normSquared * start.normSquared ∧
        (first ≠ ⟨0, 0, 0, 0⟩ → start ≠ ⟨0, 0, 0, 0⟩ →
          (turned.orientationOf this).forward = first.normalize.rotate start.forward)) ∧
    (∀ (number : Nat) (step total : Quaternion ℝ) (passed : Nat) (later : World ℝ)
      (locals : Locals ℝ), Revolves this number step world passed later →
      let settled := runAll this locals later (turnOrigin number total)
      later.orientationOf this = step ^ passed * start ∧
        settled.orientationOf this = total * start ∧
        (step ^ passed = total → settled.orientationOf this = later.orientationOf this)) ∧
    ∀ (action : Instance ℝ) (shift : Shift ℝ) (axis : Vec ℝ) (angle : ℝ) (passed : Nat)
      (later : World ℝ) (locals : Locals ℝ), action.isTimed →
      action.effect = .move ⟨shift, .relative axis angle⟩ →
      action.Passes this world passed later →
      let step := Quaternion.ofAxisAngle axis (angle / action.timing.steps)
      let total := Quaternion.ofAxisAngle axis angle
      let settled := runAll this locals later action.phases.exit
      later.orientationOf this = step ^ passed * start ∧
        settled.orientationOf this = total * start ∧
        (step ^ passed = total → settled.orientationOf this = later.orientationOf this) := by
  intro start
  refine ⟨fun first second locals locals' => ?_, fun number step total passed later locals => ?_,
    fun action shift axis angle passed later locals timed turns passes => ?_⟩
  · intro turned after
    have once : turned.orientationOf this = first * start :=
      orientationOf_turnPresent hosted first locals
    have twice : after.orientationOf this = second * first * start := by
      rw [orientationOf_turnPresent (by rwa [hosts_runAll]) second locals', once, mul_assoc]
    refine ⟨twice, ?_, fun turns some => ?_⟩
    · rw [twice, Quaternion.normSquared_mul, Quaternion.normSquared_mul]
    · rw [once]
      exact Quaternion.forward_mul (Quaternion.normSquared_pos turns)
        (Quaternion.normSquared_pos some)
  · intro revolves settled
    have revolved := revolves.hasRevolved hosted
    have whole : settled.orientationOf this = total * start :=
      orientationOf_turnOrigin revolved.hosted revolved.noted total locals
    exact ⟨revolved.orientation, whole, fun same => by rw [whole, revolved.orientation, same]⟩
  · intro step total settled
    have turned : later.orientationOf this = step ^ passed * start :=
      Instance.orientationOf_of_passes timed turns hosted passes
    have whole : settled.orientationOf this = total * start :=
      Instance.orientationOf_exit timed turns hosted passes locals
    exact ⟨turned, whole, fun same => by rw [whole, turned, same]⟩

/-- A top that is inclined. -/
noncomputable def World.inclined : World ℝ :=
  (World.blank.write "top" (Slot.orientation .w).key ((3 / 5 : ℚ) : ℝ)).write "top"
    (Slot.orientation .x).key ((4 / 5 : ℚ) : ℝ)

/-- The top rises and turns by one radian in a second, with ten ticks. -/
noncomputable def Instance.spin : Instance ℝ where
  number := 0
  label := "move"
  targets := ["top"]
  timing := ⟨1, (10 : ℕ)⟩
  effect := .move ⟨.relative ⟨0, 0, 1⟩, .relative Vec.unitY 1⟩

/-- Two equal turns of the top amount to a whole one, and the end of its action leaves it turned by a
radian. -/
theorem Effect.turns_compose_top :
    let step : Quaternion ℝ := ⟨3 / 5, 4 / 5, 0, 0⟩
    World.inclined.hosts "top" ∧
      ((runAll "top" [] World.inclined (turnPresent step)).orientationOf "top").forward =
        step.normalize.rotate (World.inclined.orientationOf "top").forward ∧
      (∃ later, Revolves "top" 0 step World.inclined 2 later ∧
        (runAll "top" [] later (turnOrigin 0 ⟨-7 / 25, 24 / 25, 0, 0⟩)).orientationOf "top" =
          later.orientationOf "top") ∧
      ∃ later, Instance.spin.Passes "top" World.inclined 1 later ∧
        (runAll "top" [] later Instance.spin.phases.exit).orientationOf "top" =
          Quaternion.ofAxisAngle Vec.unitY 1 * World.inclined.orientationOf "top" := by
  intro step
  have hosted : World.inclined.hosts "top" := by
    simp [World.inclined, World.hosts_write, World.blank]
  have start : (World.inclined.orientationOf "top").w = 3 / 5 := by
    show World.inclined.read "top" (Slot.orientation .w).key = 3 / 5
    simp [World.inclined, World.read_write, World.hosts_write, World.blank, Slot.key_inj,
      Slot.orientation]
  have square : step ^ 2 = ⟨-7 / 25, 24 / 25, 0, 0⟩ := by
    rw [pow_two, ← Quaternion.product_eq]
    ext <;> norm_num [step, Quaternion.product]
  have timed : Instance.spin.isTimed = true :=
    decide_eq_true (show (0 : ℝ) < 1 from one_pos)
  have revolves : Revolves "top" 0 step World.inclined 2 _ :=
    ((Revolves.begins 10 Vec.unitX 1 []).turns []).turns []
  have passes : Instance.spin.Passes "top" World.inclined 1 _ :=
    (Instance.Passes.begins []).ticks []
  obtain ⟨pairs, ticks, phases⟩ := turns_compose hosted
  refine ⟨hosted, (pairs step step [] []).2.2 ?_ ?_, ⟨_, revolves, ?_⟩, ⟨_, passes, ?_⟩⟩
  · simp [step]
  · intro none
    rw [none] at start
    norm_num at start
  · exact (ticks 0 step _ 2 _ [] revolves).2.2 square
  · exact (phases Instance.spin _ _ _ 1 _ [] timed rfl passes).2.1

end Stagecraft
