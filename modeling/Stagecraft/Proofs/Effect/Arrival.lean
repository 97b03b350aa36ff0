/-
This file compares the ends of an effect that takes time and of its counterpart at once. At its
beginning the first one notes where it is going, from what the second one would look at in that
moment. As long as only slots change that it settles in the end, it arrives there from its notes.
Only an absolute turn may arrive at the other name of its goal: it goes along the shorter arc, and
negating all parts of an orientation gives the same orientation.
-/

import Stagecraft.Proofs.Effect.Snapshots
import Stagecraft.Proofs.Logic.Locality
import Stagecraft.Proofs.Logic.Vectors
import Stagecraft.Proofs.Scalar.Laws

namespace Stagecraft

variable {α : Type} [Trigonometric α]

/-! ### Axes and parts -/

theorem Axis.mem_all (axis : Axis) : axis ∈ Axis.all := by
  cases axis <;> decide

theorem Part.mem_all (part : Part) : part ∈ Part.all := by
  cases part <;> decide

theorem Quaternion.get_ofParts {β : Type} (component : Part → β) (part : Part) :
    (ofParts component).get part = component part := by
  cases part <;> rfl

theorem Quaternion.get_map {β γ : Type} (f : β → γ) (q : Quaternion β) (part : Part) :
    (q.map f).get part = f (q.get part) := by
  cases part <;> rfl

/-! ### Changes -/

/-- Some slots apart, an object is as it was before. -/
structure World.KeepsBeyond (changed : Slot → Prop) (this : String) (before after : World α) :
    Prop where
  hosts : after.hosts this = before.hosts this
  entry : ∀ key, (before.hosts this → ∀ slot, changed slot → key ≠ slot.key) →
    after.entry this key = before.entry this key

namespace World.KeepsBeyond

variable {changed : Slot → Prop} {this : String} {before after later : World α}

omit [Trigonometric α] in
theorem trans (first : KeepsBeyond changed this before after)
    (second : KeepsBeyond changed this after later) : KeepsBeyond changed this before later where
  hosts := second.hosts.trans first.hosts
  entry key beyond :=
    (second.entry key fun hosted => beyond (first.hosts ▸ hosted)).trans (first.entry key beyond)

omit [Trigonometric α] in
theorem of_agreesOn (agree : AgreesOn this after before) :
    KeepsBeyond changed this before after where
  hosts := agree.hosts
  entry key _ := by rw [World.entry, World.entry, agree.bag_eq]

theorem of_writesOnly {block : Block α} (locals : Locals α)
    (bounded : Block.WritesOnly (fun object slot => object = this ∧ changed slot) this block) :
    KeepsBeyond changed this before (Block.runAll this locals before block) where
  hosts := by rw [Block.hosts_runAll]
  entry key beyond := by
    refine Block.entry_runAll this locals before this key block fun hosted named => ?_
    obtain ⟨slot, same, -, isChanged⟩ := bounded _ named
    exact beyond hosted slot isChanged same

theorem read (kept : KeepsBeyond changed this before after) {slot : Slot}
    (spared : ¬changed slot) : after.read this slot.key = before.read this slot.key :=
  congrArg (·.getD 0) (kept.entry slot.key fun _ _ isChanged same =>
    spared (Slot.key_injective same ▸ isChanged))

end World.KeepsBeyond

/-- The number in a slot, negated if it is a part of a flipped orientation. -/
def Slot.flip (flipped : Bool) (key : String) (value : α) : α :=
  if flipped ∧ key ∈ Part.all.map (fun part => (Slot.orientation part).key) then -value else value

namespace Slot

variable (flipped : Bool)

theorem map_flip_false (key : String) (entry : Option α) : entry.map (flip false key) = entry := by
  cases entry <;> simp [Slot.flip]

theorem map_flip_of_notMem {key : String}
    (other : key ∉ Part.all.map fun part => (Slot.orientation part).key) (entry : Option α) :
    entry.map (flip flipped key) = entry := by
  cases entry <;> simp [Slot.flip, other]

theorem map_flip_position (axis : Axis) (entry : Option α) :
    entry.map (flip flipped (Slot.position axis).key) = entry := by
  refine map_flip_of_notMem flipped ?_ entry
  simp [Slot.key_inj, Slot.position, Slot.orientation]

theorem flip_orientation (part : Part) :
    (flip flipped (Slot.orientation part).key : α → α) =
      fun value => if flipped then -value else value := by
  funext value
  have member : (Slot.orientation part).key ∈
      Part.all.map fun part => (Slot.orientation part).key := List.mem_map_of_mem part.mem_all
  simp only [Slot.flip, member, and_true]

end Slot

/-! ### Movements -/

namespace Effect

open Block

variable {this : String} {world : World α} {number : Nat} {steps : α} {locals : Locals α}

/-- The coordinate that a shift goes to. -/
def destination : Shift α → Axis → Expr α
  | .stay, axis => (Slot.position axis).read
  | .absolute offset reference, axis => (targetPosition offset reference).get axis
  | .relative offset, axis => (Slot.position axis).read + .num (offset.get axis)

theorem ignores_destination (shift : Shift α) {axis : Axis} {slots : Slot → Prop}
    (spared : ¬slots (.position axis)) : (destination shift axis).Ignores this locals slots := by
  cases shift with
  | stay => exact Expr.ignores_read spared
  | absolute offset reference =>
    cases reference with
    | none => cases axis <;> exact Expr.ignores_num _
    | some object =>
      cases axis <;> exact (Expr.ignores_readOf object spared).add (Expr.ignores_num _)
  | relative offset => exact (Expr.ignores_read spared).add (Expr.ignores_num _)

/-- The notes of where a shift goes to. -/
def noteTargets (number : Nat) (offset : Vec α) (reference : Option String) : Block α :=
  assign (targetSlot number) (destination (.absolute offset reference)) Axis.all

/-- The notes of the steps of a shift to a place. -/
def noteSteps (number : Nat) (steps : α) : Block α :=
  assign (stepSlot number) (fun axis =>
    .perTick (targetSlot number axis).read (Slot.position axis).read steps) Axis.all

theorem beginShift_absolute (offset : Vec α) (reference : Option String) :
    beginShift number steps (.absolute offset reference) =
      noteTargets number offset reference ++ noteSteps number steps :=
  rfl

omit [Trigonometric α] in
theorem writesOnly_noteSteps :
    WritesOnly (fun _ slot => ∃ axis, slot = stepSlot number axis) this (noteSteps number steps) :=
  writesOnly_assign _ fun axis _ => ⟨axis, rfl⟩

theorem beginShift_relative (offset : Vec α) :
    beginShift number steps (.relative offset) =
      assign (.action number) (fun
        | .target axis => destination (.relative offset) axis
        | .step axis => .num (offset.get axis / steps)
        | _ => .num 0) (Axis.all.flatMap fun axis => [.target axis, .step axis]) :=
  rfl

section

variable (hosted : world.hosts this)

include hosted

theorem entry_shiftNow {shift : Shift α} (moves : shift.Moves) (axis : Axis) :
    (runAll this locals world (shiftNow shift)).entry this (Slot.position axis).key =
      some ((destination shift axis).eval world this locals).number := by
  have assigned : shiftNow shift = assign .position (destination shift) Axis.all := by
    cases shift with
    | stay => cases moves
    | _ => rfl
  rw [assigned]
  refine entry_assign _ _ hosted (by decide) ?_ (fun axis => ignores_destination shift ?_) axis.mem_all
  · exact fun first second same => by simpa [Slot.position] using same
  · rintro ⟨beside, other, same⟩
    exact other (by simpa [Slot.position] using same.symm)

theorem read_noteTargets (offset : Vec α) (reference : Option String) (axis : Axis) :
    (runAll this locals world (noteTargets number offset reference)).read this
        (targetSlot number axis).key =
      ((destination (.absolute offset reference) axis).eval world this locals).number := by
  refine read_assign _ _ hosted (by decide) ?_
    (fun axis => ignores_destination (.absolute offset reference) ?_) axis.mem_all
  · exact fun first second same => by simpa [targetSlot] using same
  · simp [targetSlot, Slot.position]

/-- What a shift that takes time notes is where it goes to. -/
theorem read_beginShift {shift : Shift α} (moves : shift.Moves) (axis : Axis) :
    (runAll this locals world (beginShift number steps shift)).read this
        (targetSlot number axis).key =
      ((destination shift axis).eval world this locals).number := by
  have ownNote (field : ActionField) : Slot.position axis ≠ .action number field := by
    simp [Slot.position]
  cases shift with
  | stay => cases moves
  | absolute offset reference =>
    rw [beginShift_absolute, runAll_append, writesOnly_noteSteps.read_runAll (by
      simp [targetSlot, stepSlot])]
    exact read_noteTargets hosted offset reference axis
  | relative offset =>
    rw [beginShift_relative]
    refine read_assign _ _ hosted (by decide) (fun _ _ => (Slot.action.inj · |>.2)) (fun field => ?_)
      (show ActionField.target axis ∈ _ by cases axis <;> decide)
    cases field with
    | target axis => exact ignores_destination _ (by simp [Slot.position])
    | _ => exact Expr.ignores_num _

theorem entry_settleShift {shift : Shift α} (moves : shift.Moves) (axis : Axis) :
    (runAll this locals world (settleShift number shift)).entry this (Slot.position axis).key =
      some (world.read this (targetSlot number axis).key) := by
  have assigned : settleShift number shift =
      assign .position (fun axis => (targetSlot number axis).read) Axis.all := by
    cases shift with
    | stay => cases moves
    | _ => rfl
  rw [assigned, entry_assign _ _ hosted (by decide) ?_ (fun axis => Expr.ignores_read ?_) axis.mem_all,
    Slot.eval_read, Value.number]
  · exact fun first second same => by simpa [Slot.position] using same
  · simp [targetSlot, Slot.position]

end

/-! ### Turns -/

/-- The notes of where a turn to a goal goes to. -/
def noteGoals (number : Nat) (goal : Quaternion α) : Block α :=
  .bind signName (.select ((Quaternion.orientation.dot (goal.map .num)).lt (.num 0)) (.num (-1))
    (.num 1)) ::
    assign (goalSlot number) (fun part => .var signName * .num (goal.get part)) Part.all

/-- The notes of the steps of a turn to a goal. -/
def noteTurns (number : Nat) (steps : α) : Block α :=
  assign (turnSlot number) (fun part =>
    .perTick (goalSlot number part).read (Slot.orientation part).read steps) Part.all

theorem beginTurn_absolute (goal : Quaternion α) :
    beginTurn number steps (.absolute goal) = noteGoals number goal ++ noteTurns number steps :=
  rfl

omit [Trigonometric α] in
theorem writesOnly_noteTurns :
    WritesOnly (fun _ slot => ∃ part, slot = turnSlot number part) this (noteTurns number steps) :=
  writesOnly_assign _ fun part _ => ⟨part, rfl⟩

/-- Turn the orientation that was noted in the beginning. -/
def turnOrigin (number : Nat) (rotation : Quaternion α) : Block α :=
  (rotation.map Expr.num |>.product
    (.ofParts fun part => (originSlot number part).read)).writeOrientation

/-- The temporaries of a turn hold the orientation that it found. -/
theorem thread_parts (this : String) (world : World α) (locals : Locals α) :
    ∃ found : Locals α, thread this locals world (Part.all.map fun part =>
        .bind (partName part) (Slot.orientation part).read) = (found, world) ∧
      ∀ part, found.read (partName part) = .num (world.read this (Slot.orientation part).key) := by
  refine ⟨(Part.all.reverse.map fun part =>
    (partName part, .num (world.read this (Slot.orientation part).key))) ++ locals, ?_, ?_⟩
  · simp [Part.all, Stmt.run]
  · intro part
    cases part <;> simp [Locals.read, Part.all, partName, Part.name, List.lookup]

section

variable (hosted : world.hosts this)

include hosted

theorem entry_writeOrientation {value : Quaternion (Expr α)}
    (apart : ∀ part, (value.get part).Ignores this locals fun other =>
      ∃ beside, beside ≠ part ∧ other = Slot.orientation beside) (part : Part) :
    (runAll this locals world value.writeOrientation).entry this (Slot.orientation part).key =
      some ((value.get part).eval world this locals).number := by
  refine entry_assign Slot.orientation value.get hosted (by decide) ?_ apart part.mem_all
  exact fun first second same => by simpa [Slot.orientation] using same

theorem entry_turnPresent (rotation : Quaternion α) (part : Part) :
    (runAll this locals world (turnPresent rotation)).entry this (Slot.orientation part).key =
      some ((rotation.product (.ofParts fun part =>
        world.read this (Slot.orientation part).key)).get part) := by
  obtain ⟨found, thread, read⟩ := thread_parts this world locals
  rw [turnPresent, runAll_append, runAll_eq_thread _ _ _ (Part.all.map _), thread,
    entry_writeOrientation hosted ?_ part, Quaternion.number_product]
  · simp only [Expr.eval, read, Value.number]
  · exact fun part => Quaternion.ignores_product rotation (fun _ => Expr.ignores_var _) part

/-- A turn about an axis notes the orientation that it starts from. -/
theorem read_beginTurn_relative (axis : Vec α) (angle : α) (part : Part) :
    (runAll this locals world (beginTurn number steps (.relative axis angle))).read this
        (originSlot number part).key = world.read this (Slot.orientation part).key := by
  have assigned : beginTurn number steps (.relative axis angle) =
      assign (originSlot number) (fun part => (Slot.orientation part).read) Part.all := rfl
  rw [assigned, read_assign _ _ hosted (by decide) ?_ (fun part => Expr.ignores_read ?_) part.mem_all,
    Slot.eval_read, Value.number]
  · exact fun first second same => by simpa [originSlot] using same
  · simp [originSlot, Slot.orientation]

/-- Where a turn to a goal goes to is noted before any of it is used. -/
theorem read_noteGoals (goal : Quaternion α) (part : Part) :
    (runAll this locals world (noteGoals number goal)).read this (goalSlot number part).key =
      ((world.orientationOf this).nearer goal).get part := by
  have cosine : (((Quaternion.orientation.dot (goal.map .num)).lt (.num 0)).eval world this
      locals).isTruthy = decide ((world.orientationOf this).dot goal < 0) := by
    rw [Expr.lt, Expr.eval_binary, Quaternion.eval_dot_orientation, Expr.eval_num, BinaryOp.apply,
      Value.isTruthy_bool]
    rfl
  rw [noteGoals, runAll_cons, Stmt.run]
  refine (read_assign (goalSlot number) _ hosted (by decide) ?_ (fun part => ?_)
    part.mem_all).trans ?_
  · exact fun first second same => by simpa [goalSlot] using same
  · exact (Expr.ignores_var _).mul (Expr.ignores_num _)
  · rw [Expr.eval_mul, Expr.eval_num, Expr.eval, Locals.read, List.lookup_cons_self, Expr.eval,
      cosine, Expr.eval_num, Expr.eval_num, Quaternion.nearer, Quaternion.get_map]
    by_cases acute : (world.orientationOf this).dot goal < 0
    · rw [if_pos acute, decide_eq_true acute]
      rfl
    · rw [if_neg acute, decide_eq_false acute]
      rfl

theorem read_beginTurn_goal (goal : Quaternion α) (part : Part) :
    (runAll this locals world (beginTurn number steps (.absolute goal))).read this
        (goalSlot number part).key = ((world.orientationOf this).nearer goal).get part := by
  rw [beginTurn_absolute, runAll_append, writesOnly_noteTurns.read_runAll (by
    simp [goalSlot, turnSlot])]
  exact read_noteGoals hosted goal part

/-- A turn to a goal notes the goal, with the sign of the shorter arc. -/
theorem read_beginTurn_absolute [Signing α] (number : Nat) (steps : α) (locals : Locals α)
    (goal : Quaternion α) :
    ∃ flipped : Bool, ∀ part,
      (runAll this locals world (beginTurn number steps (.absolute goal))).read this
          (goalSlot number part).key =
        if flipped then -goal.get part else goal.get part := by
  refine ⟨decide ((world.orientationOf this).dot goal < 0), fun part => ?_⟩
  rw [read_beginTurn_goal hosted, Quaternion.nearer, Quaternion.get_map]
  simp only [decide_eq_true_eq]
  split
  · exact Signing.neg_one_mul _
  · exact Signing.one_mul _

theorem entry_settleTurn_absolute (goal : Quaternion α) (part : Part) :
    (runAll this locals world (settleTurn number (.absolute goal))).entry this
        (Slot.orientation part).key = some (world.read this (goalSlot number part).key) := by
  rw [settleTurn, entry_writeOrientation hosted ?_ part, Quaternion.get_ofParts, Slot.eval_read,
    Value.number]
  intro part
  rw [Quaternion.get_ofParts]
  exact Expr.ignores_read (by simp [goalSlot, Slot.orientation])

/-- The end of a turn about an axis turns the orientation that was noted. -/
theorem entry_turnOrigin (rotation : Quaternion α) (part : Part) :
    (runAll this locals world (turnOrigin number rotation)).entry this (Slot.orientation part).key =
      some ((rotation.product (.ofParts fun part =>
        world.read this (originSlot number part).key)).get part) := by
  rw [turnOrigin, entry_writeOrientation hosted ?_ part, Quaternion.number_product]
  · simp only [Slot.eval_read, Value.number]
  · refine fun part => Quaternion.ignores_product _ (fun _ => Expr.ignores_read ?_) part
    simp [originSlot, Slot.orientation]

theorem entry_settleTurn_relative (axis : Vec α) (angle : α) (part : Part) :
    (runAll this locals world (settleTurn number (.relative axis angle))).entry this
        (Slot.orientation part).key =
      some (((Quaternion.ofAxisAngle axis angle).product (.ofParts fun part =>
        world.read this (originSlot number part).key)).get part) :=
  entry_turnOrigin hosted _ part

theorem entry_turnNow_absolute (goal : Quaternion α) (part : Part) :
    (runAll this locals world (turnNow (.absolute goal))).entry this
        (Slot.orientation part).key = some (goal.get part) := by
  have constant (part : Part) : (goal.map Expr.num).get part = .num (goal.get part) := by
    cases part <;> rfl
  rw [turnNow, entry_writeOrientation hosted ?_ part, constant, Expr.eval_num, Value.number]
  exact fun part => constant part ▸ Expr.ignores_num _

end

/-! ### Effects -/

/-- The effect turns its object to a goal, wherever it looks before. -/
def IsAbsoluteTurn : Effect α → Prop
  | .move ⟨_, .absolute _⟩ => True
  | _ => False

omit [Trigonometric α] in
theorem IsAbsoluteTurn.exists_eq {effect : Effect α} (turns : effect.IsAbsoluteTurn) :
    ∃ shift goal, effect = .move ⟨shift, .absolute goal⟩ := by
  cases effect with
  | move motion =>
    obtain ⟨shift, turn⟩ := motion
    cases turn with
    | absolute goal => exact ⟨shift, goal, rfl⟩
    | _ => cases turns
  | _ => cases turns

section

variable {later : World α} {motion : Motion α} (hosted : world.hosts this)
  (kept : World.KeepsBeyond (move motion).Settles this
    ((beginMotion number steps motion).run this world) later)

include hosted kept

/-- A movement arrives where it would be at once. -/
theorem entry_position (moves : motion.shift.Moves) (axis : Axis) :
    ((settleMotion number motion).run this later).entry this (Slot.position axis).key =
      ((moveNow motion).run this world).entry this (Slot.position axis).key := by
  have hostedLater : later.hosts this := by rwa [kept.hosts, Block.run, hosts_runAll]
  let parts : String → Slot → Prop := fun _ slot => ∃ part, slot = .orientation part
  have beyondParts : ¬parts this (.position axis) := by
    simp [parts, Slot.position, Slot.orientation]
  have settled : WritesOnly parts this (settleTurn number motion.turn) :=
    writesOnly_settleTurn fun _ part => ⟨part, rfl⟩
  have arrived : WritesOnly parts this (turnNow motion.turn) :=
    writesOnly_turnNow fun _ part => ⟨part, rfl⟩
  let notes : String → Slot → Prop := fun _ slot => ∃ part,
    slot = goalSlot number part ∨ slot = turnSlot number part ∨ slot = originSlot number part
  have beyondNotes : ¬notes this (targetSlot number axis) := by
    simp [notes, targetSlot, goalSlot, turnSlot, originSlot]
  have departed : WritesOnly notes this (beginTurn number steps motion.turn) :=
    writesOnly_beginTurn (fun part => ⟨part, .inl rfl⟩) (fun part => ⟨part, .inr (.inl rfl)⟩)
      (fun part => ⟨part, .inr (.inr rfl)⟩) motion.turn
  have noted : later.read this (targetSlot number axis).key =
      ((destination motion.shift axis).eval world this []).number := by
    rw [kept.read (by simp [Settles, targetSlot, Slot.position, Slot.orientation]), Block.run,
      beginMotion, runAll_append, departed.read_runAll beyondNotes]
    exact read_beginShift hosted moves axis
  rw [Block.run, settleMotion, runAll_append, Block.run, moveNow, runAll_append,
    entry_runAll _ _ _ _ _ _ fun _ => settled.notMem beyondParts,
    entry_runAll _ _ _ _ _ _ fun _ => arrived.notMem beyondParts,
    entry_settleShift hostedLater moves, entry_shiftNow hosted moves, noted]

/-- A movement turns its object as it would be turned at once, or to the other name of its goal. -/
theorem entry_orientation [Signing α] (moves : motion.turn.Moves) :
    ∃ flipped : Bool, (flipped = true → (move motion).IsAbsoluteTurn) ∧ ∀ part,
      ((settleMotion number motion).run this later).entry this (Slot.orientation part).key =
        (((moveNow motion).run this world).entry this (Slot.orientation part).key).map
          fun value => if flipped then -value else value := by
  obtain ⟨shift, turn⟩ := motion
  have hostedLater : later.hosts this := by rwa [kept.hosts, Block.run, hosts_runAll]
  let begun := (beginShift number steps shift).run this world
  have hostedBegun : begun.hosts this := by
    rwa [show begun.hosts = world.hosts from hosts_runAll _ _ _ _]
  have noted (field : ActionField) : later.read this (Slot.action number field).key =
      (runAll this (thread this [] world (beginShift number steps shift)).1 begun
        (beginTurn number steps turn)).read this (Slot.action number field).key := by
    rw [kept.read (by simp [Settles, Slot.position, Slot.orientation]), Block.run, beginMotion,
      runAll_append]
    rfl
  let axes : String → Slot → Prop := fun _ slot =>
    ∃ axis, slot = .position axis ∨ slot = targetSlot number axis ∨ slot = stepSlot number axis
  have beyond (part : Part) : ¬axes this (.orientation part) := by
    simp [axes, Slot.position, Slot.orientation, targetSlot, stepSlot]
  have departed : WritesOnly axes this (beginShift number steps shift) :=
    writesOnly_beginShift (fun axis => ⟨axis, .inr (.inl rfl)⟩)
      (fun axis => ⟨axis, .inr (.inr rfl)⟩) shift
  have settled : WritesOnly axes this (settleShift number shift) :=
    writesOnly_settleShift fun _ axis => ⟨axis, .inl rfl⟩
  have arrived : WritesOnly axes this (shiftNow shift) :=
    writesOnly_shiftNow fun _ axis => ⟨axis, .inl rfl⟩
  simp only [Block.run, settleMotion, moveNow, runAll_append]
  cases turn with
  | keep => cases moves
  | absolute goal =>
    obtain ⟨flipped, goals⟩ := read_beginTurn_absolute hostedBegun number steps
      (thread this [] world (beginShift number steps shift)).1 goal
    refine ⟨flipped, fun _ => trivial, fun part => ?_⟩
    have beyondGoal : ¬axes this (goalSlot number part) := by
      simp [axes, Slot.position, goalSlot, targetSlot, stepSlot]
    rw [entry_settleTurn_absolute (by rwa [hosts_runAll]),
      entry_turnNow_absolute (by rwa [hosts_runAll]), settled.read_runAll beyondGoal,
      Option.map_some, goalSlot, noted]
    exact congrArg some (goals part)
  | relative axis angle =>
    refine ⟨false, by simp, fun part => ?_⟩
    have origins (part : Part) : (runAll this [] later (settleShift number shift)).read this
        (originSlot number part).key = world.read this (Slot.orientation part).key := by
      rw [settled.read_runAll (by simp [axes, Slot.position, originSlot, targetSlot, stepSlot]),
        originSlot, noted]
      refine (read_beginTurn_relative hostedBegun axis angle part).trans ?_
      exact departed.read_runAll (beyond part) _ _
    rw [entry_settleTurn_relative (by rwa [hosts_runAll]), turnNow,
      entry_turnPresent (by rwa [hosts_runAll])]
    simp only [origins, arrived.read_runAll (beyond _)]
    rfl

end

section

variable {slot : Slot} (hosted : world.hosts this)

include hosted

theorem entry_showNow (visible : Bool) (settles : (fade visible : Effect α).Settles slot) :
    (runAll this locals world (showNow visible)).entry this slot.key =
      some (Scalar.ofBool visible) := by
  have assigned : (showNow visible : Block α) =
      assign .channel (fun _ => .num (Scalar.ofBool visible)) [.alpha, .visible] := rfl
  have settled (channel : Channel) (shown : channel ∈ [Channel.alpha, .visible]) :
      (runAll this locals world (showNow visible)).entry this (Slot.channel channel).key =
        some (Scalar.ofBool visible) := by
    rw [assigned, entry_assign _ _ hosted (by decide) (fun _ _ => Slot.channel.inj)
      (fun _ => Expr.ignores_num _) shown, Expr.eval_num, Value.number]
  rcases settles with rfl | rfl
  · exact settled .visible (by decide)
  · exact settled .alpha (by decide)

/-- A sound has its volume in the end, or it is silent and does not play. -/
theorem entry_settleSound {name : String} {volume : Option α}
    (settles : (sound name volume).Settles slot) :
    (runAll this locals world (settleSound name volume)).entry this slot.key =
      some (finalVolume volume) := by
  have volumes : Slot.sound name .volume ≠ .sound name .playing := by simp
  cases volume with
  | some volume =>
    obtain rfl := settles.resolve_right fun silent => Bool.false_ne_true silent.1
    simp [settleSound, World.entry_write, hosted, finalVolume, Value.number]
  | none =>
    rcases settles with rfl | ⟨-, rfl⟩ <;>
      simp [settleSound, stopPlaying, Stmt.run, World.entry_write, hosted, finalVolume,
        Value.number, Slot.key_inj]

end

theorem exists_flip [Signing α] (effect : Effect α) {later : World α} (hosted : world.hosts this)
    (kept : World.KeepsBeyond effect.Settles this ((effect.depart number steps).run this world)
      later) :
    ∃ flipped : Bool, (flipped = true → effect.IsAbsoluteTurn) ∧ ∀ slot, effect.Settles slot →
      ((effect.settle number).run this later).entry this slot.key =
        ((effect.arrive.run this world).entry this slot.key).map (Slot.flip flipped slot.key) := by
  have hostedLater : later.hosts this := by rwa [kept.hosts, Block.run, hosts_runAll]
  cases effect with
  | fade visible =>
    refine ⟨false, by simp, fun slot settles => ?_⟩
    rw [settle, arrive, Block.run, Block.run, entry_showNow hostedLater visible settles,
      entry_showNow hosted visible settles, Slot.map_flip_false]
  | move motion =>
    by_cases moves : motion.turn.Moves
    · obtain ⟨flipped, absolute, turned⟩ := entry_orientation hosted kept moves
      refine ⟨flipped, absolute, ?_⟩
      rintro slot (⟨shifts, axis, rfl⟩ | ⟨-, part, rfl⟩)
      · rw [settle, arrive, Slot.map_flip_position]
        exact entry_position hosted kept shifts axis
      · rw [Slot.flip_orientation]
        exact turned part
    · refine ⟨false, by simp, ?_⟩
      rintro slot (⟨shifts, axis, rfl⟩ | ⟨turns, -, -⟩)
      · rw [settle, arrive, Slot.map_flip_position]
        exact entry_position hosted kept shifts axis
      · exact absurd turns moves
  | sound name volume =>
    refine ⟨false, by simp, fun slot settles => ?_⟩
    rw [settle, arrive, Block.run, Block.run, entry_settleSound hostedLater settles,
      entry_settleSound hosted settles, Slot.map_flip_false]
  | restore =>
    refine ⟨false, by simp, ?_⟩
    rintro slot ⟨channel, rfl⟩
    have departed : later.read this (Slot.captured channel).key =
        world.read this (Slot.captured channel).key := by
      have bounded : WritesOnly
          (fun _ slot => (restore : Effect α).Settles slot ∨ slot.IsNote number) this
          ((restore : Effect α).depart number steps) :=
        writesOnly_depart (fun _ => .inl) fun _ => .inr
      rw [kept.read (by simp [Settles]), Block.run, bounded.read_runAll]
      simp [Settles, Slot.IsNote]
    rw [settle, arrive, Block.run, Block.run, entry_settleRestore hostedLater,
      entry_settleRestore hosted, departed, Slot.map_flip_false]
  | timeline | toggle => exact ⟨false, by simp, fun _ settles => settles.elim⟩

end Effect

end Stagecraft
