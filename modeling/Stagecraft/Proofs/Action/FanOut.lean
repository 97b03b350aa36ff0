/-
This file dispatches one action on several members. Each member begins as if it were alone, with one
exception: a movement that happens at once to a place given by a reference object. If that object is
a member itself, the members after it find it where it has gone. So the order of the members is of
importance in that case only.
-/

import Stagecraft.Proofs.Action.Scope
import Stagecraft.Proofs.Effect.Locality
import Stagecraft.Proofs.Logic.Vectors

namespace Stagecraft

variable {α : Type} [Trigonometric α]

/-! ### Movements without a reference -/

/-- The same movement, with the place of the reference object instead of the object. -/
def Shift.grounded (world : World α) : Shift α → Shift α
  | .absolute offset (some object) => .absolute (world.positionOf object + offset) none
  | shift => shift

namespace Effect

def grounded (world : World α) : Effect α → Effect α
  | .move motion => .move { motion with shift := motion.shift.grounded world }
  | effect => effect

@[simp] theorem reference?_grounded (effect : Effect α) (world : World α) :
    (effect.grounded world).reference? = none := by
  cases effect with
  | move motion =>
    rw [grounded, reference?]
    cases motion.shift with
    | absolute offset reference => cases reference <;> rfl
    | _ => rfl
  | _ => rfl

theorem grounded_congr {effect : Effect α} {world world' : World α}
    (same : ∀ object, effect.reference? = some object →
      world.positionOf object = world'.positionOf object) :
    effect.grounded world = effect.grounded world' := by
  cases effect with
  | move motion =>
    obtain ⟨shift, turn⟩ := motion
    cases shift with
    | absolute offset reference =>
      cases reference with
      | none => rfl
      | some object => simp only [grounded, Shift.grounded, same object rfl]
    | _ => rfl
  | _ => rfl

variable (this : String) (locals : Locals α) (world : World α)

/-- Each part of the place of the reference object is looked at before it may be written. -/
theorem thread_targetPosition {slot : Axis → Slot}
    (apart : ∀ written seen, written ≠ seen → slot written ≠ .position seen) (offset : Vec α)
    (object : String) :
    Block.thread this locals world (Axis.all.map fun axis =>
        (slot axis).write ((targetPosition offset (some object)).get axis)) =
      Block.thread this locals world (Axis.all.map fun axis =>
        (slot axis).write ((targetPosition (world.positionOf object + offset) none).get axis)) := by
  have looking (axis : Axis) (now : World α) :
      (((targetPosition offset (some object)).get axis).eval now this locals).number =
        now.read object (Slot.position axis).key + offset.get axis := by
    cases axis <;> exact congrArg Value.number (Expr.eval_add _ _ _ _ _)
  have given (axis : Axis) (now : World α) :
      (((targetPosition (world.positionOf object + offset) none).get axis).eval now this
        locals).number = world.read object (Slot.position axis).key + offset.get axis := by
    cases axis <;> exact congrArg Value.number (Expr.eval_num _ _ _ _)
  have xy := apart .x .y (by simp)
  have xz := apart .x .z (by simp)
  have yz := apart .y .z (by simp)
  simp [Axis.all, looking, given, World.read_write, xy, xz, yz]

theorem thread_shiftNow (shift : Shift α) :
    Block.thread this locals world (shiftNow shift) =
      Block.thread this locals world (shiftNow (shift.grounded world)) := by
  cases shift with
  | absolute offset reference =>
    cases reference with
    | none => rfl
    | some object => exact thread_targetPosition this locals world (by simp [Slot.position]) _ _
  | _ => rfl

theorem thread_beginShift (number : Nat) (steps : α) (shift : Shift α) :
    Block.thread this locals world (beginShift number steps shift) =
      Block.thread this locals world (beginShift number steps (shift.grounded world)) := by
  cases shift with
  | absolute offset reference =>
    cases reference with
    | none => rfl
    | some object =>
      have apart (written seen : Axis) (_ : written ≠ seen) :
          targetSlot number written ≠ .position seen := by simp [targetSlot, Slot.position]
      rw [Shift.grounded, beginShift, beginShift, Block.thread_append, Block.thread_append,
        thread_targetPosition this locals world apart offset object]
  | _ => rfl

theorem thread_now (effect : Effect α) :
    Block.thread this locals world effect.now =
      Block.thread this locals world (effect.grounded world).now := by
  cases effect with
  | move motion =>
    rw [grounded, now, now, moveNow, moveNow, Block.thread_append, Block.thread_append,
      thread_shiftNow]
  | _ => rfl

theorem thread_start (number : Nat) (steps : α) (effect : Effect α) :
    Block.thread this locals world (effect.start number steps) =
      Block.thread this locals world ((effect.grounded world).start number steps) := by
  cases effect with
  | move motion =>
    rw [grounded, start, start, beginMotion, beginMotion, Block.thread_append, Block.thread_append,
      thread_beginShift]
  | _ => rfl

end Effect

namespace Instance

/-- The same action, with the place of its reference object instead of the object. -/
def grounded (world : World α) (self : Instance α) : Instance α :=
  { self with effect := self.effect.grounded world }

variable (self : Instance α) (this : String) (locals : Locals α) (world : World α)

/-- An action begins as with the place where its reference object is at that moment. -/
theorem runAll_opening :
    Block.runAll this locals world self.opening =
      Block.runAll this locals world (self.grounded world).opening := by
  have enter : Block.thread this locals world self.phases.enter =
      Block.thread this locals world (self.grounded world).phases.enter := by
    rw [phases, phases, Effect.phases, Effect.phases, grounded]
    split
    · exact self.effect.thread_now this locals world
    · exact self.effect.thread_start this locals world _ _
  rw [opening, opening, Block.runAll_eq_thread, Block.runAll_eq_thread, Block.thread_append,
    Block.thread_append, enter]
  rfl

theorem named_opening_grounded : Block.named (self.grounded world).opening = [] :=
  named_opening _ (Effect.reference?_grounded _ world)

/-! ### One member -/

variable {self this world}

/-- The beginning on one member concerns no other object. -/
theorem view_opening_other {other : String} (apart : other ≠ this) :
    (Block.runAll this locals world self.opening).view other = world.view other := by
  rw [runAll_opening]
  exact Block.view_runAll_other (self.named_opening_grounded world) locals apart world

/-- The beginning on one member depends on what is found there, and on where the reference object
is. -/
theorem view_opening {world' : World α} (hosts : world.hosts = world'.hosts)
    (same : world.view this = world'.view this)
    (place : ∀ object, self.effect.reference? = some object →
      world.positionOf object = world'.positionOf object) :
    (Block.runAll this locals world self.opening).view this =
      (Block.runAll this locals world' self.opening).view this := by
  rw [runAll_opening, self.runAll_opening this locals world',
    show self.grounded world = self.grounded world' from
      congrArg (fun effect => { self with effect }) (Effect.grounded_congr place)]
  exact Block.view_runAll (self.named_opening_grounded world') locals hosts same

omit [Trigonometric α] in
theorem positionOf_eq_of_view [Scalar α] {world' : World α} {object : String}
    (same : world.view object = world'.view object) :
    world.positionOf object = world'.positionOf object := by
  have bag : world.bag object = world'.bag object := by
    rw [World.bag, World.bag, (Prod.mk.inj same).1]
  simp only [World.positionOf, World.read, bag]

/-- An action that takes time begins without moving anything. -/
theorem positionOf_opening (takesTime : self.timing.isInstant = false) {object : String}
    (referred : self.effect.reference? = some object) :
    (Block.runAll this locals world self.opening).positionOf object =
      world.positionOf object := by
  obtain ⟨motion, isMove⟩ : ∃ motion, self.effect = .move motion := by
    cases effect : self.effect with
    | move motion => exact ⟨motion, rfl⟩
    | _ => rw [effect] at referred; cases referred
  let noted : String → Slot → Prop := fun _ slot => ∃ field, slot = .action self.number field
  have notes : Block.WritesOnly noted this self.opening := by
    rw [opening, phases, Effect.phases, takesTime, if_neg Bool.false_ne_true, isMove]
    refine Block.writesOnly_append.mpr ⟨Block.writesOnly_append.mpr ⟨?_, ?_⟩, ?_⟩
    · exact Effect.writesOnly_beginShift (fun _ => ⟨_, rfl⟩) (fun _ => ⟨_, rfl⟩) _
    · exact Effect.writesOnly_beginTurn (fun _ => ⟨_, rfl⟩) (fun _ => ⟨_, rfl⟩)
        (fun _ => ⟨_, rfl⟩) _
    · split
      · rw [Block.writesOnly_cons_cons, Block.writesOnly_write, Block.writesOnly_write]
        exact ⟨⟨_, rfl⟩, _, rfl⟩
      · exact Block.writesOnly_nil
  have kept (axis : Axis) :
      (Block.runAll this locals world self.opening).read object (Slot.position axis).key =
        world.read object (Slot.position axis).key := by
    refine notes.read_runAll ?_ locals world
    rintro ⟨field, same⟩
    cases same
  simp only [World.positionOf, kept]

/-! ### All members -/

variable (self)

/-- The world after an action has begun on some members, one after another. -/
def begun (locals : Locals α) (world : World α) (members : List String) : World α :=
  members.foldl (fun world target => Block.runAll target locals world self.opening) world

variable {self} {members : List String}

theorem runAll_dispatch :
    Block.runAll this locals world self.dispatch = self.begun locals world self.targets := by
  rw [dispatch]
  induction self.targets generalizing world with
  | nil => exact Block.runAll_nil _ _ _
  | cons target rest inductionHypothesis =>
    rw [List.map_cons, Block.runAll_cons, Stmt.run, inductionHypothesis]
    rfl

theorem hosts_begun : (self.begun locals world members).hosts = world.hosts := by
  induction members generalizing world with
  | nil => rfl
  | cons target rest inductionHypothesis =>
    exact inductionHypothesis.trans (Block.hosts_runAll _ _ _ _)

/-- Who is no member stays as it is. -/
theorem view_begun_other {object : String} (free : object ∉ members) :
    (self.begun locals world members).view object = world.view object := by
  induction members generalizing world with
  | nil => rfl
  | cons target rest inductionHypothesis =>
    rw [List.mem_cons, not_or] at free
    exact (inductionHypothesis free.2).trans (view_opening_other locals free.1)

theorem positionOf_begun (takesTime : self.timing.isInstant = false) {object : String}
    (referred : self.effect.reference? = some object) :
    (self.begun locals world members).positionOf object = world.positionOf object := by
  induction members generalizing world with
  | nil => rfl
  | cons target rest inductionHypothesis =>
    exact inductionHypothesis.trans (positionOf_opening locals takesTime referred)

variable (self) in
/-- What a member finds after some others: where they have gone is of importance only if the
reference object is among them and goes at once. -/
def foundAfter (locals : Locals α) (world : World α) (before : List String) : World α :=
  match self.effect.reference? with
  | some object =>
    if self.timing.isInstant ∧ object ∈ before then Block.runAll object locals world self.opening
    else world
  | none => world

variable {before after : List String} {target : String}
  (once : (before ++ target :: after).Nodup)

include once

/-- A member begins in its turn, and is left alone after it. -/
theorem view_begun_of_place {found : World α} (hosts : found.hosts = world.hosts)
    (same : found.view target = world.view target)
    (place : ∀ object, self.effect.reference? = some object →
      (self.begun locals world before).positionOf object = found.positionOf object) :
    (self.begun locals world (before ++ target :: after)).view target =
      (Block.runAll target locals found self.opening).view target := by
  obtain ⟨notBefore, notAfter⟩ := Lists.eq_of_nodup_append once
  rw [begun, List.foldl_append, List.foldl_cons]
  refine (view_begun_other locals notAfter).trans (view_opening locals ?_ ?_ place)
  · exact (hosts_begun locals).trans hosts.symm
  · exact (view_begun_other locals notBefore).trans same.symm

/-- Each member begins as in the world that it finds. -/
theorem view_begun :
    (self.begun locals world (before ++ target :: after)).view target =
      (Block.runAll target locals (self.foundAfter locals world before) self.opening).view
        target := by
  obtain ⟨notBefore, -⟩ := Lists.eq_of_nodup_append once
  cases referred : self.effect.reference? with
  | none =>
    rw [foundAfter, referred]
    exact view_begun_of_place locals once rfl rfl fun object refers =>
      absurd (referred.symm.trans refers) (Option.some_ne_none object).symm
  | some reference =>
    rw [foundAfter, referred]
    dsimp only
    split
    next moved =>
      obtain ⟨-, isBefore⟩ := moved
      obtain ⟨first, last, rfl⟩ := List.append_of_mem isBefore
      have apart : target ≠ reference := fun same => notBefore (by simp [same])
      refine view_begun_of_place locals once (Block.hosts_runAll _ _ _ _)
        (view_opening_other locals apart) fun object refers => ?_
      obtain rfl : reference = object := Option.some.inj (referred.symm.trans refers)
      -- The reference object itself began where it was.
      have onceBefore := (List.nodup_append.mp once).1
      refine positionOf_eq_of_view (view_begun_of_place locals onceBefore rfl rfl fun object refers => ?_)
      obtain rfl : reference = object := Option.some.inj (referred.symm.trans refers)
      exact positionOf_eq_of_view (view_begun_other locals (Lists.eq_of_nodup_append onceBefore).1)
    next still =>
      refine view_begun_of_place locals once rfl rfl fun object refers => ?_
      obtain rfl : reference = object := Option.some.inj (referred.symm.trans refers)
      by_cases instant : self.timing.isInstant
      · exact positionOf_eq_of_view (view_begun_other locals fun isBefore => still ⟨instant, isBefore⟩)
      · exact positionOf_begun locals (Bool.not_eq_true _ ▸ instant) referred

omit once

/-! ### Dispatches -/

variable (self) in
/-- A movement at once does not go beside one of its own members. -/
def LooksOutside : Prop :=
  ∀ object, self.effect.reference? = some object → self.timing.isInstant → object ∉ self.targets

/-- A dispatch leaves all but its members as they are, and each member as if the action had begun on
this member alone, where members do not go at once to where one of them is. -/
theorem view_dispatch (once : self.targets.Nodup) (outside : self.LooksOutside) (object : String) :
    (Block.runAll this locals world self.dispatch).view object =
      if object ∈ self.targets then (Block.runAll object locals world self.opening).view object
      else world.view object := by
  rw [runAll_dispatch]
  split
  next member =>
    obtain ⟨before, after, targets⟩ := List.append_of_mem member
    have found : self.foundAfter locals world before = world := by
      rw [foundAfter]
      split
      next reference referred =>
        rw [if_neg]
        rintro ⟨instant, isBefore⟩
        exact outside reference referred instant (targets ▸ List.mem_append_left _ isBefore)
      next => rfl
    rw [targets] at once ⊢
    rw [view_begun locals once, found]
  next free => exact view_begun_other locals free

/-- So then the order of the members is of no importance. -/
theorem dispatch_in_any_order (once : self.targets.Nodup) (outside : self.LooksOutside)
    {members : List String} (permuted : members.Perm self.targets) (object : String) :
    (Block.runAll this locals world { self with targets := members }.dispatch).view object =
      (Block.runAll this locals world self.dispatch).view object := by
  have outside' : LooksOutside { self with targets := members } :=
    fun reference referred instant member =>
      outside reference referred instant (permuted.subset member)
  rw [view_dispatch locals once outside, view_dispatch locals (permuted.nodup_iff.mpr once) outside']
  simp only [permuted.mem_iff]
  rfl

/-- A movement at once to a place beside a reference object ends there. -/
theorem positionOf_shiftNow (hosted : world.hosts this) (offset : Vec α) (reference : String) :
    (Block.runAll this locals world
      (Effect.shiftNow (.absolute offset (some reference)))).positionOf this =
        world.positionOf reference + offset := by
  let value (axis : Axis) : Expr α :=
    (Effect.targetPosition (world.positionOf reference + offset) none).get axis
  have isNumber (axis : Axis) : value axis = .num ((world.positionOf reference + offset).get axis) := by
    cases axis <;> rfl
  have placed (axis : Axis) :
      (Block.runAll this locals world (Block.assign Slot.position value Axis.all)).read this
        (Slot.position axis).key = ((value axis).eval world this locals).number := by
    refine Block.read_assign _ _ hosted (by decide) (fun first second same => ?_) (fun axis => ?_)
      (by cases axis <;> decide)
    · simpa [Slot.position] using same
    · rw [isNumber]
      exact Expr.ignores_num _
  rw [Block.runAll_eq_thread, Effect.thread_shiftNow, ← Block.runAll_eq_thread]
  show (Block.runAll this locals world (Block.assign Slot.position value Axis.all)).positionOf this = _
  simp only [World.positionOf, placed, isNumber, Expr.eval_num, Value.number]
  rfl

theorem positionOf_gone {offset : Vec α} {reference : String} {turn : Turn α}
    (goes : self.effect = .move ⟨.absolute offset (some reference), turn⟩)
    (instant : self.timing.isInstant) (hosted : world.hosts this) :
    (Block.runAll this locals world self.opening).positionOf this =
      world.positionOf reference + offset := by
  let rest : Block α := Effect.turnNow turn ++
    (if self.isTimed then [self.active.write (.num 1), self.elapsed.write (.num 0)] else [])
  have split : self.opening = Effect.shiftNow (.absolute offset (some reference)) ++ rest := by
    rw [opening, phases, Effect.phases, if_pos instant, goes, Effect.now, Effect.moveNow,
      List.append_assoc]
  have bound : Block.WritesOnly (fun _ slot => ¬∃ axis, slot = .position axis) this rest := by
    refine Block.writesOnly_append.mpr ⟨Effect.writesOnly_turnNow (fun _ part => ?_), ?_⟩
    · simp [Slot.position, Slot.orientation]
    · split
      · simp [active, elapsed, Slot.position]
      · exact Block.writesOnly_nil
  have kept (axis : Axis) (left : World α) (names : Locals α) :
      (Block.runAll this names left rest).read this (Slot.position axis).key =
        left.read this (Slot.position axis).key :=
    bound.read_runAll (by simp) names left
  rw [split, Block.runAll_append, ← positionOf_shiftNow locals hosted offset reference]
  simp only [World.positionOf, kept]

/-- Members that go at once to a place beside one of them go beside where it was up to its own turn,
and beside where it has gone after its turn. -/
theorem positionOf_members {offset : Vec α} {reference : String} {turn : Turn α}
    (goes : self.effect = .move ⟨.absolute offset (some reference), turn⟩)
    (instant : self.timing.isInstant) (targets : self.targets = before ++ target :: after)
    (once : self.targets.Nodup) (hosted : ∀ object, world.hosts object) :
    (Block.runAll this locals world self.dispatch).positionOf target =
      if reference ∈ before then world.positionOf reference + offset + offset
      else world.positionOf reference + offset := by
  have referred : self.effect.reference? = some reference := by rw [goes]; rfl
  rw [runAll_dispatch, targets]
  rw [targets] at once
  rw [positionOf_eq_of_view (view_begun locals once), foundAfter, referred]
  dsimp only
  have gone : (Block.runAll reference locals world self.opening).positionOf reference =
      world.positionOf reference + offset :=
    positionOf_gone locals goes instant (hosted reference)
  split
  next moved =>
    rw [if_pos moved.2, positionOf_gone locals goes instant, gone]
    rw [Block.hosts_runAll]
    exact hosted target
  next still =>
    rw [if_neg fun isBefore => still ⟨instant, isBefore⟩,
      positionOf_gone locals goes instant (hosted target)]

end Instance

end Stagecraft
