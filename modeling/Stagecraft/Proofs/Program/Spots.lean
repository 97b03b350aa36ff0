/-
This file looks at one stretch of an object's enter block in the midst of a frame. The world at its
turn is what the objects before and the statements before have left, and what happens in the frame
is what happens before, in and after the stretch.
-/

import Stagecraft.Proofs.Logic.Ledger
import Stagecraft.Proofs.Program.Layout

namespace Stagecraft

/-- No source of a list keeps the slot, no action reaches it, and no setup writes it. -/
structure Slot.IsPrivate {α : Type} (actions : List (Instance α))
    (others : List (Owned.Source α)) (slot : Slot) : Prop where
  notKept : ∀ other ∈ others, ¬other.Keeps slot
  notReached : ∀ action ∈ actions, ¬action.Reaches slot
  notInitialized : slot ≠ .initialized
  notCaptured : ∀ channel, slot ≠ .captured channel
  notTimeline : ∀ name field, slot ≠ .timeline name field

namespace Program

variable {α : Type}

/-- A place of a block in the enter phase of a program. -/
structure Spot (program : Program α) (owner : String) (block : Block α) where
  earlier : List (ObjectProgram α)
  placed : ObjectProgram α
  later : List (ObjectProgram α)
  before : Block α
  after : Block α
  objects : program.objects = earlier ++ placed :: later
  id : placed.id = owner
  enter : placed.phases.enter = before ++ (block ++ after)

namespace Spot

variable {program : Program α} {owner : String} {block : Block α}
  (spot : Spot program owner block)

/-- Nothing on other objects writes the slot of the owner in a frame, nor anything after the turn. -/
structure SparesBeside (slot : Slot) : Prop where
  others : ∀ placed, placed ∈ spot.earlier ∨ placed ∈ spot.later →
    ¬(placed.duty .enter).Writes owner slot.key
  after : (owner, slot.key) ∉ Block.writes owner spot.after
  phases : ∀ placed ∈ program.objects, ∀ phase, phase ≠ .enter →
    ¬(placed.duty phase).Writes owner slot.key

/-- Nothing else in a frame writes the slot of the owner. -/
structure Spares (slot : Slot) : Prop extends spot.SparesBeside slot where
  before : (owner, slot.key) ∉ Block.writes owner spot.before

variable [Trigonometric α] (world : World α)

/-- The world in which the owner's turn in the enter phase begins. -/
def opening : World α :=
  Agenda.run (spot.earlier.map (·.duty .enter)) world

/-- The temporaries at the turn of the block, in a frame whose phases begin in a world. -/
def locals : Locals α :=
  (Block.thread owner [] (spot.opening world) spot.before).1

/-- The world at the turn of the block. -/
def turn : World α :=
  Block.runAll owner [] (spot.opening world) spot.before

/-- What happens at the turn of the block. -/
def trace : List (Event α) :=
  Block.traceAll owner (spot.locals world) (spot.turn world) block

/-- The world after the turn of the block. -/
def closing : World α :=
  Block.runAll owner (spot.locals world) (spot.turn world) block

@[simp] theorem hosts_opening : (spot.opening world).hosts = world.hosts :=
  Agenda.hosts_run _ _

@[simp] theorem hosts_turn : (spot.turn world).hosts = world.hosts := by
  rw [turn, Block.hosts_runAll, hosts_opening]

/-- What happens in the frame before the turn. -/
def lead : List (Event α) :=
  Agenda.trace (spot.earlier.map (·.duty .enter)) world ++
    Block.traceAll owner [] (spot.opening world) spot.before

/-- What happens in the frame after the turn. -/
def rest : List (Event α) :=
  let ended := Block.thread owner (spot.locals world) (spot.turn world) block
  let left := Block.runAll owner ended.1 ended.2 spot.after
  let entered := Agenda.run (spot.later.map (·.duty .enter)) left
  Block.traceAll owner ended.1 ended.2 spot.after ++
    (Agenda.trace (spot.later.map (·.duty .enter)) left ++
      ((program.agenda .advance).trace entered ++
        (program.agenda .exit).trace ((program.agenda .advance).run entered)))

variable {world}

/-- A place of a hosted object is found at the turn as what happens before has left it. -/
theorem read_turn_eq {object key : String} (hosted : world.hosts object) :
    (spot.turn world).read object key =
      (Trace.ledger object key (spot.lead world)).getLast?.getD (world.read object key) := by
  have hostedOpening : (spot.opening world).hosts object := by
    rwa [hosts_opening]
  rw [turn, Block.read_runAll_eq hostedOpening, opening, Agenda.read_run_eq _ hosted,
    ← Option.getD_or, ← List.getLast?_append, ← Trace.ledger_append]
  rfl

omit [Trigonometric α] in
/-- A block as long as the enter phase of the first object stands at the front. -/
theorem isFront_of_length {length : Nat} {others : List (String × Nat)}
    (lengths : program.objects.map (fun placed => (placed.id, placed.phases.enter.length)) =
      (owner, length) :: others)
    (apart : owner ∉ others.map (·.1)) (short : length ≤ block.length) :
    spot.earlier = [] ∧ spot.before = [] := by
  have objects := spot.objects
  cases earlier : spot.earlier with
  | nil =>
    rw [objects, earlier, List.nil_append, List.map_cons, spot.enter] at lengths
    have same := (Prod.mk.inj (List.cons.inj lengths).1).2
    rw [List.length_append, List.length_append] at same
    exact ⟨rfl, List.length_eq_zero_iff.mp (by omega)⟩
  | cons first rest =>
    rw [objects, earlier, List.cons_append, List.map_cons] at lengths
    refine absurd ?_ apart
    rw [← (List.cons.inj lengths).2, List.map_map, List.mem_map]
    exact ⟨spot.placed, List.mem_append_right _ List.mem_cons_self, spot.id⟩

/-- So its turn finds the world in which the frame begins. -/
theorem turn_of_front (front : spot.earlier = [] ∧ spot.before = []) (world : World α) :
    spot.turn world = world := by
  rw [turn, opening, front.1, front.2, Block.runAll_nil]
  rfl

/-- A frame is what happens before, at and after the turn. -/
theorem trace_frame (hosted : world.hosts owner) :
    program.frame.trace world = spot.lead world ++ (spot.trace world ++ spot.rest world) := by
  have hostedTurn : (spot.opening world).hosts spot.placed.id := by
    rw [hosts_opening, spot.id]
    exact hosted
  have ownTrace := ObjectProgram.trace_duty hostedTurn .enter
  have ownRun := ObjectProgram.run_duty hostedTurn .enter
  rw [Phases.get, spot.enter, Block.traceAll_append, Block.traceAll_append] at ownTrace
  rw [Phases.get, spot.enter, Block.runAll_append, Block.runAll_append] at ownRun
  rw [spot.id] at ownTrace ownRun
  rw [Program.frame_eq, Program.agenda_eq spot.objects, Agenda.trace_append, Agenda.trace_append,
    Agenda.trace_append, Agenda.trace_cons, Agenda.run_append, Agenda.run_cons, ← opening, ownTrace,
    ownRun, lead, trace, rest]
  simp only [List.append_assoc, Block.runAll_eq_thread, locals, turn]

/-- A frame runs what stands before, at and after the turn. -/
theorem run_frame (hosted : world.hosts owner) :
    program.frame.run world = (program.agenda .exit).run ((program.agenda .advance).run
      (Agenda.run (spot.later.map (·.duty .enter)) (Block.runAll owner
        (Block.thread owner (spot.locals world) (spot.turn world) block).1 (spot.closing world)
        spot.after))) := by
  have hostedTurn : (spot.opening world).hosts spot.placed.id := by
    rw [hosts_opening, spot.id]
    exact hosted
  have ownRun := ObjectProgram.run_duty hostedTurn .enter
  rw [Phases.get, spot.enter, Block.runAll_append, Block.runAll_append, spot.id] at ownRun
  rw [Program.frame_eq, Program.agenda_eq spot.objects, Agenda.run_append, Agenda.run_append,
    Agenda.run_append, Agenda.run_cons, ← opening, ownRun]
  rfl

/-- A slot that no object before writes is found by its owner as the frame found it. -/
theorem read_opening_of_earlier {slot : Slot}
    (earlier : ∀ placed ∈ spot.earlier, ¬(placed.duty .enter).Writes owner slot.key)
    (world : World α) :
    (spot.opening world).read owner slot.key = world.read owner slot.key := by
  refine Agenda.read_run (fun duty inDuties => ?_) world
  obtain ⟨placed, inEarlier, rfl⟩ := List.mem_map.mp inDuties
  exact earlier placed inEarlier

section

variable {slot : Slot} (spares : spot.SparesBeside slot)

include spares

theorem read_opening (world : World α) :
    (spot.opening world).read owner slot.key = world.read owner slot.key :=
  spot.read_opening_of_earlier (fun placed inEarlier => spares.others placed (.inl inEarlier)) world

/-- A slot that nothing writes after the turn is left by the frame as the turn left it. -/
theorem read_frame (hosted : world.hosts owner) :
    (program.frame.run world).read owner slot.key =
      (spot.closing world).read owner slot.key := by
  have later (phase : Phase) (notEnter : phase ≠ .enter) (world : World α) :
      ((program.agenda phase).run world).read owner slot.key = world.read owner slot.key := by
    refine Agenda.read_run (fun duty inDuties => ?_) world
    obtain ⟨placed, isPlaced, rfl⟩ := Program.mem_agenda.mp inDuties
    exact spares.phases placed isPlaced phase notEnter
  have others (world : World α) :
      (Agenda.run (spot.later.map (·.duty .enter)) world).read owner slot.key =
        world.read owner slot.key := by
    refine Agenda.read_run (fun duty inDuties => ?_) world
    obtain ⟨placed, inLater, rfl⟩ := List.mem_map.mp inDuties
    exact spares.others placed (.inr inLater)
  rw [spot.run_frame hosted, later .exit (by simp), later .advance (by simp), others,
    Block.read_runAll _ _ _ _ _ _ spares.after]

end

section

variable {slot : Slot} (spares : spot.Spares slot)

include spares

/-- A slot that nothing else writes is found at the turn as the frame found it. -/
theorem read_turn (world : World α) :
    (spot.turn world).read owner slot.key = world.read owner slot.key := by
  rw [turn, Block.read_runAll _ _ _ _ _ _ spares.before,
    spot.read_opening spares.toSparesBeside]

/-- All entries of such a slot in a frame are made at the turn. -/
theorem ledger_frame (hosted : world.hosts owner) :
    Trace.ledger owner slot.key (program.frame.trace world) =
      Trace.ledger owner slot.key (spot.trace world) := by
  have enter (some : List (ObjectProgram α))
      (inside : ∀ placed ∈ some, placed ∈ spot.earlier ∨ placed ∈ spot.later) (world : World α) :
      Trace.ledger owner slot.key (Agenda.trace (some.map (·.duty .enter)) world) = [] := by
    refine Trace.ledger_agenda (fun duty inDuties => ?_) world
    obtain ⟨placed, inSome, rfl⟩ := List.mem_map.mp inDuties
    exact spares.others placed (inside placed inSome)
  have later (phase : Phase) (notEnter : phase ≠ .enter) (world : World α) :
      Trace.ledger owner slot.key ((program.agenda phase).trace world) = [] := by
    refine Trace.ledger_agenda (fun duty inDuties => ?_) world
    obtain ⟨placed, isPlaced, rfl⟩ := Program.mem_agenda.mp inDuties
    exact spares.phases placed isPlaced phase notEnter
  rw [spot.trace_frame hosted, Trace.ledger_append, Trace.ledger_append, lead, rest]
  simp [enter _ fun _ => .inl, enter _ fun _ => .inr, later .advance, later .exit,
    Trace.ledger_of_notMem spares.before, Trace.ledger_of_notMem spares.after]

end

end Spot

/-! ### Spots of pieces -/

namespace Layout

variable [Trigonometric α] {rate : α} {scene : Scene α} {program : Program α}
  (layout : Layout rate scene program)

section

include layout

/-- An object writes in its enter phase what it keeps and what its actions write. -/
theorem writesOnly_enter_of_keeps {placed : ObjectProgram α} (isPlaced : placed ∈ program.objects)
    {allowed : String → Slot → Prop} (initialized : allowed placed.id .initialized)
    (captured : ∀ channel, allowed placed.id (.captured channel))
    (timelines : ∀ name field, allowed placed.id (.timeline name field))
    (keeps : ∀ (source : Owned.Source α) slot, source.Keeps slot → allowed placed.id slot)
    (dispatched : ∀ owned, layout.Owns placed.id owned → ∀ action ∈ owned.instances, ∀ this,
      Block.WritesOnly allowed this action.dispatch) :
    Block.WritesOnly allowed placed.id placed.phases.enter := by
  obtain ⟨owned, parts, owns⟩ := layout.parts_of_mem isPlaced
  rw [parts]
  refine Block.writesOnly_append.mpr
    ⟨layout.writesOnly_once owns initialized captured timelines _, ?_⟩
  rcases owns with ⟨object, inScene, same⟩ | ⟨-, rfl⟩
  · obtain ⟨pieces, made, joined⟩ := layout.made _ inScene
    dsimp only at joined made
    rw [same] at made
    rw [joined, Owned.enter_concat]
    refine Owned.writesOnly_pieces made (fun source _ => keeps source) fun action inPieces => ?_
    refine dispatched owned (.inl ⟨object, inScene, same⟩) action ?_ _
    rwa [joined, Owned.instances_concat]
  · exact Block.writesOnly_nil

theorem mem_of_owns {id : String} {owned : Owned α} (owns : layout.Owns id owned)
    {action : Instance α} (inOwned : action ∈ owned.instances) : action ∈ instances rate scene := by
  rcases owns with ⟨object, inScene, -⟩ | ⟨-, rfl⟩
  · exact layout.mem_instances inScene inOwned
  · cases inOwned

/-- An object writes in its enter phase what is its own and what actions write. -/
theorem writesOnly_enter {placed : ObjectProgram α} (isPlaced : placed ∈ program.objects)
    {allowed : String → Slot → Prop} (own : ∀ slot, allowed placed.id slot)
    (dispatched : ∀ action ∈ instances rate scene, ∀ this,
      Block.WritesOnly allowed this action.dispatch) :
    Block.WritesOnly allowed placed.id placed.phases.enter :=
  layout.writesOnly_enter_of_keeps isPlaced (own _) (fun _ => own _) (fun _ _ => own _)
    (fun _ _ _ => own _) fun _ owns action inOwned =>
      dispatched action (layout.mem_of_owns owns inOwned)

/-- Outside of the enter phase an object writes what actions on it write that take time. -/
theorem writesOnly_phase {placed : ObjectProgram α} (isPlaced : placed ∈ program.objects)
    {phase : Phase} (notEnter : phase ≠ .enter) {allowed : String → Slot → Prop}
    (reached : ∀ action ∈ instances rate scene, action.isTimed → ∀ slot, action.Reaches slot →
      allowed placed.id slot) :
    Block.WritesOnly allowed placed.id (placed.phases.get phase) := by
  have aimed {action : Instance α} (inTargeting : action ∈ targeting (instances rate scene) placed.id)
      (timed : action.isTimed) {object : String} {slot : Slot}
      (inside : action.ScopeOn placed.id object slot) : allowed object slot :=
    inside.1 ▸ reached action (List.mem_of_mem_filter inTargeting) timed slot inside.2
  obtain ⟨owned, parts, -⟩ := layout.parts_of_mem isPlaced
  cases phase with
  | enter => exact absurd rfl notEnter
  | advance =>
    rw [layout.listed_advance isPlaced]
    refine Block.writesOnly_flatMap fun action inTargeting => ?_
    by_cases timed : action.isTimed
    · exact Instance.writesOnly_advance.mono fun _ _ => aimed inTargeting timed
    · rw [Instance.advance, if_neg timed]
      exact Block.writesOnly_nil
  | exit =>
    rw [layout.listed_exit isPlaced]
    refine Block.writesOnly_flatMap fun action inTargeting => ?_
    by_cases timed : action.isTimed
    · exact Instance.writesOnly_finish.mono fun _ _ => aimed inTargeting timed
    · rw [Instance.finish, if_neg timed]
      exact Block.writesOnly_nil

/-- The actions of an object bear different numbers, and no other object has one of them. -/
theorem nodup_owned : (∀ entry ∈ layout.owned, (entry.2.instances.map (·.number)).Nodup) ∧
    layout.owned.Pairwise (Function.onFun List.Disjoint fun entry =>
      entry.2.instances.map (·.number)) := by
  have once := layout.nodup_numbers
  rw [instances, layout.logic, List.map_flatMap] at once
  exact List.nodup_flatMap.mp once

/-- No two objects own actions with the same number. -/
theorem id_eq_of_number {id id' : String} {owned owned' : Owned α} (owns : layout.Owns id owned)
    (owns' : layout.Owns id' owned') {action action' : Instance α}
    (inOwned : action ∈ owned.instances) (inOwned' : action' ∈ owned'.instances)
    (same : action.number = action'.number) : id = id' := by
  rcases owns with ⟨object, inScene, rfl⟩ | ⟨-, rfl⟩
  · rcases owns' with ⟨object', inScene', rfl⟩ | ⟨-, rfl⟩
    · by_contra different
      have symmetric : Std.Symm (Function.onFun List.Disjoint
          fun entry : SceneObject α × Owned α => entry.2.instances.map (·.number)) :=
        ⟨fun _ _ disjoint => List.Disjoint.symm disjoint⟩
      have apart := layout.nodup_owned.2.forall inScene inScene' fun equal =>
        different (congrArg (fun entry => entry.1.id) equal)
      exact apart (List.mem_map_of_mem inOwned) (same ▸ List.mem_map_of_mem inOwned')
    · cases inOwned'
  · cases inOwned

end

/-! ### Seats -/

/-- Where the piece of a source stands among the pieces of its object, and in the program. -/
structure Seat (object : SceneObject α) (first : List (Owned.Source α)) (source : Owned.Source α)
    (last : List (Owned.Source α)) (piece : Owned α) where
  number : Nat
  made : Owned.Made layout.directory rate object.id number source piece
  early : List (Owned α)
  late : List (Owned α)
  madeEarly : List.Forall₂ (fun source piece =>
    ∃ number, Owned.Made layout.directory rate object.id number source piece) first early
  madeLate : List.Forall₂ (fun source piece =>
    ∃ number, Owned.Made layout.directory rate object.id number source piece) last late
  isOwned : (object, Owned.concat (early ++ piece :: late)) ∈ layout.owned
  spot : Spot program object.id piece.enter
  before : spot.before =
    once (((targeting (instances rate scene) object.id).map (·.setup)).eraseDups.flatten ++
      (Owned.concat (early ++ piece :: late)).setup) ++ early.flatMap (·.enter)
  after : spot.after = late.flatMap (·.enter)
  apart : ∀ other, other ∈ spot.earlier ∨ other ∈ spot.later → other.id ≠ object.id

/-- Each source of an object with logic has a seat. -/
theorem exists_seat {object : SceneObject α} {owned : Owned α}
    (inScene : (object, owned) ∈ layout.owned) (logic : object.hasLogic)
    {first last : List (Owned.Source α)} {source : Owned.Source α}
    (sources : object.sources = first ++ source :: last) :
    ∃ piece, Nonempty (layout.Seat object first source last piece) := by
  obtain ⟨pieces, made, joined⟩ := layout.made _ inScene
  dsimp only at made joined
  subst joined
  rw [sources] at made
  obtain ⟨early, others, rfl, madeEarly, madeOthers⟩ := Lists.exists_of_append_left made
  obtain ⟨piece, late, ⟨number, madePiece⟩, madeLate, rfl⟩ :=
    List.forall₂_cons_left_iff.mp madeOthers
  let owned := Owned.concat (early ++ piece :: late)
  let actions := targeting (instances rate scene) object.id
  let setup := once ((actions.map (·.setup)).eraseDups.flatten ++ owned.setup)
  have isPlaced : ofParts object.id owned actions ∈ program.objects := by
    rw [layout.listed]
    refine List.mem_append_left _ (List.mem_filterMap.mpr ⟨_, inScene, ?_⟩)
    rw [ofObject?, logic, Bool.true_or]
    rfl
  obtain ⟨earlier, later, objects, apart⟩ := layout.exists_place isPlaced
  have enter : (ofParts object.id owned actions).phases.enter =
      (setup ++ early.flatMap (·.enter)) ++ (piece.enter ++ late.flatMap (·.enter)) := by
    show setup ++ (Owned.concat (early ++ piece :: late)).enter = _
    rw [Owned.enter_concat, List.flatMap_append, List.flatMap_cons, List.append_assoc]
  exact ⟨piece, ⟨{
    number, early, late, madeEarly, madeLate, apart
    made := madePiece
    isOwned := inScene
    spot := {
      earlier, later, objects, enter
      placed := ofParts object.id owned actions
      before := setup ++ early.flatMap (·.enter)
      after := late.flatMap (·.enter)
      id := rfl }
    before := rfl
    after := rfl }⟩⟩

namespace Seat

variable {layout} {object : SceneObject α} {first last : List (Owned.Source α)}
  {source : Owned.Source α} {piece : Owned α} (seat : layout.Seat object first source last piece)

theorem mem_program {other : ObjectProgram α}
    (inside : other ∈ seat.spot.earlier ∨ other ∈ seat.spot.later) : other ∈ program.objects := by
  rw [seat.spot.objects, List.mem_append, List.mem_cons]
  exact inside.imp_right .inr

theorem owns : layout.Owns object.id (Owned.concat (seat.early ++ piece :: seat.late)) :=
  .inl ⟨object, seat.isOwned, rfl⟩

theorem mem_instances {action : Instance α} (inPieces :
    action ∈ (seat.early ++ piece :: seat.late).flatMap (·.instances)) :
    action ∈ instances rate scene :=
  layout.mem_instances seat.isOwned (by rwa [Owned.instances_concat])

include seat in
theorem mem_of_piece {action : Instance α} (inPiece : action ∈ piece.instances) :
    action ∈ instances rate scene :=
  seat.mem_instances (List.mem_flatMap.mpr ⟨piece, by simp, inPiece⟩)

section

variable {allowed : String → Slot → Prop}

/-- The pieces before this one write what their sources keep and what their actions write. -/
theorem writesOnly_early (keeps : ∀ other ∈ first, ∀ slot, other.Keeps slot → allowed object.id slot)
    (dispatched : ∀ action ∈ seat.early.flatMap (·.instances), ∀ this,
      Block.WritesOnly allowed this action.dispatch) :
    Block.WritesOnly allowed object.id (seat.early.flatMap (·.enter)) :=
  Owned.writesOnly_pieces seat.madeEarly keeps fun action inEarly => dispatched action inEarly _

/-- So do the pieces after it. -/
theorem writesOnly_late (keeps : ∀ other ∈ last, ∀ slot, other.Keeps slot → allowed object.id slot)
    (dispatched : ∀ action ∈ seat.late.flatMap (·.instances), ∀ this,
      Block.WritesOnly allowed this action.dispatch) :
    Block.WritesOnly allowed object.id (seat.late.flatMap (·.enter)) :=
  Owned.writesOnly_pieces seat.madeLate keeps fun action inLate => dispatched action inLate _

/-- Before the turn of the piece its object also sets up. -/
theorem writesOnly_before (initialized : allowed object.id .initialized)
    (captured : ∀ channel, allowed object.id (.captured channel))
    (timelines : ∀ name field, allowed object.id (.timeline name field))
    (early : Block.WritesOnly allowed object.id (seat.early.flatMap (·.enter))) :
    Block.WritesOnly allowed object.id seat.spot.before := by
  rw [seat.before]
  exact Block.writesOnly_append.mpr
    ⟨layout.writesOnly_once seat.owns initialized captured timelines _, early⟩

end

section

variable {slot : Slot} (notReached : ∀ action ∈ instances rate scene, ¬action.Reaches slot)

include notReached

omit seat in
/-- What no action reaches no dispatch writes. -/
theorem writesOnly_dispatch {action : Instance α} (member : action ∈ instances rate scene)
    (this : String) :
    Block.WritesOnly (fun id written => id = object.id → written ≠ slot) this action.dispatch :=
  (action.writesOnly_dispatch this).mono fun _ _ inside _ same =>
    notReached action member (same ▸ inside.2)

/-- A slot that no action reaches and no later source keeps is written nowhere after the piece, and
on no other object. -/
theorem sparesBeside (notKept : ∀ other ∈ last, ¬other.Keeps slot) :
    seat.spot.SparesBeside slot := by
  let allowed : String → Slot → Prop := fun id written => id = object.id → written ≠ slot
  have forbidden : ¬allowed object.id slot := fun isAllowed => isAllowed rfl rfl
  constructor
  · intro other inside
    have own : ∀ written, allowed other.id written :=
      fun _ same => absurd same (seat.apart other inside)
    exact (layout.writesOnly_enter (seat.mem_program inside) own
      fun _ => writesOnly_dispatch notReached).notMem forbidden
  · have late : Block.WritesOnly allowed object.id (seat.late.flatMap (·.enter)) :=
      seat.writesOnly_late (fun other inLast _ keeps _ same => notKept other inLast (same ▸ keeps))
        fun action inLate => writesOnly_dispatch notReached (seat.mem_instances (by
          rw [List.flatMap_append, List.flatMap_cons]
          exact List.mem_append_right _ (List.mem_append_right _ inLate)))
    rw [seat.after]
    exact late.notMem forbidden
  · intro other inProgram phase notEnter
    have own : Block.WritesOnly allowed other.id (other.phases.get phase) :=
      layout.writesOnly_phase inProgram notEnter fun action member _ written reached _ same =>
        notReached action member (same ▸ reached)
    exact own.notMem forbidden

end

/-- A slot that is private to the source is written nowhere else. -/
theorem spares {slot : Slot} (isPrivate : slot.IsPrivate (instances rate scene) (first ++ last)) :
    seat.spot.Spares slot := by
  let allowed : String → Slot → Prop := fun id written => id = object.id → written ≠ slot
  have early : Block.WritesOnly allowed object.id (seat.early.flatMap (·.enter)) :=
    seat.writesOnly_early
      (fun other inFirst _ keeps _ same =>
        isPrivate.notKept other (List.mem_append_left _ inFirst) (same ▸ keeps))
      fun action inEarly => writesOnly_dispatch isPrivate.notReached (seat.mem_instances (by
        rw [List.flatMap_append]
        exact List.mem_append_left _ inEarly))
  have before := seat.writesOnly_before (fun _ => isPrivate.notInitialized.symm)
    (fun channel _ => (isPrivate.notCaptured channel).symm)
    (fun name field _ => (isPrivate.notTimeline name field).symm) early
  exact ⟨seat.sparesBeside isPrivate.notReached
    fun other inLast => isPrivate.notKept other (List.mem_append_right _ inLast),
    before.notMem fun isAllowed => isAllowed rfl rfl⟩

end Seat

/-- Each source of an object has a spot in the program, where its piece stands. A slot that is
private to the source is written nowhere else. -/
theorem exists_spot {object : SceneObject α} {owned : Owned α}
    (inScene : (object, owned) ∈ layout.owned) (logic : object.hasLogic)
    {first last : List (Owned.Source α)} {source : Owned.Source α}
    (sources : object.sources = first ++ source :: last) :
    ∃ number piece, Owned.Made layout.directory rate object.id number source piece ∧
      (∀ action ∈ piece.instances, action ∈ instances rate scene) ∧
      ∃ spot : Spot program object.id piece.enter, ∀ slot : Slot,
        slot.IsPrivate (instances rate scene) (first ++ last) → spot.Spares slot := by
  obtain ⟨piece, ⟨seat⟩⟩ := layout.exists_seat inScene logic sources
  exact ⟨seat.number, piece, seat.made, fun _ => seat.mem_of_piece, seat.spot,
    fun _ isPrivate => seat.spares isPrivate⟩

end Layout

end Program

end Stagecraft
