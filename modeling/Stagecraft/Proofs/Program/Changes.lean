/-
This file shows that a frame changes what is seen and heard of an object only through actions on
that object, and each action only what its kind is there to change. Bookkeeping is spelled
otherwise, whatever triggers, timelines and sounds are called. So an object on which no action is
ever opened looks and sounds as it did at first.
-/

import Stagecraft.Proofs.Program.Declared
import Stagecraft.Proofs.Program.Openings
import Stagecraft.Proofs.Program.Spots

namespace Stagecraft

variable {α : Type}

/-! ### What is seen and heard -/

/-- The slot holds something that is seen or heard of an object. -/
def Slot.IsShown : Slot → Prop
  | .channel _ | .sound _ _ => True
  | _ => False

/-- The key spells something that is seen of an object, or some key of its sounds. -/
def IsShownKey (key : String) : Prop :=
  key = "visible" ∨ key = "alpha" ∨
    ∃ family ∈ ["position", "orientation", "sound"], ∃ rest, key.toList = family.toList ++ '.' :: rest

/-- Only slots of what is seen and heard are spelled so. -/
theorem Slot.isShown_of_key {slot : Slot} (shown : IsShownKey slot.key) : slot.IsShown := by
  have told {family : Nat} (name : String) (isStem : slot.stem = name)
      (known : families.lookup name = some family) (isShown : family = 0 ∨ family = 7) :
      slot.IsShown := by
    have same : slot.family = family := Option.some.inj ((lookup_stem slot).symm.trans (isStem ▸ known))
    rw [← same] at isShown
    cases slot <;> simp [Slot.family] at isShown <;> trivial
  rcases shown with key | key | ⟨name, member, rest, key⟩
  · exact told "visible" (by rw [stem, key]; decide) (by decide) (.inl rfl)
  · exact told "alpha" (by rw [stem, key]; decide) (by decide) (.inl rfl)
  · have isStem (free : ∀ c ∈ name.toList, decide (c ≠ '.') = true) : slot.stem = name := by
      rw [stem, key, Lists.takeWhile_append free (by simp), String.ofList_toList]
    simp only [List.mem_cons, List.not_mem_nil, or_false] at member
    rcases member with rfl | rfl | rfl
    · exact told _ (isStem (by simp)) (by decide) (.inl rfl)
    · exact told _ (isStem (by simp)) (by decide) (.inl rfl)
    · exact told _ (isStem (by simp)) (by decide) (.inr rfl)

/-- All slots of what is seen and heard are spelled so. -/
theorem Slot.isShownKey {slot : Slot} (shown : slot.IsShown) : IsShownKey slot.key := by
  cases slot with
  | channel seen =>
    cases seen with
    | visible => exact .inl rfl
    | alpha => exact .inr (.inl rfl)
    | position axis =>
      refine .inr (.inr ⟨"position", by simp, axis.name.toList, ?_⟩)
      cases axis <;> decide
    | orientation part =>
      refine .inr (.inr ⟨"orientation", by simp, part.name.toList, ?_⟩)
      cases part <;> decide
  | sound name field =>
    refine .inr (.inr ⟨"sound", by simp, (name ++ "." ++ field.key).toList, ?_⟩)
    simp [key, soundKey]
  | _ => cases shown

/-! ### What actions are for -/

def Rotation.Turns : Rotation α → Prop
  | .unchanged => False
  | _ => True

/-- What an action of a kind is there to change, of what is seen and heard of an object. -/
def ActionKind.Drives : ActionKind α → Slot → Prop
  | .visibility _, slot => slot = .visible ∨ slot = .alpha
  | .move placement _, slot =>
    (placement.position.isSome ∧ ∃ axis, slot = .position axis) ∨
      (placement.rotation.Turns ∧ ∃ part, slot = .orientation part)
  | .sound name _, slot => ∃ field, slot = .sound name field
  | .reset, slot => ∃ channel, slot = .channel channel
  | .group _ inner, slot => inner.Drives slot
  | .timeline .., _ => False
  | .triggerToggle .., _ => False

section

variable [Trigonometric α]

theorem Shift.isSome_of_moves {context : Context} {placement : Placement α} {relative : Bool}
    {shift : Shift α} (made : ofPlacement context placement relative = .ok shift)
    (moves : shift.Moves) : placement.position.isSome := by
  rw [ofPlacement] at made
  split at made
  · obtain rfl := Except.ok.inj made
    cases moves
  · rename_i position found
    rw [found]
    rfl

theorem Turn.turns_of_moves {context : Context} {shift : Shift α} {relative : Bool}
    {rotation : Rotation α} {turn : Turn α}
    (made : ofRotation context shift relative rotation = .ok turn) (moves : turn.Moves) :
    rotation.Turns := by
  cases rotation with
  | unchanged =>
    obtain rfl := Except.ok.inj made
    cases moves
  | _ => trivial

namespace Effect

variable {directory : Directory α} {context : Context} {kind : ActionKind α} {effect : Effect α}
  {slot : Slot}

/-- The effect of a kind changes nothing else that is seen or heard. -/
theorem drives_of_ofObjectAction (made : ofObjectAction directory context kind = .ok effect)
    (drives : effect.Drives slot) (shown : slot.IsShown) : kind.Drives slot := by
  cases made_of_ofObjectAction made with
  | fade visible => exact drives
  | move placement relative motion moved =>
    obtain ⟨shift, shifted, moved⟩ := Outcome.bind_eq_ok.mp moved
    obtain ⟨turn, turned, moved⟩ := Outcome.bind_eq_ok.mp moved
    have isMotion : motion = ⟨shift, turn⟩ := by
      split at moved
      · exact absurd moved Outcome.throw_ne_ok
      · exact (Outcome.pure_eq_ok.mp moved).symm
    subst isMotion
    exact drives.imp (And.imp_left (Shift.isSome_of_moves shifted))
      (And.imp_left (Turn.turns_of_moves turned))
  | sound name change volume => exact drives
  | restore =>
    rcases drives with channel | ⟨channel, rfl⟩
    · exact channel
    · cases shown

end Effect

/-- Of what is seen and heard, an instance reaches what its action is there to change. -/
theorem Declared.Becomes.drives {directory : Directory α} {rate : α} {declared : Declared α}
    {action : Instance α} (becomes : declared.Becomes directory rate action) {slot : Slot}
    (reached : action.Reaches slot) (shown : slot.IsShown) : declared.action.kind.Drives slot := by
  have drives : action.effect.Drives slot := by
    rcases reached with (drives | ⟨field, -, -, rfl⟩) | rfl | rfl
    · exact drives
    · cases shown
    · cases shown
    · cases shown
  obtain ⟨-, resolves⟩ := Action.resolves_of_resolve becomes
  generalize action.targets = targets, action.effect = effect at resolves drives
  cases resolves with
  | timeline =>
    obtain ⟨field, rfl⟩ := drives
    cases shown
  | toggle =>
    obtain rfl := drives
    cases shown
  | group isKind _ made =>
    rw [isKind, ActionKind.Drives]
    exact Effect.drives_of_ofObjectAction made drives shown
  | object _ made => exact Effect.drives_of_ofObjectAction made drives shown

end

/-! ### Between the frames -/

namespace Stage

variable {object key : String} (stage : Stage α)

theorem read_visited_of_spared [Scalar α] {visits : List (Visit α)}
    (spared : ∀ visit ∈ visits, ¬(visit.object = object ∧ visit.slot.key = key)) :
    (stage.visited visits).world.read object key = stage.world.read object key := by
  rw [visited]
  dsimp only
  generalize stage.world = world
  induction visits generalizing world with
  | nil => rfl
  | cons visit rest inductionHypothesis =>
    obtain ⟨here, later⟩ := List.forall_mem_cons.mp spared
    rw [List.foldl_cons, inductionHypothesis later, World.read_write,
      if_neg fun same => here same.2]

variable [Scalar α] (shown : IsShownKey key)

include shown

/-- Where an object faces is neither seen nor heard. -/
theorem read_face_of_shown (forward : Quaternion α → Vec α) :
    (stage.face forward).read object key = stage.world.read object key := by
  refine World.read_foldl (fun world id => World.read_foldl (fun world axis => ?_) _ world) _ _
  rw [World.read_write, if_neg]
  rintro ⟨-, -, rfl⟩
  exact Slot.isShown_of_key shown

/-- Whether an object is selected is neither seen nor heard. -/
theorem read_release_of_shown (world : World α) :
    (stage.release world).read object key = world.read object key := by
  refine World.read_foldl (fun world id => ?_) _ world
  split
  · rfl
  · rw [World.read_write, if_neg]
    rintro ⟨-, -, rfl⟩
    exact Slot.isShown_of_key shown

end Stage

namespace Run

variable [Trigonometric α] (run : Run α) {object key : String} (shown : IsShownKey key)
  {frame : Nat}

include shown

/-- What visitors leave alone is found by a frame as the last one left it. -/
theorem read_world_of_shown
    (spared : ∀ visit ∈ run.visits frame, ¬(visit.object = object ∧ visit.slot.key = key)) :
    (run.world frame).read object key = (run.stage frame).world.read object key :=
  (Stage.read_face_of_shown _ shown _).trans (Stage.read_visited_of_spared _ spared)

theorem read_stage_succ_of_shown :
    (run.stage (frame + 1)).world.read object key =
      (run.program.frame.run (run.world frame)).read object key := by
  rw [run.stage_succ]
  exact Stage.read_release_of_shown _ shown _

end Run

/-! ### Frames -/

namespace Program.Layout

variable [Trigonometric α] {rate : α} {scene : Scene α} {program : Program α}
  (layout : Layout rate scene program) {world : World α} {object key : String}

include layout

/-- Nothing is written on objects that are not hosted. -/
theorem read_frame_of_absent (absent : ¬(Stage.ofScene scene).world.hosts object) :
    (program.frame.run world).read object key = world.read object key := by
  have enter {placed : ObjectProgram α} (isPlaced : placed ∈ program.objects) :
      Block.WritesOnly (fun id _ => (Stage.ofScene scene).world.hosts id) placed.id
        placed.phases.enter :=
    layout.writesOnly_enter isPlaced (fun _ => layout.hosts_of_mem isPlaced) fun action member this =>
      (action.writesOnly_dispatch this).mono fun _ _ inside => layout.hosts_target member inside.1
  have later {placed : ObjectProgram α} (isPlaced : placed ∈ program.objects) {phase : Phase}
      (notEnter : phase ≠ .enter) :
      Block.WritesOnly (fun id _ => (Stage.ofScene scene).world.hosts id) placed.id
        (placed.phases.get phase) :=
    layout.writesOnly_phase isPlaced notEnter fun _ _ _ _ _ => layout.hosts_of_mem isPlaced
  refine Agenda.read_run (fun duty inFrame writes => ?_) world
  obtain ⟨phase, -, inPhase⟩ := List.mem_flatMap.mp inFrame
  obtain ⟨placed, isPlaced, rfl⟩ := mem_agenda.mp inPhase
  cases phase with
  | enter => exact absurd (enter isPlaced _ writes).choose_spec.2 absent
  | advance =>
    have notEnter : Phase.advance ≠ .enter := by simp
    exact absurd (later isPlaced notEnter _ writes).choose_spec.2 absent
  | exit =>
    have notEnter : Phase.exit ≠ .enter := by simp
    exact absurd (later isPlaced notEnter _ writes).choose_spec.2 absent

variable (hosts : world.hosts = (Stage.ofScene scene).world.hosts)

include hosts

/-- What a frame changes of what is seen and heard, an action on the object changes that is opened
in the frame or goes on at its beginning. -/
theorem exists_of_change (shown : IsShownKey key)
    (changed : (program.frame.run world).read object key ≠ world.read object key) :
    ∃ action ∈ instances rate scene, object ∈ action.targets ∧
      (∃ slot, key = slot.key ∧ action.Reaches slot) ∧
      ((∃ found, .entered object action.opening found ∈ program.frame.trace world) ∨
        action.IsActiveOn world object) := by
  by_cases hosted : (Stage.ofScene scene).world.hosts object
  · have wrote : ∃ value, .wrote object key value ∈ program.frame.trace world := by
      by_contra none
      push Not at none
      rw [Agenda.read_run_eq program.frame (by rwa [hosts]), Trace.ledger_eq_nil.mpr none] at changed
      exact changed rfl
    obtain ⟨value, wrote⟩ := wrote
    have reachable : ∀ action ∈ instances rate scene, ∀ target ∈ action.targets,
        world.hosts target := fun action member target targeted =>
      hosts ▸ layout.hosts_target member targeted
    rcases layout.exists_of_wrote reachable wrote with ⟨slot, rfl, kept⟩ | byAction
    · have isShown := Slot.isShown_of_key shown
      cases slot with
      | channel => cases kept
      | sound => cases kept
      | _ => cases isShown
    · exact byAction
  · exact absurd (layout.read_frame_of_absent hosted) changed

/-- The flag of an action that is not set stays so in a frame that does not open the action. -/
theorem active_frame {action : Instance α} (member : action ∈ instances rate scene)
    (timed : action.isTimed) (targeted : object ∈ action.targets)
    (unopened : ∀ found, .entered object action.opening found ∉ program.frame.trace world)
    (still : world.read object action.active.key = 0) :
    (program.frame.run world).read object action.active.key = 0 := by
  have hosted : ∀ target ∈ action.targets, world.hosts target := fun target isTarget =>
    hosts ▸ layout.hosts_target member isTarget
  have only : ∀ duty ∈ program.agenda .enter, action.OnlyDispatched duty.object duty.block := by
    intro duty inEnter
    obtain ⟨placed, isPlaced, rfl⟩ := mem_agenda.mp inEnter
    exact layout.onlyDispatched_enter member isPlaced
  obtain ⟨count, stretch⟩ := Instance.exists_stretch_agenda timed
    (layout.numbered.nodup action member) only world hosted
  have none : count = 0 := by
    rw [← (stretch.tally object targeted).openings, Trace.entries_eq_zero]
    intro found entered
    refine unopened found ?_
    rw [frame_eq, Agenda.trace_append]
    exact List.mem_append_left _ entered
  have entered := congrArg Prod.fst (stretch.status object targeted)
  rw [if_pos none] at entered
  have hostedAdvance : ((program.agenda .enter).run world).hosts object := by
    rw [Agenda.hosts_run]
    exact hosted object targeted
  have advanced := congrArg Prod.fst (layout.advance_phase member timed targeted hostedAdvance).2
  rw [Instance.advanced, apply_ite Prod.fst, ite_self] at advanced
  have hostedExit : ((program.agenda .advance).run ((program.agenda .enter).run world)).hosts object := by
    rwa [Agenda.hosts_run]
  have finished := congrArg Prod.fst (layout.exit_phase member timed targeted hostedExit).2
  rw [Instance.finished, apply_ite Prod.fst] at finished
  rw [frame_eq, Agenda.run_append, Agenda.run_append]
  refine finished.trans ?_
  rw [advanced, entered]
  exact ite_eq_left_iff.mpr fun _ => still

end Program.Layout

/-! ### Runs -/

namespace Program.Layout

variable [Trigonometric α] {rate : α} {scene : Scene α} {program : Program α}
  (layout : Layout rate scene program) (visits : Nat → List (Visit α)) {object key : String}

include layout

/-- As long as no action on an object is opened, their flags on it are not set, and what is seen and
heard of it changes only by visits. -/
theorem still_of_unopened [Counting α] (shown : IsShownKey key) {frames : Nat}
    (quiet : ∀ frame < frames,
      (∀ action ∈ instances rate scene, object ∈ action.targets → ∀ found,
        .entered object action.opening found ∉ (Run.ofScene program scene visits).trace frame) ∧
      ∀ visit ∈ visits frame, ¬(visit.object = object ∧ visit.slot.key = key)) :
    let run := Run.ofScene program scene visits
    (run.stage frames).world.read object key = (Stage.ofScene scene).world.read object key ∧
      ∀ action ∈ instances rate scene, action.isTimed → object ∈ action.targets →
        (run.stage frames).world.read object action.active.key = 0 := by
  intro run
  induction frames with
  | zero => exact ⟨rfl, fun action _ _ _ => Stage.read_ofScene id scene object⟩
  | succ frame inductionHypothesis =>
    obtain ⟨same, still⟩ :=
      inductionHypothesis fun earlier before => quiet earlier (Nat.lt_succ_of_lt before)
    obtain ⟨unopened, spared⟩ := quiet frame (Nat.lt_succ_self frame)
    have hosts : (run.world frame).hosts = (Stage.ofScene scene).world.hosts := run.hosts_world frame
    have stillHere {action : Instance α} (member : action ∈ instances rate scene)
        (timed : action.isTimed) (targeted : object ∈ action.targets) :
        (run.world frame).read object action.active.key = 0 := by
      rw [Instance.active, run.read_world id]
      exact still action member timed targeted
    constructor
    · rw [← same, ← run.read_world_of_shown shown spared, run.read_stage_succ_of_shown shown]
      by_contra changed
      obtain ⟨action, member, targeted, -, ⟨entering, opened⟩ | active⟩ :=
        layout.exists_of_change hosts shown changed
      · exact unopened action member targeted entering opened
      · have flag := active.2
        rw [stillHere member active.1 targeted, Counting.zero_beq_zero] at flag
        cases flag
    · intro action member timed targeted
      rw [Instance.active, run.read_stage_succ id]
      exact layout.active_frame hosts member timed targeted (unopened action member targeted)
        (stillHere member timed targeted)

end Program.Layout

/-- In every frame of a compiled scene, whatever visitors do before it, what is seen and heard of an
object changes only through an action that concerns the object and is there to change it, and that
is opened on the object in the frame or goes on at its beginning. As long as no action on it is
opened and no visitor changes it, it stays as it was at first, whatever the object owns. -/
theorem only_targets_change [Trigonometric α] [Counting α] {rate : α} {scene : Scene α}
    {program : Program α} (compiled : Program.compile rate scene = .ok program)
    (visits : Nat → List (Visit α)) (object : String) {key : String} (shown : IsShownKey key) :
    let run := Run.ofScene program scene visits
    let openings (action : Instance α) (frame : Nat) :=
      Trace.entries object action.opening (run.trace frame)
    (∀ frame, (run.stage (frame + 1)).world.read object key ≠ (run.world frame).read object key →
      ∃ declared action,
        (declared, action) ∈ scene.declared.zip (Program.instances rate scene) ∧
        declared.Concerns scene object ∧
        (∃ slot, key = slot.key ∧ declared.action.kind.Drives slot) ∧
        (0 < openings action frame ∨ action.IsActiveOn (run.world frame) object)) ∧
    ∀ frames, (∀ frame < frames,
        (∀ action ∈ Program.instances rate scene, object ∈ action.targets →
          openings action frame = 0) ∧
        ∀ visit ∈ visits frame, ¬(visit.object = object ∧ visit.slot.key = key)) →
      (run.stage frames).world.read object key =
        (Stage.ofScene scene).world.read object key := by
  obtain ⟨layout⟩ := Program.exists_layout compiled
  intro run openings
  refine ⟨fun frame changed => ?_, fun frames quiet => ?_⟩
  · rw [run.stage_succ] at changed
    have changedInFrame : (program.frame.run (run.world frame)).read object key ≠
        (run.world frame).read object key := fun same =>
      changed ((Stage.read_release_of_shown _ shown _).trans same)
    obtain ⟨action, member, targeted, ⟨slot, rfl, reached⟩, happened⟩ :=
      layout.exists_of_change (run.hosts_world frame) shown changedInFrame
    obtain ⟨declared, paired, becomes⟩ := Lists.exists_zip_of_mem_right layout.becomes member
    exact ⟨declared, action, paired, (becomes.mem_targets layout.sound object).mp targeted,
      ⟨slot, rfl, becomes.drives reached (Slot.isShown_of_key shown)⟩,
      happened.imp_left Trace.entries_pos.mpr⟩
  · refine (layout.still_of_unopened visits shown fun frame before => ?_).1
    obtain ⟨unopened, spared⟩ := quiet frame before
    exact ⟨fun action member targeted =>
      Trace.entries_eq_zero.mp (unopened action member targeted), spared⟩

/-- No action of the hall is on the rug, which lies where it lies. -/
theorem only_targets_change_hall :
    ∃ program, Program.compile 1 Scene.hall = .ok program ∧ IsShownKey "position.x" ∧
      ∀ frames, ((Run.ofScene program Scene.hall fun _ => []).stage frames).world.read
        "rug" "position.x" = 0 := by
  obtain ⟨program, compiled⟩ := Scene.exists_compile_hall
  have shown : IsShownKey "position.x" :=
    .inr (.inr ⟨"position", by simp, ['x'], by decide⟩)
  have none : (Program.instances 1 Scene.hall).all (!·.targets.contains "rug") = true := by
    decide +kernel
  have atFirst : (Stage.ofScene Scene.hall).world.read "rug" "position.x" = 0 := by
    decide +kernel
  refine ⟨program, compiled, shown, fun frames => ?_⟩
  refine ((only_targets_change compiled (fun _ => []) "rug" shown).2 frames fun frame _ => ?_).trans
    atFirst
  refine ⟨fun action member targeted => ?_, by simp⟩
  have spared := List.all_eq_true.mp none action member
  rw [List.contains_iff_mem.mpr targeted] at spared
  cases spared

end Stagecraft
