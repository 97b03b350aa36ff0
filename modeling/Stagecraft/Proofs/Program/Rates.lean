/-
This file compares the programs of one scene at two tick rates. The rate enters only the numbers
that are written into the logic, and how many ticks an action takes. What is checked, who is a
target, which blocks there are and whether an action takes time are decided without it: a duration
counts as it is declared, never by the ticks that it makes. So the two compilations go the same way,
and their programs have the same outline.
-/

import Stagecraft.Program.Compile
import Stagecraft.Proofs.Logic.Outline
import Stagecraft.Proofs.Outcome
import Stagecraft.Proofs.Program.Declared
import Stagecraft.Proofs.Program.Layout

namespace Stagecraft

variable {α : Type} [Trigonometric α]

/-! ### Effects -/

namespace Effect

/-- What an action is divided into is written only in numbers. -/
theorem outline_start (effect : Effect α) (number : Nat) (steps steps' : α) :
    Block.outline (effect.start number steps) = Block.outline (effect.start number steps') := by
  cases effect with
  | move motion => rcases motion with ⟨_ | _ | _, _ | _ | _⟩ <;> rfl
  | sound name volume => cases volume <;> rfl
  | _ => rfl

theorem outline_advance (effect : Effect α) (number : Nat) (steps steps' : α) :
    Block.outline (effect.advance number steps) =
      Block.outline (effect.advance number steps') := by
  cases effect with
  | move motion => rcases motion with ⟨_ | _ | _, _ | _ | _⟩ <;> rfl
  | _ => rfl

/-- Two timings of one duration give phases of one outline. -/
theorem outline_phases (effect : Effect α) (number : Nat) {timing timing' : Timing α}
    (same : timing.duration = timing'.duration) :
    (effect.phases number timing).outline = (effect.phases number timing').outline := by
  have instant : timing.isInstant = timing'.isInstant := by
    rw [Timing.isInstant, Timing.isInstant, same]
  rw [phases, phases, instant]
  split
  · rfl
  · simp only [Phases.outline, Phases.mk.injEq, and_true]
    exact ⟨effect.outline_start number _ _, effect.outline_advance number _ _⟩

end Effect

/-! ### Instances -/

namespace Instance

/-- Two instances of one action, at rates that may differ. -/
structure SameAction (first second : Instance α) : Prop where
  number : first.number = second.number
  label : first.label = second.label
  targets : first.targets = second.targets
  duration : first.timing.duration = second.timing.duration
  effect : first.effect = second.effect

namespace SameAction

variable {first second : Instance α} (same : SameAction first second)

include same

theorem isTimed : first.isTimed = second.isTimed := by
  rw [Instance.isTimed, Instance.isTimed, Timing.isTimed, Timing.isTimed, same.duration]

omit [Trigonometric α] in
theorem key : first.key = second.key := by
  rw [Instance.key, Instance.key, same.number]

theorem setup : first.setup = second.setup := by
  rw [Instance.setup, Instance.setup, same.effect]

theorem outline_phases : first.phases.outline = second.phases.outline := by
  rw [phases, phases, same.effect, same.number]
  exact second.effect.outline_phases second.number same.duration

theorem outline_opening : Block.outline first.opening = Block.outline second.opening := by
  have enter := congrArg Phases.enter same.outline_phases
  rw [opening, opening, Block.outline_append, Block.outline_append, same.isTimed, active, active,
    elapsed, elapsed, same.number]
  exact congrArg (· ++ _) enter

theorem outline_dispatch : Block.outline first.dispatch = Block.outline second.dispatch := by
  rw [dispatch, dispatch, Block.outline_map, Block.outline_map, same.targets]
  simp only [Stmt.outline, same.outline_opening]

theorem outline_advance : Block.outline first.advance = Block.outline second.advance := by
  have inside : Block.outline first.phases.advance = Block.outline second.phases.advance :=
    congrArg Phases.advance same.outline_phases
  rw [advance, advance, same.isTimed]
  split
  · simp only [Block.outline_cons, Block.outline_nil, Stmt.outline_onlyIf, Block.outline_append,
      inside, active, elapsed, same.number]
  · rfl

theorem outline_finish : Block.outline first.finish = Block.outline second.finish := by
  have inside : Block.outline first.phases.exit = Block.outline second.phases.exit :=
    congrArg Phases.exit same.outline_phases
  rw [finish, finish, same.isTimed]
  split
  · simp only [Block.outline_cons, Block.outline_nil, Stmt.outline_onlyIf, Block.outline_append,
      inside, active, elapsed, same.number]
    rfl
  · rfl

/-- One breaks its contract as the other does. -/
theorem breach : first.breach? = second.breach? := by
  have enter := Block.isIdle_congr (congrArg Phases.enter same.outline_phases)
  have advance := Block.isIdle_congr (congrArg Phases.advance same.outline_phases)
  have exit := Block.isIdle_congr (congrArg Phases.exit same.outline_phases)
  simp only [breach?, same.isTimed, enter, advance, exit]

end SameAction

end Instance

open Instance (SameAction)

/-- Actions resolve alike at both rates. -/
theorem Action.relates_resolve (directory : Directory α) (rate rate' : α) (context : Context)
    (owner : String) (number : Nat) (action : Action α) :
    Outcome.Relates SameAction (action.resolve directory rate context owner number)
      (action.resolve directory rate' context owner number) :=
  .bind_self fun _ => .bind_self fun _ => .ok ⟨rfl, rfl, rfl, rfl, rfl⟩

theorem Action.relates_resolveAll (directory : Directory α) (rate rate' : α) (context : Context)
    (owner : String) (first : Nat) (actions : List (Action α)) :
    Outcome.Relates (List.Forall₂ SameAction)
      (resolveAll directory rate context owner first actions)
      (resolveAll directory rate' context owner first actions) := by
  induction actions generalizing first with
  | nil => exact .ok .nil
  | cons action rest inductionHypothesis =>
    refine .bind (relates_resolve directory rate rate' context owner first action) ?_
    intro head head' here
    refine .bind (inductionHypothesis (first + 1)) fun tail tail' later => ?_
    exact .ok (.cons here later)

/-! ### Owned logic -/

omit [Trigonometric α] in
theorem Block.outline_flatMap_congr {β : Type} {related : β → β → Prop} {first second : List β}
    {block : β → Block α} (alike : List.Forall₂ related first second)
    (each : ∀ value other, related value other → outline (block value) = outline (block other)) :
    outline (first.flatMap block) = outline (second.flatMap block) := by
  induction alike with
  | nil => rfl
  | cons here _ inductionHypothesis =>
    rw [List.flatMap_cons, List.flatMap_cons, outline_append, outline_append, each _ _ here,
      inductionHypothesis]

namespace Watch

/-- What is watched decides the outline, together with the outline of what is dispatched. -/
theorem outline_evaluate (watch : Watch) (sensor : Sensor α) (epsilon : α) (remain : Bool)
    {dispatch dispatch' : Block α} (same : Block.outline dispatch = Block.outline dispatch') :
    Block.outline (watch.evaluate sensor epsilon remain dispatch) =
      Block.outline (watch.evaluate sensor epsilon remain dispatch') := by
  simp only [evaluate, Block.isIdle_congr same, Block.outline_append, Block.outline_cons]
  split
  · rfl
  · rw [Block.outline_cons, Block.outline_cons, Stmt.outline_onlyIf, Stmt.outline_onlyIf, same]

end Watch

namespace Sequence

/-- Two sequences of one timeline, at rates that may differ. -/
structure SameTimeline (first second : Sequence α) : Prop where
  name : first.name = second.name
  autostart : first.autostart = second.autostart
  cues : List.Forall₂ (fun cue cue' => SameAction cue.action cue'.action) first.cues second.cues

omit [Trigonometric α] in
/-- What is scheduled by one timeline, at both rates. -/
theorem sameTimeline_zip (declared : Timeline α) (rate rate' : α) (entries : List (TimedAction α))
    {found found' : List (Instance α)} (alike : List.Forall₂ SameAction found found') :
    SameTimeline
      { name := declared.name, autostart := declared.autostart, rate, cues :=
        (entries.zip found).map fun (entry, action) => ⟨entry.start, action⟩ }
      { name := declared.name, autostart := declared.autostart, rate := rate', cues :=
        (entries.zip found').map fun (entry, action) => ⟨entry.start, action⟩ } := by
  refine ⟨rfl, rfl, ?_⟩
  rw [List.forall₂_map_left_iff, List.forall₂_map_right_iff]
  exact (Lists.forall₂_zip_right entries alike).imp fun _ _ same => same.2

variable {first second : Sequence α} (same : SameTimeline first second)

include same

theorem SameTimeline.setup : first.setup = second.setup := by
  rw [Sequence.setup, Sequence.setup, same.autostart, same.name]

theorem SameTimeline.outline_dispatches (index : Nat) :
    Block.outline ((first.cues.zipIdx index).map
        fun (cue, index) => first.dispatchAt cue index) =
      Block.outline ((second.cues.zipIdx index).map
        fun (cue, index) => second.dispatchAt cue index) := by
  have cues := same.cues
  generalize first.cues = cues, second.cues = cues' at cues
  induction cues generalizing index with
  | nil => rfl
  | cons here _ inductionHypothesis =>
    rw [List.zipIdx_cons, List.zipIdx_cons, List.map_cons, List.map_cons, Block.outline_cons,
      Block.outline_cons, inductionHypothesis]
    simp only [dispatchAt, slot, same.name, Stmt.outline_onlyIf, Block.outline_cons,
      here.outline_dispatch]
    rfl

theorem SameTimeline.outline_run : Block.outline first.run = Block.outline second.run := by
  rw [run, run, Block.outline_cons, Block.outline_cons, Block.outline_cons, Block.outline_cons,
    Stmt.outline_onlyIf, Stmt.outline_onlyIf, Block.outline_append, Block.outline_append,
    same.outline_dispatches]
  simp only [slot, countTick, stopAtEnd, same.name]
  rfl

end Sequence

namespace Owned

/-- Two pieces of logic of one source, at rates that may differ. -/
structure SameLogic (first second : Owned α) : Prop where
  setup : Block.outline first.setup = Block.outline second.setup
  enter : Block.outline first.enter = Block.outline second.enter
  instances : List.Forall₂ SameAction first.instances second.instances

omit [Trigonometric α] in
theorem sameLogic_concat {first second : List (Owned α)}
    (alike : List.Forall₂ SameLogic first second) : SameLogic (concat first) (concat second) := by
  refine ⟨?_, ?_, ?_⟩
  · rw [setup_concat, setup_concat]
    exact Block.outline_flatMap_congr alike fun _ _ same => same.setup
  · rw [enter_concat, enter_concat]
    exact Block.outline_flatMap_congr alike fun _ _ same => same.enter
  · rw [instances_concat, instances_concat]
    exact List.rel_flatMap alike fun _ _ same => same.instances

theorem outline_dispatchAll {first second : List (Instance α)}
    (alike : List.Forall₂ SameAction first second) :
    Block.outline (dispatchAll first) = Block.outline (dispatchAll second) :=
  Block.outline_flatMap_congr alike fun _ _ same => same.outline_dispatch

variable (directory : Directory α) (rate rate' : α) (owner : String)

/-- Every source gives a piece of the same outline at both rates. -/
theorem relates_make (source : Source α) (first : Nat) :
    Outcome.Relates SameLogic (source.make directory rate owner first)
      (source.make directory rate' owner first) := by
  cases source with
  | trigger declared =>
    refine .bind_self fun sensor => .bind (Action.relates_resolveAll ..) fun _ _ alike => ?_
    refine .ok ⟨rfl, ?_, alike⟩
    simp only [Trigger.watch, Block.outline_cons, Stmt.outline_onlyIf]
    rw [Watch.outline_evaluate _ _ _ _ (outline_dispatchAll alike)]
  | link actions =>
    simp only [Source.make, ofLink]
    split
    · exact .ok ⟨rfl, rfl, .nil⟩
    · refine .bind (Action.relates_resolveAll ..) fun _ _ alike => .ok ⟨rfl, ?_, alike⟩
      rw [watchLink, watchLink, Block.outline_cons, Block.outline_cons,
        Watch.outline_evaluate _ _ _ _ (outline_dispatchAll alike)]
  | timeline declared =>
    refine .bind_self fun entries => .bind (Action.relates_resolveAll ..) ?_
    intro found found' alike
    have same := Sequence.sameTimeline_zip declared rate rate' entries alike
    exact .ok ⟨by rw [same.setup], same.outline_run, alike⟩

omit [Trigonometric α] in
/-- Pieces made one after another come out alike: the actions of the earlier ones are as many. -/
theorem relates_inTurn {first : Nat} {makers makers' : List (Nat → Except (Fault α) (Owned α))}
    (alike : List.Forall₂ (fun maker maker' => ∀ first,
      Outcome.Relates SameLogic (maker first) (maker' first)) makers makers') :
    Outcome.Relates (List.Forall₂ SameLogic) (inTurn first makers) (inTurn first makers') := by
  induction alike generalizing first with
  | nil => exact .ok .nil
  | cons here _ inductionHypothesis =>
    refine .bind (here first) fun head head' same => ?_
    rw [same.instances.length_eq]
    exact .bind inductionHypothesis fun tail tail' later => .ok (.cons same later)

theorem relates_ofObject (object : SceneObject α) (first : Nat) :
    Outcome.Relates SameLogic (ofObject directory rate object first)
      (ofObject directory rate' object first) := by
  have makers (rate : α) : object.triggers.map (ofTrigger directory rate object.id) ++
        [ofLink directory rate object.id object.linkActions] ++
        object.timelines.map (ofTimeline directory rate object.id) =
      object.sources.map (·.make directory rate object.id) := by
    rw [SceneObject.sources, List.map_append, List.map_append, List.map_map, List.map_map]
    rfl
  rw [ofObject, ofObject, makers, makers]
  refine .bind (relates_inTurn ?_) fun pieces pieces' alike => .ok (sameLogic_concat alike)
  rw [List.forall₂_map_left_iff, List.forall₂_map_right_iff, List.forall₂_same]
  exact fun source _ => relates_make directory rate rate' object.id source

end Owned

/-! ### Programs -/

/-- What is left of an action on a target without its numbers. -/
def TargetAction.outline (action : TargetAction α) : TargetAction Unit :=
  { action with ticks := 0, phases := action.phases.outline }

def ObjectProgram.outline (placed : ObjectProgram α) : ObjectProgram Unit where
  id := placed.id
  phases := placed.phases.outline
  actions := placed.actions.map (·.outline)

namespace Program

/-- The program without its rate, without ticks and without the numbers written in its logic. -/
def outline (program : Program α) : Program Unit where
  rate := ()
  objects := program.objects.map (·.outline)

theorem outline_ofParts (id : String) {owned owned' : Owned α}
    {actions actions' : List (Instance α)} (same : Owned.SameLogic owned owned')
    (alike : List.Forall₂ SameAction actions actions') :
    (ofParts id owned actions).outline = (ofParts id owned' actions').outline := by
  have setups : actions.map (·.setup) = actions'.map (·.setup) :=
    Lists.map_eq_of_forall₂ (alike.imp fun _ _ same => same.setup)
  have whole : Block.outline ((actions'.map (·.setup)).eraseDups.flatten ++ owned.setup) =
      Block.outline ((actions'.map (·.setup)).eraseDups.flatten ++ owned'.setup) := by
    rw [Block.outline_append, Block.outline_append, same.setup]
  have lead : Block.outline (once ((actions'.map (·.setup)).eraseDups.flatten ++ owned.setup)) =
      Block.outline (once ((actions'.map (·.setup)).eraseDups.flatten ++ owned'.setup)) := by
    rw [once, once, Block.isIdle_congr whole]
    split
    · rfl
    · simp only [Block.outline_cons, Stmt.outline_onlyIf, Block.outline_append _ [_], whole]
  have targeted : (actions.map targetAction).map (·.outline) =
      (actions'.map targetAction).map (·.outline) := by
    rw [List.map_map, List.map_map]
    refine Lists.map_eq_of_forall₂ (alike.imp fun action action' same => ?_)
    simp only [Function.comp_apply, targetAction, TargetAction.outline, same.key, same.label,
      same.outline_phases]
  rw [ObjectProgram.outline, ObjectProgram.outline]
  simp only [ofParts, setups, Phases.outline, Block.outline_append _ owned.enter,
    Block.outline_append _ owned'.enter, lead, same.enter,
    Block.outline_flatMap_congr alike fun _ _ same => same.outline_advance,
    Block.outline_flatMap_congr alike fun _ _ same => same.outline_finish, targeted]

omit [Trigonometric α] in
theorem targeting_forall₂ {instances instances' : List (Instance α)} (id : String)
    (alike : List.Forall₂ SameAction instances instances') :
    List.Forall₂ SameAction (targeting instances id) (targeting instances' id) :=
  List.rel_filter (fun first second same => by simp only [same.targets]) alike

theorem outline_ofObject? {instances instances' : List (Instance α)} {owned owned' : Owned α}
    (alike : List.Forall₂ SameAction instances instances') (object : SceneObject α)
    (same : Owned.SameLogic owned owned') :
    (ofObject? instances object owned).map (·.outline) =
      (ofObject? instances' object owned').map (·.outline) := by
  have targets := targeting_forall₂ object.id alike
  rw [ofObject?, ofObject?, Lists.isEmpty_eq_of_forall₂ targets]
  split
  · exact congrArg some (outline_ofParts object.id same targets)
  · rfl

theorem outline_ofHead? {instances instances' : List (Instance α)}
    (alike : List.Forall₂ SameAction instances instances') :
    (ofHead? instances).map (·.outline) = (ofHead? instances').map (·.outline) := by
  have targets := targeting_forall₂ headId alike
  rw [ofHead?, ofHead?, Lists.isEmpty_eq_of_forall₂ targets]
  split
  · rfl
  · exact congrArg some (outline_ofParts headId ⟨rfl, rfl, .nil⟩ targets)

theorem checkContracts_congr {instances instances' : List (Instance α)}
    (alike : List.Forall₂ SameAction instances instances') :
    checkContracts instances = checkContracts instances' := by
  induction alike with
  | nil => rfl
  | cons same _ inductionHypothesis =>
    rw [checkContracts, checkContracts, same.breach, same.key, same.label, inductionHypothesis]

/-- One object with what it owns at both rates. -/
def SameOwner (first second : SceneObject α × Owned α) : Prop :=
  first.1 = second.1 ∧ Owned.SameLogic first.2 second.2

theorem outline_filterMap {instances instances' : List (Instance α)}
    {objects objects' : List (SceneObject α × Owned α)}
    (alike : List.Forall₂ SameAction instances instances')
    (owners : List.Forall₂ SameOwner objects objects') :
    (objects.filterMap fun (object, owned) => ofObject? instances object owned).map (·.outline) =
      (objects'.filterMap fun (object, owned) => ofObject? instances' object owned).map
        (·.outline) := by
  rw [List.map_filterMap, List.map_filterMap]
  induction owners with
  | nil => rfl
  | @cons first second _ _ here _ inductionHypothesis =>
    obtain ⟨⟨object, owned⟩, ⟨_, owned'⟩⟩ := first, second
    obtain ⟨rfl, logic⟩ := here
    simp only [List.filterMap_cons, outline_ofObject? alike object logic, inductionHypothesis]

/-- Past the check of the rate itself nothing depends on it. -/
theorem relates_ownedLogic {rate rate' : α} (valid : Scalar.isFinite rate ∧ 0 < rate)
    (valid' : Scalar.isFinite rate' ∧ 0 < rate') (scene : Scene α) :
    Outcome.Relates (List.Forall₂ SameOwner) (ownedLogic rate scene) (ownedLogic rate' scene) := by
  rw [ownedLogic, ownedLogic, checkRate, checkRate, if_pos valid, if_pos valid']
  refine .bind_self fun _ => .bind_self fun directory => ?_
  have objects : Outcome.Relates (List.Forall₂ Owned.SameLogic)
      (Owned.inTurn 0 (directory.objects.map (Owned.ofObject directory rate)))
      (Owned.inTurn 0 (directory.objects.map (Owned.ofObject directory rate'))) := by
    refine Owned.relates_inTurn ?_
    rw [List.forall₂_map_left_iff, List.forall₂_map_right_iff, List.forall₂_same]
    exact fun object _ => Owned.relates_ofObject directory rate rate' object
  exact .bind objects fun _ _ alike => .ok (Lists.forall₂_zip_right directory.objects alike)

theorem relates_compile {rate rate' : α} (valid : Scalar.isFinite rate ∧ 0 < rate)
    (valid' : Scalar.isFinite rate' ∧ 0 < rate') (scene : Scene α) :
    Outcome.Relates (fun first second => first.outline = second.outline) (compile rate scene)
      (compile rate' scene) := by
  have owners := (relates_ownedLogic valid valid' scene).mapError CompileFault.scene
  refine .bind owners fun found found' alike => ?_
  have instances : List.Forall₂ SameAction (found.flatMap fun (_, owned) => owned.instances)
      (found'.flatMap fun (_, owned) => owned.instances) :=
    List.rel_flatMap alike fun _ _ same => same.2.instances
  simp only [checkContracts_congr instances]
  refine .bind_self fun _ => .ok ?_
  rw [outline, outline, Program.mk.injEq]
  refine ⟨rfl, ?_⟩
  rw [List.map_append, List.map_append, ← Option.toList_map, ← Option.toList_map,
    outline_filterMap instances alike, outline_ofHead? instances]

/-- Whether a scene compiles, the fault where it does not, and all of its program but numbers are
the same at every tick rate. -/
theorem compile_outline_eq {rate rate' : α} (valid : Scalar.isFinite rate ∧ 0 < rate)
    (valid' : Scalar.isFinite rate' ∧ 0 < rate') (scene : Scene α) :
    (compile rate scene).map outline = (compile rate' scene).map outline :=
  (relates_compile valid valid' scene).map_eq

/-- The hall compiles at sixty ticks in a second as it does at one. -/
theorem compile_outline_eq_hall :
    ∃ program program', compile 1 Scene.hall = .ok program ∧ compile 60 Scene.hall = .ok program' ∧
      program.outline = program'.outline := by
  have slow : Scalar.isFinite (1 : Float) ∧ (0 : Float) < 1 := by decide +kernel
  have fast : Scalar.isFinite (60 : Float) ∧ (0 : Float) < 60 := by decide +kernel
  obtain ⟨program, compiled⟩ := Scene.exists_compile_hall
  have same := compile_outline_eq slow fast Scene.hall
  rw [compiled] at same
  cases found : compile 60 Scene.hall with
  | error fault =>
    rw [found] at same
    cases same
  | ok program' =>
    rw [found] at same
    exact ⟨program, program', compiled, rfl, Except.ok.inj same⟩

end Program

end Stagecraft
