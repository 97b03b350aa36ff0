/-
This file shows that compiling a scene loses no action and doubles none. Each declared action has
one number, its dispatch stands in the enter phase of the object that carries it, and each of its
targets advances and finishes it, as does no other object.
-/

import Stagecraft.Proofs.Action.Handing
import Stagecraft.Proofs.Program.Declared
import Stagecraft.Proofs.Program.Order

namespace Stagecraft

variable {α : Type} [Trigonometric α]

/-! ### Sources -/

/-- A piece hands on the dispatches of its instances, each once and in order. -/
theorem Owned.withins_made {directory : Directory α} {rate : α} {owner : String} {first : Nat}
    {source : Source α} {piece : Owned α} (made : Made directory rate owner first source piece)
    (kept : ∀ action ∈ piece.instances, action.breach? = none) :
    Block.withins piece.enter = dispatchAll piece.instances ∧ Block.withins piece.setup = [] := by
  cases made with
  | trigger declared sensor instances =>
    refine ⟨?_, Block.withins_nil⟩
    rw [Block.withins_cons, Stmt.withins_comment, List.nil_append, Trigger.watch,
      Block.withins_cons, Stmt.withins_onlyIf,
      Watch.withins_evaluate _ _ _ _ (isIdle_dispatchAll kept), withins_dispatchAll,
      Block.withins_nil, List.append_nil]
  | noLink => exact ⟨Block.withins_nil, Block.withins_nil⟩
  | link actions instances =>
    refine ⟨?_, Block.withins_nil⟩
    rw [watchLink, Block.withins_cons, Stmt.withins_comment, List.nil_append,
      Watch.withins_evaluate _ _ _ _ (isIdle_dispatchAll kept), withins_dispatchAll]
  | timeline declared entries instances sequence _ resolved same =>
    have alike := (Action.becomes_of_resolveAll resolved).length_eq
    rw [List.length_map, List.length_map] at alike
    refine ⟨?_, sequence.withins_setup⟩
    rw [Sequence.withins_run, same, List.flatMap_map]
    exact Lists.flatMap_zip_right alike (·.dispatch)

namespace Program.Layout

variable {rate : α} {scene : Scene α} {program : Program α} (layout : Layout rate scene program)

/-! ### Owners -/

section

include layout

omit layout in
theorem owner_of_declared {object : SceneObject α} {declared : Declared α}
    (member : declared ∈ object.declared) : declared.owner = object.id := by
  obtain ⟨source, -, inSource⟩ := List.mem_flatMap.mp member
  cases source <;> obtain ⟨_, -, rfl⟩ := List.mem_map.mp inSource <;> rfl

/-- The declared actions that an object carries, with what they become. -/
theorem carried_eq {object : SceneObject α} {owned : Owned α}
    (inScene : (object, owned) ∈ layout.owned) :
    (scene.declared.zip (instances rate scene)).filter (·.1.owner = object.id) =
      object.declared.zip owned.instances := by
  have unique : (layout.owned.map (·.1.id)).Nodup := by
    have ids := (Directory.unique_of_ofScene layout.sound).ids
    rwa [← layout.objects, List.map_map] at ids
  have alike : ∀ entry ∈ layout.owned, entry.1.declared.length = entry.2.instances.length :=
    fun entry member => (layout.becomes_owned member).length_eq
  obtain ⟨before, after, split⟩ := List.append_of_mem inScene
  rw [split, List.map_append, List.map_cons] at unique
  obtain ⟨notBefore, notAfter⟩ := Lists.eq_of_nodup_append unique
  have apart (others : List (SceneObject α × Owned α))
      (absent : object.id ∉ others.map (·.1.id)) :
      (others.flatMap fun entry => entry.1.declared.zip entry.2.instances).filter
        (·.1.owner = object.id) = [] := by
    rw [List.filter_eq_nil_iff]
    intro pair member
    obtain ⟨entry, inOthers, inZip⟩ := List.mem_flatMap.mp member
    rw [owner_of_declared (List.of_mem_zip inZip).1, decide_eq_true_eq]
    exact fun same => absent (List.mem_map.mpr ⟨entry, inOthers, same⟩)
  have own : (object.declared.zip owned.instances).filter (·.1.owner = object.id) =
      object.declared.zip owned.instances := by
    rw [List.filter_eq_self]
    intro pair member
    rw [owner_of_declared (List.of_mem_zip member).1, decide_eq_true_eq]
  rw [layout.declared_eq, layout.instances_eq, Lists.zip_flatMap alike, split, List.flatMap_append,
    List.flatMap_cons, List.filter_append, List.filter_append, apart _ notBefore,
    apart _ notAfter, own, List.nil_append, List.append_nil]

/-- An object that carries actions has logic. -/
theorem exists_carrier {declared : Declared α} (member : declared ∈ scene.declared) :
    ∃ placed ∈ program.objects, placed.id = declared.owner := by
  obtain ⟨object, inWalk, carried⟩ := List.mem_flatMap.mp member
  obtain ⟨owned, inScene⟩ := layout.exists_owned inWalk
  have logic : object.hasLogic := by
    obtain ⟨source, inSources, inSource⟩ := List.mem_flatMap.mp carried
    rw [SceneObject.hasLogic, Bool.or_eq_true, Bool.or_eq_true]
    simp only [SceneObject.sources, List.mem_append, List.mem_map, List.mem_singleton] at inSources
    rcases inSources with (⟨trigger, inTriggers, -⟩ | rfl) | ⟨timeline, inTimelines, -⟩
    · exact .inl (.inl (by simpa using List.ne_nil_of_mem inTriggers))
    · obtain ⟨action, inActions, -⟩ := List.mem_map.mp inSource
      exact .inr (by simpa using List.ne_nil_of_mem inActions)
    · exact .inl (.inr (by simpa using List.ne_nil_of_mem inTimelines))
  refine ⟨ofParts object.id owned (targeting (instances rate scene) object.id), ?_,
    (owner_of_declared carried).symm⟩
  rw [layout.listed]
  refine List.mem_append_left _ (List.mem_filterMap.mpr ⟨_, inScene, ?_⟩)
  rw [ofObject?, logic, Bool.true_or]
  rfl

theorem withins_once {id : String} {owned : Owned α} (owns : layout.Owns id owned)
    (actions : List (Instance α)) :
    Block.withins (once ((actions.map (·.setup)).eraseDups.flatten ++ owned.setup)) = [] := by
  have own : Block.withins owned.setup = [] := by
    rcases owns with ⟨object, inScene, -⟩ | ⟨-, rfl⟩
    · obtain ⟨pieces, made, rfl⟩ := layout.made _ inScene
      rw [Owned.setup_concat, Block.withins_flatMap, List.flatMap_eq_nil_iff]
      intro piece inPieces
      obtain ⟨source, -, number, madePiece⟩ := Lists.exists_of_mem_right made inPieces
      refine (Owned.withins_made madePiece fun action owned => layout.contracts action ?_).2
      refine layout.mem_instances inScene ?_
      rw [Owned.instances_concat]
      exact List.mem_flatMap.mpr ⟨piece, inPieces, owned⟩
    · exact Block.withins_nil
  have others : Block.withins (actions.map (·.setup)).eraseDups.flatten = [] := by
    rw [← List.flatMap_id, Block.withins_flatMap, List.flatMap_eq_nil_iff]
    intro setup inSetups
    obtain ⟨action, -, rfl⟩ := List.mem_map.mp (Lists.mem_of_mem_eraseDups inSetups)
    exact action.effect.withins_setup
  rw [once]
  split
  · exact Block.withins_nil
  · simp [own, others]

/-- In its enter phase an object dispatches the actions that it carries, each once and in order. -/
theorem withins_enter {placed : ObjectProgram α} (isPlaced : placed ∈ program.objects) :
    Block.withins placed.phases.enter =
      ((scene.declared.zip (instances rate scene)).filter (·.1.owner = placed.id)).flatMap
        (·.2.dispatch) := by
  obtain ⟨owned, parts, owns⟩ := layout.parts_of_mem isPlaced
  have enter : Block.withins placed.phases.enter = Block.withins owned.enter := by
    rw [parts]
    show Block.withins (once _ ++ owned.enter) = _
    rw [Block.withins_append, layout.withins_once owns, List.nil_append]
  rw [enter]
  rcases owns with ⟨object, inScene, same⟩ | ⟨same, rfl⟩
  · have length := (layout.becomes_owned inScene).length_eq
    rw [← same, layout.carried_eq inScene, Lists.flatMap_zip_right length (·.dispatch)]
    obtain ⟨pieces, made, joined⟩ := layout.made _ inScene
    dsimp only at made joined
    rw [joined, Owned.enter_concat, Owned.instances_concat, Block.withins_flatMap,
      List.flatMap_assoc]
    refine List.flatMap_congr fun piece inPieces => ?_
    obtain ⟨source, -, number, madePiece⟩ := Lists.exists_of_mem_right made inPieces
    refine (Owned.withins_made madePiece fun action owned => layout.contracts action ?_).1
    refine layout.mem_instances inScene ?_
    rw [joined, Owned.instances_concat]
    exact List.mem_flatMap.mpr ⟨piece, inPieces, owned⟩
  · have none : (scene.declared.zip (instances rate scene)).filter (·.1.owner = placed.id) = [] := by
      rw [List.filter_eq_nil_iff]
      intro pair member
      obtain ⟨object, inWalk, carried⟩ := List.mem_flatMap.mp (List.of_mem_zip member).1
      rw [owner_of_declared carried, same, decide_eq_true_eq]
      exact (Directory.unique_of_ofScene layout.sound).notHead object inWalk
    rw [none]
    exact Block.withins_nil

end

end Program.Layout

/-! ### Own statements -/

open Classical in
/-- How often a statement stands in a block, not counting the blocks inside. -/
noncomputable def Block.occurrences (stmt : Stmt α) (block : Block α) : Nat :=
  block.countP fun other => other = stmt

namespace Instance

variable {self other : Instance α} {stmt : Stmt α}

/-- The flag that a statement of an action asks for is its own. -/
theorem number_of_advance (own : stmt ∈ self.advance) (shared : stmt ∈ other.advance) :
    self.number = other.number := by
  rw [advance] at own shared
  split at own
  · split at shared
    · rw [List.mem_singleton] at own shared
      have keys := (Expr.prop.inj (Expr.binary.inj (Stmt.branch.inj (own.symm.trans shared)).1).2.1).2
      exact (Slot.action.inj (Slot.key_injective keys)).1
    · cases shared
  · cases own

theorem number_of_finish (own : stmt ∈ self.finish) (shared : stmt ∈ other.finish) :
    self.number = other.number := by
  rw [finish] at own shared
  split at own
  · split at shared
    · rw [List.mem_singleton] at own shared
      have flags := (Expr.binary.inj (Stmt.branch.inj (own.symm.trans shared)).1).2.1
      have keys := (Expr.prop.inj (Expr.binary.inj flags).2.1).2
      exact (Slot.action.inj (Slot.key_injective keys)).1
    · cases shared
  · cases own

end Instance

namespace Program.Layout

variable {rate : α} {scene : Scene α} {program : Program α} (layout : Layout rate scene program)

include layout

/-- Where a block is made of the own statements of the actions on an object, a statement of one
action stands in it once if the object is a target of the action. -/
theorem occurrences_targeting {own : Instance α → Block α} (single : ∀ action, (own action).length ≤ 1)
    (apart : ∀ (first second : Instance α) stmt, stmt ∈ own first → stmt ∈ own second →
      first.number = second.number)
    {action : Instance α} (member : action ∈ instances rate scene) {stmt : Stmt α}
    (inOwn : stmt ∈ own action) (id : String) :
    Block.occurrences stmt ((targeting (instances rate scene) id).flatMap own) =
      if id ∈ action.targets then 1 else 0 := by
  have none {others : List (Instance α)} (differ : ∀ other ∈ others, other.number ≠ action.number) :
      Block.occurrences stmt (others.flatMap own) = 0 := by
    rw [Block.occurrences, List.countP_eq_zero]
    intro found inOthers isStmt
    obtain ⟨other, isOther, inOther⟩ := List.mem_flatMap.mp inOthers
    obtain rfl : found = stmt := by simpa using isStmt
    exact differ other isOther (apart _ _ _ inOther inOwn)
  split
  · rename_i targeted
    obtain ⟨before, after, turn, others⟩ := layout.exists_turn member targeted
    obtain ⟨only, isOwn⟩ := List.length_eq_one_iff.mp
      (le_antisymm (single action) (List.length_pos_of_mem inOwn))
    have once : Block.occurrences stmt (own action) = 1 := by
      rw [isOwn, List.mem_singleton] at inOwn
      simp [isOwn, inOwn, Block.occurrences]
    have noneBefore := none fun other inside => others other (.inl inside)
    have noneAfter := none fun other inside => others other (.inr inside)
    rw [Block.occurrences] at once noneBefore noneAfter ⊢
    rw [turn, List.flatMap_append, List.flatMap_cons, List.countP_append, List.countP_append, once,
      noneBefore, noneAfter]
  · rename_i spared
    refine none fun other inTargeting same => spared ?_
    rw [← layout.eq_of_number (List.mem_of_mem_filter inTargeting) member same]
    simpa using (List.mem_filter.mp inTargeting).2

end Program.Layout

/-! ### Places -/

/-- Some action of the scene concerns the object. -/
def Scene.IsConcerned (scene : Scene α) (id : String) : Prop :=
  ∃ declared ∈ scene.declared, declared.Concerns scene id

namespace Program.Layout

variable {rate : α} {scene : Scene α} {program : Program α} (layout : Layout rate scene program)

include layout

/-- An object has actions on it if an action of the scene concerns it. -/
theorem targeting_ne_nil (id : String) :
    targeting (instances rate scene) id ≠ [] ↔ scene.IsConcerned id := by
  constructor
  · intro nonempty
    obtain ⟨action, inTargeting⟩ := List.exists_mem_of_ne_nil _ nonempty
    obtain ⟨member, targeted⟩ := List.mem_filter.mp inTargeting
    obtain ⟨declared, isDeclared, becomes⟩ := Lists.exists_of_mem_right layout.becomes member
    exact ⟨declared, isDeclared, (becomes.mem_targets layout.sound id).mp (by simpa using targeted)⟩
  · rintro ⟨declared, isDeclared, concerns⟩
    obtain ⟨action, member, becomes⟩ := Lists.exists_of_mem_left layout.becomes isDeclared
    have targeted := (becomes.mem_targets layout.sound id).mpr concerns
    exact List.ne_nil_of_mem (List.mem_filter.mpr ⟨member, by simpa using targeted⟩)

open Classical in
/-- The objects with logic and those that an action concerns have their places in the order of the
scene, and the head comes last. -/
theorem ids_eq :
    program.ids =
      (scene.walk.filter fun object => object.hasLogic ∨ scene.IsConcerned object.id).map (·.id) ++
        if scene.IsConcerned headId then [headId] else [] := by
  have empty (id : String) :
      (targeting (instances rate scene) id).isEmpty = !decide (scene.IsConcerned id) := by
    rw [← decide_not, Bool.eq_iff_iff, List.isEmpty_iff, decide_eq_true_eq,
      ← layout.targeting_ne_nil, not_not]
  have places (some : List (SceneObject α × Owned α)) :
      (some.filterMap fun entry => ofObject? (instances rate scene) entry.1 entry.2).map (·.id) =
        ((some.map (·.1)).filter fun object =>
          object.hasLogic ∨ scene.IsConcerned object.id).map (·.id) := by
    induction some with
    | nil => rfl
    | cons entry rest inductionHypothesis =>
      rw [List.filterMap_cons, List.map_cons, List.filter_cons, ofObject?, empty]
      by_cases kept : entry.1.hasLogic ∨ scene.IsConcerned entry.1.id
      · simpa [kept, ofParts] using inductionHypothesis
      · rw [not_or] at kept
        simpa [kept] using inductionHypothesis
  have head : (ofHead? (instances rate scene)).toList.map (·.id) =
      if scene.IsConcerned headId then [headId] else [] := by
    rw [ofHead?, empty]
    by_cases concerned : scene.IsConcerned headId <;> simp [concerned, ofParts]
  rw [ids, layout.listed, List.map_append, places, layout.objects, head]

end Program.Layout

theorem Slot.actionPrefix_injective : Function.Injective Slot.actionPrefix := by
  intro first second same
  have keys : Slot.actionKey first "" = Slot.actionKey second "" := by
    rw [Slot.actionKey, same, Slot.actionKey]
  exact (Slot.actionKey_injective keys).1

namespace Program.Layout

variable {rate : α} {scene : Scene α} {program : Program α} (layout : Layout rate scene program)

include layout

theorem nodup_keys : ((instances rate scene).map (·.key)).Nodup := by
  have keys := layout.nodup_numbers.map Slot.actionPrefix_injective
  rwa [List.map_map] at keys

/-- The actions on an object are listed under different keys. -/
theorem count_key {action : Instance α} (member : action ∈ instances rate scene) (id : String) :
    (((targeting (instances rate scene) id).map targetAction).map (·.key)).count action.key =
      if id ∈ action.targets then 1 else 0 := by
  have keys : ((targeting (instances rate scene) id).map targetAction).map (·.key) =
      (targeting (instances rate scene) id).map (·.key) := by
    rw [List.map_map]
    rfl
  have once : ((targeting (instances rate scene) id).map (·.key)).Nodup :=
    layout.nodup_keys.sublist (List.filter_sublist.map _)
  have listed : action.key ∈ (targeting (instances rate scene) id).map (·.key) ↔
      id ∈ action.targets := by
    constructor
    · intro isKey
      obtain ⟨other, inTargeting, same⟩ := List.mem_map.mp isKey
      obtain ⟨isMember, targeted⟩ := List.mem_filter.mp inTargeting
      rw [← List.inj_on_of_nodup_map layout.nodup_keys isMember member same]
      simpa using targeted
    · intro targeted
      exact List.mem_map_of_mem (List.mem_filter.mpr ⟨member, by simpa using targeted⟩)
  rw [keys, once.count, if_congr listed rfl rfl]

end Program.Layout

/-! ### Completeness -/

/-- What a program has of the actions of its scene: all of them, and each only once. -/
structure Program.IsComplete (rate : α) (scene : Scene α) (program : Program α) : Prop where
  /-- Every declared action becomes one instance, in order, and the targets of the instance are the
  objects that the action concerns, each listed once. -/
  becomes : ∃ directory, Directory.ofScene scene = .ok directory ∧
    List.Forall₂ (fun declared action => declared.Becomes directory rate action ∧
      action.targets.Nodup ∧ ∀ target, target ∈ action.targets ↔ declared.Concerns scene target)
      scene.declared (instances rate scene)
  /-- The keys are those of the numbers from zero on. -/
  keys : (instances rate scene).map (·.key) =
    (List.range scene.declared.length).map Slot.actionPrefix
  nodup_keys : ((instances rate scene).map (·.key)).Nodup
  /-- In its enter phase an object dispatches the actions that it carries, each once and in order,
  and there is no other place at which logic is handed on. -/
  dispatched : ∀ placed ∈ program.objects,
    Block.withins placed.phases.enter =
        ((scene.declared.zip (instances rate scene)).filter (·.1.owner = placed.id)).flatMap
          (·.2.dispatch) ∧
      Block.withins placed.phases.advance = [] ∧ Block.withins placed.phases.exit = []
  /-- Whoever carries an action has a place. -/
  carriers : ∀ declared ∈ scene.declared, declared.owner ∈ program.ids
  /-- An object lists the actions on it by their numbers, and advances and finishes them. -/
  listed : ∀ placed ∈ program.objects,
    let actions := (instances rate scene).filter (placed.id ∈ ·.targets)
    placed.actions = actions.map targetAction ∧
      placed.phases.advance = actions.flatMap (·.advance) ∧
      placed.phases.exit = actions.flatMap (·.finish)
  /-- The targets of an action list it, advance it and finish it once, and no other object does. -/
  once : ∀ placed ∈ program.objects, ∀ action ∈ instances rate scene,
    let share := if placed.id ∈ action.targets then 1 else 0
    (placed.actions.map (·.key)).count action.key = share ∧
      (∀ stmt ∈ action.advance, Block.occurrences stmt placed.phases.advance = share) ∧
      ∀ stmt ∈ action.finish, Block.occurrences stmt placed.phases.exit = share
  targets : ∀ action ∈ instances rate scene, ∀ target ∈ action.targets, target ∈ program.ids
  /-- The objects with logic and those that an action concerns have their places in the order of
  the scene, parents first, and the head comes last if an action concerns it. -/
  ids : open Classical in program.ids =
    (scene.walk.filter fun object => object.hasLogic ∨ scene.IsConcerned object.id).map (·.id) ++
      if scene.IsConcerned headId then [headId] else []
  nodup_ids : program.ids.Nodup

/-- Compiling loses nothing and doubles nothing. -/
theorem compile_complete {rate : α} {scene : Scene α} {program : Program α}
    (compiled : Program.compile rate scene = .ok program) :
    Program.IsComplete rate scene program := by
  obtain ⟨layout⟩ := Program.exists_layout compiled
  have listed : ∀ placed ∈ program.objects,
      placed.actions = (Program.targeting (Program.instances rate scene) placed.id).map
          Program.targetAction ∧
        placed.phases.advance =
          (Program.targeting (Program.instances rate scene) placed.id).flatMap (·.advance) ∧
        placed.phases.exit =
          (Program.targeting (Program.instances rate scene) placed.id).flatMap (·.finish) := by
    intro placed isPlaced
    obtain ⟨owned, parts, -⟩ := layout.parts_of_mem isPlaced
    rw [parts]
    exact ⟨rfl, rfl, rfl⟩
  have place {id : String} (placed : ∃ placed ∈ program.objects, placed.id = id) :
      id ∈ program.ids := List.mem_map.mpr placed
  constructor
  case becomes =>
    refine ⟨layout.directory, layout.sound, ?_⟩
    refine List.forall₂_iff_get.mpr ⟨layout.becomes.length_eq, fun index isDeclared isMember => ?_⟩
    have becomes := layout.becomes.get isDeclared isMember
    exact ⟨becomes, layout.numbered.nodup _ (List.get_mem _ _), becomes.mem_targets layout.sound⟩
  case keys =>
    have numbers := congrArg (List.map Slot.actionPrefix) layout.numbered.numbers
    rw [List.map_map, ← layout.becomes.length_eq, ← List.range_eq_range'] at numbers
    exact numbers
  case nodup_keys => exact layout.nodup_keys
  case dispatched =>
    have later {placed : ObjectProgram α} (isPlaced : placed ∈ program.objects) (phase : Phase)
        (notEnter : phase ≠ .enter) : Block.withins (placed.phases.get phase) = [] :=
      Block.withins_of_named _ (layout.named_phase isPlaced notEnter)
    exact fun placed isPlaced => ⟨layout.withins_enter isPlaced,
      later isPlaced .advance (by simp), later isPlaced .exit (by simp)⟩
  case carriers => exact fun declared member => place (layout.exists_carrier member)
  case listed =>
    intro placed isPlaced
    have same : (Program.instances rate scene).filter (placed.id ∈ ·.targets) =
        Program.targeting (Program.instances rate scene) placed.id := by
      simp [Program.targeting]
    rw [same]
    exact listed placed isPlaced
  case once =>
    intro placed isPlaced action member
    obtain ⟨actions, advance, exit⟩ := listed placed isPlaced
    refine ⟨?_, fun stmt own => ?_, fun stmt own => ?_⟩
    · exact actions ▸ layout.count_key member placed.id
    · rw [advance]
      exact layout.occurrences_targeting
        (fun other => by rw [Instance.advance]; split <;> simp)
        (fun _ _ _ => Instance.number_of_advance) member own placed.id
    · rw [exit]
      exact layout.occurrences_targeting
        (fun other => by rw [Instance.finish]; split <;> simp)
        (fun _ _ _ => Instance.number_of_finish) member own placed.id
  case targets => exact fun action member target targeted => place (layout.exists_target member targeted)
  case ids => exact layout.ids_eq
  case nodup_ids => exact layout.nodup_ids

/-- In the hall the rug has no place, since it carries no logic and no action concerns it. -/
theorem compile_complete_hall :
    ∃ program, Program.compile 1 Scene.hall = .ok program ∧
      Program.IsComplete 1 Scene.hall program ∧
      program.ids = ["door", "bell", "lamp", "lantern", "head"] := by
  obtain ⟨program, compiled⟩ := Scene.exists_compile_hall
  refine ⟨program, compiled, compile_complete compiled, ?_⟩
  apply Outcome.eq_of_seen compiled
  decide +kernel

end Stagecraft
