/-
This file shows that the last toggle of a trigger wins. The state of a trigger is written by nothing
but the dispatches of actions that toggle it, and each of them writes its own code there. So the
entries that a run makes for the state are the toggles of its history, in order, and at the turn of
the trigger the state is the code of the last one. No code is there before the first toggle, and then
the trigger is evaluated as it was declared.
-/

import Stagecraft.Proofs.Program.Contracts
import Stagecraft.Proofs.Program.Declared
import Stagecraft.Proofs.Program.Openings
import Stagecraft.Proofs.Trigger.Edges

namespace Stagecraft

variable {α : Type}

/-! ### Toggles in a history -/

/-- The event is the dispatch of an action that enables or disables a trigger. -/
def Event.Toggles [Trigonometric α] (actions : List (Instance α)) (name : String) (enabled : Bool)
    (event : Event α) : Prop :=
  ∃ action ∈ actions, action.effect = .toggle name enabled ∧
    ∃ target ∈ action.targets, event.IsEntry target action.opening

open Classical in
/-- What an event toggles a trigger to, if it does. -/
noncomputable def Event.toggle? [Trigonometric α] (actions : List (Instance α)) (name : String)
    (event : Event α) : Option Bool :=
  if event.Toggles actions name true then some true
  else if event.Toggles actions name false then some false
  else none

namespace Trace

variable [Trigonometric α]

/-- The toggles of a trigger in a history, in order. -/
noncomputable def toggles (actions : List (Instance α)) (name : String)
    (history : List (Event α)) : List Bool :=
  history.filterMap (·.toggle? actions name)

/-- Whether a trigger is enabled after a history: as the last toggle says, or as it was declared. -/
noncomputable def isEnabled (actions : List (Instance α)) (name : String) (declared : Bool)
    (history : List (Event α)) : Bool :=
  (toggles actions name history).getLast?.getD declared

variable {actions : List (Instance α)} {name : String}

@[simp] theorem toggles_nil : toggles actions name [] = [] := rfl

@[simp] theorem toggles_append (first second : List (Event α)) :
    toggles actions name (first ++ second) =
      toggles actions name first ++ toggles actions name second :=
  List.filterMap_append

theorem toggles_cons (event : Event α) (rest : List (Event α)) :
    toggles actions name (event :: rest) =
      (event.toggle? actions name).toList ++ toggles actions name rest := by
  rw [toggles, toggles, List.filterMap_cons]
  cases event.toggle? actions name <;> rfl

end Trace

/-! ### Codes -/

namespace Effect

variable [Scalar α]

/-- What a toggle writes to the state. -/
def stateOf (enabled : Bool) : α :=
  if enabled then enabledState else disabledState

variable [Counting α]

/-- The two codes and their absence are told apart. -/
theorem ofNat_beq_state (count : Nat) (small : count ≤ 2) :
    ((Scalar.ofNat count : α) == enabledState) = decide (count = 1) ∧
      ((Scalar.ofNat count : α) == disabledState) = decide (count = 2) := by
  have within : (2 : Nat) ≤ countingLimit := by decide
  rw [enabledState, disabledState, Scalar.two, ← Counting.ofNat_one]
  exact ⟨Counting.ofNat_beq _ _ (by omega) (by omega), Counting.ofNat_beq _ _ (by omega) within⟩

theorem stateOf_beq (enabled : Bool) :
    ((stateOf enabled : α) == enabledState) = enabled ∧
      ((stateOf enabled : α) == disabledState) = !enabled := by
  cases enabled with
  | false => exact ofNat_beq_state 2 (by omega)
  | true =>
    have codes := ofNat_beq_state (α := α) 1 (by omega)
    rwa [Counting.ofNat_one] at codes

theorem zero_beq_state :
    ((0 : α) == enabledState) = false ∧ ((0 : α) == disabledState) = false := by
  have codes := ofNat_beq_state (α := α) 0 (by omega)
  rwa [Counting.ofNat_zero] at codes

theorem toggleTrigger_injective {name : String} {first second : Bool}
    (same : (toggleTrigger name first : Block α) = toggleTrigger name second) : first = second := by
  have codes : (stateOf first : α) = stateOf second :=
    Expr.num.inj (Stmt.set.inj (List.cons.inj same).1).2
  rw [← (stateOf_beq (α := α) first).1, codes, (stateOf_beq second).1]

end Effect

/-! ### Toggles of actions -/

variable [Trigonometric α]

/-- The place of a trigger's state. -/
def Trigger.statePlace (owner name : String) : String × String :=
  (owner, (Slot.watch (.trigger name) .state).key)

/-- Those actions that toggle a trigger do it at once, and on its owner. -/
structure Trigger.IsToggledOn (owner name : String) (actions : List (Instance α)) : Prop where
  opening : ∀ action ∈ actions, ∀ enabled, action.effect = .toggle name enabled →
    action.opening = Effect.toggleTrigger name enabled
  instant : ∀ action ∈ actions, ∀ enabled, action.effect = .toggle name enabled → ¬action.isTimed
  targets : ∀ action ∈ actions, ∀ enabled, action.effect = .toggle name enabled →
    action.targets = [owner]

omit [Trigonometric α] in
/-- What writes the state of a trigger toggles it. -/
theorem Instance.exists_of_reaches_state {action : Instance α} {name : String}
    (reached : action.Reaches (.watch (.trigger name) .state)) :
    ∃ enabled, action.effect = .toggle name enabled := by
  rcases reached with (drives | ⟨_, -, -, same⟩) | same | same
  · cases effect : action.effect <;> rw [effect] at drives
    case toggle =>
      obtain rfl := Watch.trigger.inj (Slot.watch.inj drives).1
      exact ⟨_, rfl⟩
    all_goals simp_all [Effect.Drives, Slot.visible, Slot.alpha, Slot.position, Slot.orientation]
  · cases same
  · cases same
  · cases same

/-- Only the beginning of a block toggles. -/
theorem Event.toggle?_eq_none {actions : List (Instance α)} {name : String} {event : Event α}
    (not : ∀ enabled, ¬event.Toggles actions name enabled) : event.toggle? actions name = none := by
  rw [toggle?, if_neg (not true), if_neg (not false)]

theorem Event.toggle?_wrote (actions : List (Instance α)) (name object key : String) (value : α) :
    (Event.wrote object key value).toggle? actions name = none := by
  refine toggle?_eq_none fun enabled => ?_
  rintro ⟨-, -, -, -, -, ⟨⟩⟩

section

variable {actions : List (Instance α)} {owner name : String}
  (toggled : Trigger.IsToggledOn owner name actions) {world : World α}

include toggled

theorem Event.toggles_entered_iff {object : String} {block : Block α} {enabled : Bool} :
    (Event.entered object block world).Toggles actions name enabled ↔
      object = owner ∧ block = Effect.toggleTrigger name enabled ∧
        ∃ action ∈ actions, action.effect = .toggle name enabled := by
  constructor
  · rintro ⟨action, member, effect, target, targeted, rfl, rfl⟩
    rw [toggled.targets action member enabled effect, List.mem_singleton] at targeted
    exact ⟨targeted, toggled.opening action member enabled effect, action, member, effect⟩
  · rintro ⟨rfl, rfl, action, member, effect⟩
    refine ⟨action, member, effect, object, ?_, rfl, ?_⟩
    · rw [toggled.targets action member enabled effect]
      exact List.mem_singleton_self _
    · rw [toggled.opening action member enabled effect]

/-- A block that spares the state of the trigger toggles it neither as a whole nor inside. -/
theorem Event.toggle?_of_spared {object : String} {block : Block α}
    (spared : Trigger.statePlace owner name ∉ Block.writes object block) :
    (Event.entered object block world).toggle? actions name = none := by
  refine toggle?_eq_none fun enabled toggles => ?_
  obtain ⟨rfl, rfl, -⟩ := (toggles_entered_iff toggled).mp toggles
  exact spared (by simp [Effect.toggleTrigger, Slot.write, Trigger.statePlace])

/-- Neither does a block that keeps its books elsewhere and opens actions, as a whole. -/
theorem Event.toggle?_of_opens {own : Slot → Prop} (unbooked : ¬own (.watch (.trigger name) .state))
    {object : String} {block : Block α} (opens : Block.Opens actions own object block) :
    (Event.entered object block world).toggle? actions name = none := by
  refine toggle?_eq_none fun enabled toggles => ?_
  obtain ⟨-, rfl, -⟩ := (toggles_entered_iff toggled).mp toggles
  cases opens with
  | plain _ _ bounded => exact unbooked (Block.writesOnly_write.mp bounded).2

theorem Event.toggle?_of_toggles [Counting α] {enabled : Bool} {event : Event α}
    (toggles : event.Toggles actions name enabled) :
    event.toggle? actions name = some enabled := by
  have other (opposite : Bool) (both : event.Toggles actions name opposite) : opposite = enabled := by
    cases event with
    | wrote => exact absurd toggles (by rintro ⟨-, -, -, -, -, ⟨⟩⟩)
    | entered object block found =>
      obtain ⟨-, here, -⟩ := (toggles_entered_iff toggled).mp toggles
      obtain ⟨-, there, -⟩ := (toggles_entered_iff toggled).mp both
      exact Effect.toggleTrigger_injective (there.symm.trans here)
  rw [toggle?]
  cases enabled with
  | true => rw [if_pos toggles]
  | false => rw [if_neg fun both => Bool.noConfusion (other true both), if_pos toggles]

end

/-! ### Accounts -/

/-- The entries for the state of a trigger are the codes of its toggles. -/
def Trace.Accounts (actions : List (Instance α)) (owner name : String)
    (trace : List (Event α)) : Prop :=
  ledger owner (Slot.watch (.trigger name) .state).key trace =
    (toggles actions name trace).map Effect.stateOf

namespace Trace

variable {actions : List (Instance α)} {owner name : String}

theorem accounts_nil : Accounts actions owner name [] := rfl

theorem Accounts.append {first second : List (Event α)} (early : Accounts actions owner name first)
    (late : Accounts actions owner name second) : Accounts actions owner name (first ++ second) := by
  rw [Accounts, ledger_append, early, late, toggles_append, List.map_append]

variable (toggled : Trigger.IsToggledOn owner name actions)

include toggled

omit toggled in
theorem accounts_entered {object : String} {block : Block α} {world : World α}
    {rest : List (Event α)} (none : (Event.entered object block world).toggle? actions name = none)
    (later : Accounts actions owner name rest) :
    Accounts actions owner name (.entered object block world :: rest) := by
  rw [Accounts, ledger_cons_entered, later, toggles_cons, none]
  rfl

/-- A block that spares the state has nothing to account for. -/
theorem accounts_of_spared {this : String} {block : Block α}
    (spared : Trigger.statePlace owner name ∉ Block.writes this block) (locals : Locals α)
    (world : World α) :
    Accounts actions owner name (Block.traceAll this locals world block) := by
  have none : toggles actions name (Block.traceAll this locals world block) = [] := by
    refine List.filterMap_eq_nil_iff.mpr fun event happens => ?_
    cases event with
    | entered object inner found =>
      exact Event.toggle?_of_spared toggled fun member =>
        spared (Block.writes_subset_of_entered block happens member)
    | wrote object key value => exact Event.toggle?_wrote actions name object key value
  rw [Accounts, none, ledger_of_notMem spared]
  rfl

/-- Opening an action on one of its targets toggles the trigger or spares its state. -/
theorem accounts_opening [Counting α] {action : Instance α} (member : action ∈ actions)
    {target : String} (targeted : target ∈ action.targets) (locals : Locals α) (world : World α) :
    Accounts actions owner name (.entered target action.opening world ::
      Block.traceAll target locals world action.opening) := by
  by_cases toggles : ∃ enabled, action.effect = .toggle name enabled
  · obtain ⟨enabled, effect⟩ := toggles
    have isToggle : (Event.entered target action.opening world).Toggles actions name enabled :=
      ⟨action, member, effect, target, targeted, rfl, rfl⟩
    rw [toggled.targets action member enabled effect, List.mem_singleton] at targeted
    rw [Accounts, toggles_cons, Event.toggle?_of_toggles toggled isToggle,
      toggled.opening action member enabled effect, Effect.toggleTrigger, Block.traceAll_cons,
      Block.traceAll_nil, Slot.trace_write, targeted, List.append_nil, ledger_cons_entered,
      ledger_cons_wrote, toggles_cons, Event.toggle?_wrote]
    simp [Effect.stateOf, Value.number]
  · have spared : Trigger.statePlace owner name ∉ Block.writes target action.opening :=
      Instance.writesOnly_opening.notMem fun inside =>
        toggles (Instance.exists_of_reaches_state inside.2)
    exact accounts_entered (Event.toggle?_of_spared toggled spared)
      (accounts_of_spared toggled spared locals world)

/-- A block that keeps its books elsewhere and opens actions accounts for every toggle. -/
theorem accounts_of_opens [Counting α] {own : Slot → Prop}
    (unbooked : ¬own (.watch (.trigger name) .state)) {this : String} {block : Block α}
    (opens : Block.Opens actions own this block) (locals : Locals α) (world : World α) :
    Accounts actions owner name (Block.traceAll this locals world block) := by
  induction opens generalizing locals world with
  | nil => exact accounts_nil
  | plain stmt rest bounded _ inductionHypothesis =>
    have here := accounts_of_spared toggled (bounded.notMem fun inside => unbooked inside.2) locals world
    rw [Block.traceAll_cons, Block.traceAll_nil, List.append_nil] at here
    rw [Block.traceAll_cons]
    exact here.append (inductionHypothesis _ _)
  | branch condition yes no rest opensYes opensNo _ inYes inNo inductionHypothesis =>
    rw [Block.traceAll_cons, Stmt.trace]
    refine Accounts.append ?_ (inductionHypothesis _ _)
    split
    · exact accounts_entered (Event.toggle?_of_opens toggled unbooked opensYes) (inYes _ _)
    · exact accounts_entered (Event.toggle?_of_opens toggled unbooked opensNo) (inNo _ _)
  | opening action target rest member targeted _ inductionHypothesis =>
    rw [Block.traceAll_cons, Stmt.trace]
    exact (accounts_opening toggled member targeted locals world).append (inductionHypothesis _ _)

omit toggled in
theorem accounts_agenda {agenda : Agenda α} (each : ∀ duty ∈ agenda, ∀ locals world,
      Accounts actions owner name (Block.traceAll duty.object locals world duty.block))
    (world : World α) : Accounts actions owner name (agenda.trace world) := by
  induction agenda generalizing world with
  | nil => exact accounts_nil
  | cons duty rest inductionHypothesis =>
    obtain ⟨here, later⟩ := List.forall_mem_cons.mp each
    rw [Agenda.trace_cons, Duty.trace]
    refine Accounts.append ?_ (inductionHypothesis later _)
    split
    · exact here [] world
    · exact accounts_nil

end Trace

/-! ### Toggles of a scene -/

/-- Toggles are what the actions declared as such become. -/
theorem Action.Resolves.toggle_iff {directory : Directory α} {context : Context} {owner : String}
    {action : Action α} {targets : List String} {effect : Effect α}
    (resolves : action.Resolves directory context owner targets effect) {name : String}
    {enabled : Bool} :
    action.kind = .triggerToggle name enabled ↔ effect = .toggle name enabled := by
  cases resolves with
  | timeline isKind => simp [isKind]
  | toggle isKind => simp [isKind]
  | group isKind _ made =>
    rw [isKind]
    cases Effect.made_of_ofObjectAction made <;> simp
  | object _ made =>
    have isMade := Effect.made_of_ofObjectAction made
    generalize action.kind = kind at isMade
    cases isMade <;> simp

namespace Program.Layout

variable {rate : α} {scene : Scene α} {program : Program α} (layout : Layout rate scene program)

include layout

/-- Which declared actions toggle a trigger. -/
theorem toggles_declared (name : String) (enabled : Bool) :
    List.Forall₂ (fun declared action => declared.action.kind = .triggerToggle name enabled ↔
      action.effect = .toggle name enabled) scene.declared (instances rate scene) :=
  layout.becomes.imp fun _ _ becomes => (Action.resolves_of_resolve becomes).2.toggle_iff

variable {object : SceneObject α} (inScene : object ∈ scene.walk) {trigger : Trigger α}
  (member : trigger ∈ object.triggers)

include inScene member

theorem isToggledOn :
    Trigger.IsToggledOn object.id trigger.name (instances rate scene) := by
  have switched : ∀ action ∈ instances rate scene, ∀ enabled,
      action.effect = .toggle trigger.name enabled → action.SwitchesOn object.id :=
    fun action isInstance enabled effect =>
      layout.switchesOn inScene isInstance (effect ▸ List.mem_map_of_mem member)
  refine ⟨fun action isInstance enabled effect => ?_,
    fun action isInstance enabled effect => (switched action isInstance enabled effect).instant,
    fun action isInstance enabled effect => (switched action isInstance enabled effect).targets⟩
  rw [(switched action isInstance enabled effect).opening, effect]
  rfl

variable [Counting α]

/-- The enter phases of some objects account for every toggle. -/
theorem accounts_enter {part : List (ObjectProgram α)}
    (inProgram : ∀ placed ∈ part, placed ∈ program.objects) (world : World α) :
    Trace.Accounts (instances rate scene) object.id trigger.name
      (Agenda.trace (part.map (·.duty .enter)) world) := by
  refine Trace.accounts_agenda (fun duty inDuties locals world => ?_) world
  obtain ⟨placed, inPart, rfl⟩ := List.mem_map.mp inDuties
  exact Trace.accounts_of_opens (layout.isToggledOn inScene member) (fun booked => booked rfl)
    (layout.opens_enter (inProgram placed inPart)) locals world

/-- The frame accounts for every toggle: after the enter phase there is none. -/
theorem accounts_frame (world : World α) :
    Trace.Accounts (instances rate scene) object.id trigger.name (program.frame.trace world) := by
  have toggled := layout.isToggledOn inScene member
  have later (phase : Phase) (notEnter : phase ≠ .enter) (world : World α) :
      Trace.Accounts (instances rate scene) object.id trigger.name
        ((program.agenda phase).trace world) := by
    refine Trace.accounts_agenda (fun duty inDuties locals world => ?_) world
    obtain ⟨placed, isPlaced, rfl⟩ := mem_agenda.mp inDuties
    have bounded : Block.WritesOnly (fun _ slot => slot ≠ .watch (.trigger trigger.name) .state)
        placed.id (placed.phases.get phase) := by
      refine layout.writesOnly_phase isPlaced notEnter fun action isInstance timed slot reached => ?_
      rintro rfl
      obtain ⟨enabled, effect⟩ := Instance.exists_of_reaches_state reached
      exact toggled.instant action isInstance enabled effect timed
    exact Trace.accounts_of_spared toggled (bounded.notMem fun apart => apart rfl) locals world
  rw [frame_eq, Agenda.trace_append, Agenda.trace_append]
  exact (layout.accounts_enter inScene member (fun _ => id) world).append
    ((later .advance (by simp) _).append (later .exit (by simp) _))

end Program.Layout

namespace Program.Layout.Seat

variable {rate : α} {scene : Scene α} {program : Program α} {layout : Layout rate scene program}
  {object : SceneObject α} {first last : List (Owned.Source α)} {source : Owned.Source α}
  {piece : Owned α} (seat : layout.Seat object first source last piece)

/-- Before its turn, too, an object keeps its books and opens actions. -/
theorem opens_before : Block.Opens (instances rate scene) Slot.IsBooked object.id seat.spot.before := by
  rw [seat.before]
  refine (layout.opens_once seat.owns _).append (Owned.opens_pieces seat.madeEarly
    (fun _ _ _ keeps => keeps.isTracked.isBooked) fun action inEarly => seat.mem_instances ?_)
  rw [List.flatMap_append]
  exact List.mem_append_left _ inEarly

/-- What happens in a frame before a turn of the owner accounts for every toggle, too. -/
theorem accounts_lead [Counting α] (inScene : object ∈ scene.walk) {trigger : Trigger α}
    (member : trigger ∈ object.triggers) (world : World α) :
    Trace.Accounts (instances rate scene) object.id trigger.name (seat.spot.lead world) :=
  (layout.accounts_enter inScene member (fun _ inEarlier => seat.mem_program (.inl inEarlier)) world).append
    (Trace.accounts_of_opens (layout.isToggledOn inScene member) (fun booked => booked rfl)
      seat.opens_before [] _)

end Program.Layout.Seat

/-! ### Runs -/

/-- The trigger is evaluated as the last of the toggles says whose codes its state has held. -/
theorem Post.isEvaluated_ofTrigger [Counting α] {trigger : Trigger α} {sensor : Sensor α}
    {actions : List (Instance α)} {owner : String} {world : World α} {toggles : List Bool}
    (state : world.read owner (Slot.watch (.trigger trigger.name) .state).key =
      (toggles.map Effect.stateOf).getLast?.getD 0) :
    (ofTrigger trigger sensor actions).isEvaluated owner world =
      toggles.getLast?.getD trigger.enabled := by
  have zero := Effect.zero_beq_state (α := α)
  rw [isEvaluated]
  dsimp only [ofTrigger]
  rw [state, List.getLast?_map]
  cases toggles.getLast? with
  | none => cases declared : trigger.enabled <;> simp [zero]
  | some enabled =>
    have code := Effect.stateOf_beq (α := α) enabled
    cases declared : trigger.enabled <;> simp [code]

/-- The post of a trigger stands in the program of the scene, and at each of its turns, in every
frame of every run, it is evaluated exactly if the trigger is enabled after all that happened in
earlier frames and before the turn in this one. -/
def Post.ObeysToggles (post : Post α) (trigger : Trigger α) (actions : List (Instance α))
    (program : Program α) (scene : Scene α) (owner : String) : Prop :=
  ∃ (title : String) (spot : Program.Spot program owner (post.block title)),
    ∀ (visits : Nat → List (Visit α)) (frame : Nat),
      let run := Run.ofScene program scene visits
      let history := (List.range frame).flatMap run.trace ++ spot.lead (run.world frame)
      run.trace frame = spot.lead (run.world frame) ++
          (spot.trace (run.world frame) ++ spot.rest (run.world frame)) ∧
        Trace.entries owner post.evaluate (spot.trace (run.world frame)) =
          if Trace.isEnabled actions trigger.name trigger.enabled history then 1 else 0

theorem Post.entries_evaluate (post : Post α) {declared : Bool} (isDeclared : post.declared = some declared)
    (owner : String) (locals : Locals α) (world : World α) :
    Trace.entries owner post.evaluate (Block.traceAll owner locals world post.guarded) =
      if post.isEvaluated owner world then 1 else 0 := by
  have nonempty : ¬(owner = owner ∧ [] = post.evaluate) := by
    rintro ⟨-, none⟩
    simp [evaluate, Watch.evaluate] at none
  rw [trace_guarded, isDeclared]
  dsimp only
  split
  · rw [Trace.entries_cons_self, Trace.entries_self]
  · rw [Trace.entries_cons_other nonempty, Trace.entries_nil]

variable [Counting α]

namespace Program.Layout

variable {rate : α} {scene : Scene α} {program : Program α} (layout : Layout rate scene program)
  {object : SceneObject α} (inScene : object ∈ scene.walk) {trigger : Trigger α}
  (member : trigger ∈ object.triggers)

include layout inScene member

/-- Before a frame the state is the code of the last toggle of earlier frames. -/
theorem read_state (visits : Nat → List (Visit α)) (frame : Nat) :
    let run := Run.ofScene program scene visits
    (run.stage frame).world.read object.id (Slot.watch (.trigger trigger.name) .state).key =
      ((Trace.toggles (instances rate scene) trigger.name
        ((List.range frame).flatMap run.trace)).map Effect.stateOf).getLast?.getD 0 := by
  intro run
  have inward : ¬(Slot.watch (.trigger trigger.name) .state).IsOutward := id
  induction frame with
  | zero => exact Stage.read_ofScene inward scene object.id
  | succ frame inductionHypothesis =>
    have hosted : (run.world frame).hosts object.id := by
      rw [Run.hosts_world]
      exact hosts_owner inScene
    have accounts : Trace.Accounts _ _ _ (run.trace frame) :=
      layout.accounts_frame inScene member (run.world frame)
    rw [run.read_stage_succ inward, Agenda.read_run_eq _ hosted, run.read_world inward,
      inductionHypothesis, ← Run.trace, accounts, List.range_succ, List.flatMap_append,
      Trace.toggles_append, List.map_append, List.getLast?_append, Option.getD_or]
    simp

/-- A trigger obeys its toggles where what happens before its turn accounts for all of them. -/
theorem obeysToggles_of_accounts {sensor : Sensor α} {actions : List (Instance α)} {title : String}
    (spot : Program.Spot program object.id ((Post.ofTrigger trigger sensor actions).block title))
    (accounts : ∀ world : World α,
      Trace.Accounts (instances rate scene) object.id trigger.name (spot.lead world)) :
    (Post.ofTrigger trigger sensor actions).ObeysToggles trigger (instances rate scene) program
      scene object.id := by
  refine ⟨title, spot, fun visits frame => ?_⟩
  let run := Run.ofScene program scene visits
  have hosted : (run.world frame).hosts object.id := by
    rw [Run.hosts_world]
    exact hosts_owner inScene
  have inward : ¬(Slot.watch (.trigger trigger.name) .state).IsOutward := id
  have state : (spot.turn (run.world frame)).read object.id
      (Slot.watch (.trigger trigger.name) .state).key =
      ((Trace.toggles (instances rate scene) trigger.name ((List.range frame).flatMap run.trace ++
        spot.lead (run.world frame))).map Effect.stateOf).getLast?.getD 0 := by
    have earlier := layout.read_state inScene member visits frame
    dsimp only at earlier
    rw [spot.read_turn_eq hosted, run.read_world inward, earlier, accounts, ← Option.getD_or,
      ← List.getLast?_append, ← List.map_append, ← Trace.toggles_append]
  have turnTrace : spot.trace (run.world frame) = Block.traceAll object.id
      (spot.locals (run.world frame)) (spot.turn (run.world frame))
      (Post.ofTrigger trigger sensor actions).guarded := by
    show Block.traceAll object.id _ _ (.comment title :: Post.guarded _) = _
    rw [Block.traceAll_cons, Stmt.trace.eq_def, Stmt.run]
    rfl
  refine ⟨spot.trace_frame hosted, ?_⟩
  rw [turnTrace, Post.entries_evaluate _ rfl, Post.isEvaluated_ofTrigger state]
  rfl

theorem obeysToggles :
    ∃ sensor first actions,
      trigger.sensor layout.directory (.trigger trigger.name) = .ok sensor ∧
      Action.resolveAll layout.directory rate (.trigger trigger.name) object.id first
        trigger.actions = .ok actions ∧
      (Post.ofTrigger trigger sensor actions).ObeysToggles trigger (instances rate scene) program
        scene object.id := by
  obtain ⟨owned, isOwned⟩ := layout.exists_owned inScene
  obtain ⟨before, after, triggers⟩ := List.append_of_mem member
  have logic : object.hasLogic := by
    simp [SceneObject.hasLogic, triggers]
  have sources : object.sources = before.map .trigger ++ .trigger trigger ::
      (after.map .trigger ++ .link object.linkActions :: object.timelines.map .timeline) := by
    simp [SceneObject.sources, triggers]
  obtain ⟨piece, ⟨seat⟩⟩ := layout.exists_seat isOwned logic sources
  have made := seat.made
  generalize seat.number = number at made
  have accounts := seat.accounts_lead inScene member
  cases made with
  | trigger _ sensor actions title found resolved =>
    exact ⟨sensor, number, actions, found, resolved,
      layout.obeysToggles_of_accounts inScene member seat.spot accounts⟩

end Program.Layout

/-- The last toggle of a trigger wins. At each of its turns, in every frame of every run, a trigger is
evaluated exactly if the last action that toggled it so far enabled it, or if it was declared enabled
and no action has toggled it yet. The toggles that count are all that any object dispatched, in
earlier frames and in this one before the turn. Which actions they are can be read off the scene. -/
theorem last_toggle_wins {rate : α} {scene : Scene α} {program : Program α}
    (compiled : Program.compile rate scene = .ok program) :
    ∃ directory, Directory.ofScene scene = .ok directory ∧
      ∀ object ∈ scene.walk, ∀ trigger ∈ object.triggers,
        (∀ enabled, List.Forall₂ (fun declared action =>
          declared.action.kind = .triggerToggle trigger.name enabled ↔
            action.effect = .toggle trigger.name enabled)
          scene.declared (Program.instances rate scene)) ∧
        (∀ action ∈ Program.instances rate scene, ∀ enabled,
          action.effect = .toggle trigger.name enabled → action.targets = [object.id]) ∧
        ∃ sensor first actions,
          trigger.sensor directory (.trigger trigger.name) = .ok sensor ∧
          Action.resolveAll directory rate (.trigger trigger.name) object.id first
            trigger.actions = .ok actions ∧
          (Post.ofTrigger trigger sensor actions).ObeysToggles trigger
            (Program.instances rate scene) program scene object.id := by
  obtain ⟨layout⟩ := Program.exists_layout compiled
  refine ⟨layout.directory, layout.sound, fun object inScene trigger member => ⟨fun enabled => ?_,
    (layout.isToggledOn inScene member).targets, layout.obeysToggles inScene member⟩⟩
  exact layout.toggles_declared trigger.name enabled

/-- Whoever comes near the vault sets off its alarm. -/
def Trigger.alarm : Trigger Float where
  name := "alarm"
  condition := .proximity .head (.object "vault") 2
  actions := [⟨none, 0, .sound "siren" (.start 1)⟩]
  remain := false
  enabled := true
  epsilon := 0

/-- Selecting the vault switches its alarm on. -/
def SceneObject.vault : SceneObject Float where
  __ := SceneObject.still "vault"
  triggers := [.alarm]
  linkActions := [⟨none, 0, .triggerToggle "alarm" true⟩]

/-- The guard switches the alarm off as the first frame begins, before the vault has its turn. -/
def Scene.vault : Scene Float where
  objects := [
    { SceneObject.still "guard" with
      timelines := [⟨"duty", true, [⟨0, ⟨none, 0, .triggerToggle "alarm" false⟩⟩]⟩] },
    .vault]
  groups := []

/-- The alarm, which the first frame has disabled, obeys its toggles. -/
theorem last_toggle_wins_vault :
    ∃ program, Program.compile 1 Scene.vault = .ok program ∧
      ((Run.ofScene program Scene.vault fun _ => []).stage 1).world.read "vault"
        (Slot.watch (.trigger "alarm") .state).key = Effect.stateOf false ∧
      ∃ sensor actions, (Post.ofTrigger .alarm sensor actions).ObeysToggles .alarm
        (Program.instances 1 Scene.vault) program Scene.vault "vault" := by
  obtain ⟨program, compiled⟩ : ∃ program, Program.compile 1 Scene.vault = .ok program :=
    Program.exists_of_isOk (by decide +kernel)
  have disabled : ((Run.ofScene program Scene.vault fun _ => []).stage 1).world.read "vault"
      (Slot.watch (.trigger "alarm") .state).key = Effect.stateOf false := by
    apply Outcome.eq_of_seen compiled
    decide +kernel
  obtain ⟨directory, -, triggers⟩ := last_toggle_wins compiled
  have inScene : .vault ∈ Scene.vault.walk := List.mem_cons_of_mem _ List.mem_cons_self
  obtain ⟨-, -, sensor, first, actions, -, -, obeys⟩ :=
    triggers _ inScene .alarm (List.mem_singleton_self _)
  exact ⟨program, compiled, disabled, sensor, actions, obeys⟩

end Stagecraft
