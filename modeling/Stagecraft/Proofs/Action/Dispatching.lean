/-
This file follows one timed action through blocks that may dispatch it. Every block of the action
that matters writes the flag or the count of the action directly, and nothing but the action's own
blocks ever writes them. So a stretch of a run that only dispatches the action either leaves flag and
count of all targets alone, or dispatches it and leaves them all at the beginning.
-/

import Stagecraft.Proofs.Action.Scope
import Stagecraft.Proofs.Logic.Evaluation
import Stagecraft.Proofs.Logic.Trace

namespace Stagecraft

namespace Instance

variable {α : Type}

/-! ### Marks -/

section

variable (self : Instance α)

/-- Neither the flag nor the count of the action. -/
def Spared : String → Slot → Prop :=
  fun _ slot => slot ≠ self.active ∧ slot ≠ self.elapsed

/-- The block itself, not only a block inside it, writes the flag or the count of the action. -/
def Marks (block : Block α) : Prop :=
  ∃ slot value, (slot = self.active ∨ slot = self.elapsed) ∧ slot.write value ∈ block

/-- The block touches the flag and the count of the action only by dispatching it. -/
inductive OnlyDispatched [Trigonometric α] (this : String) : Block α → Prop
  | nil : OnlyDispatched this []
  | spared (stmt : Stmt α) (rest : Block α) :
    Block.WritesOnly self.Spared this [stmt] → OnlyDispatched this rest →
      OnlyDispatched this (stmt :: rest)
  | branch (condition : Expr α) (yes no rest : Block α) :
    OnlyDispatched this yes → OnlyDispatched this no → OnlyDispatched this rest →
      OnlyDispatched this (.branch condition yes no :: rest)
  | dispatch (rest : Block α) :
    OnlyDispatched this rest → OnlyDispatched this (self.dispatch ++ rest)

end

variable {self : Instance α} {this : String}

theorem Marks.mem_writes {block : Block α} (marks : self.Marks block) (object : String) :
    ∃ slot, (slot = self.active ∨ slot = self.elapsed) ∧
      (object, slot.key) ∈ Block.writes object block := by
  obtain ⟨slot, value, kept, member⟩ := marks
  refine ⟨slot, kept, Block.mem_writes.mpr ⟨_, member, ?_⟩⟩
  simp [Slot.write]

theorem not_spared {slot : Slot} (kept : slot = self.active ∨ slot = self.elapsed)
    (object : String) : ¬self.Spared object slot := by
  rintro ⟨notActive, notElapsed⟩
  rcases kept with same | same
  · exact notActive same
  · exact notElapsed same

/-- What other actions may write is spared. -/
theorem spared_of_reaches {other : Instance α} (different : other.number ≠ self.number)
    {object : String} {slot : Slot} (reached : other.Reaches slot) : self.Spared object slot := by
  constructor
  · rintro rfl
    exact different (reaches_active_iff.mp reached)
  · rintro rfl
    exact different (reaches_elapsed_iff.mp reached)

theorem spared_watch (watch : Watch) (field : WatchField) :
    self.Spared this (.watch watch field) := by
  simp [Spared, active, elapsed]

theorem spared_timeline (name : String) (field : TimelineField) :
    self.Spared this (.timeline name field) := by
  simp [Spared, active, elapsed]

/-- The blocks of other actions on a target do nothing to the action. -/
theorem spared_flatMap {own : Instance α → Block α}
    (bounded : ∀ (other : Instance α) object,
      Block.WritesOnly (other.ScopeOn object) object (own other))
    {others : List (Instance α)} (apart : ∀ other ∈ others, other.number ≠ self.number) :
    Block.WritesOnly self.Spared this (others.flatMap own) :=
  Block.writesOnly_flatMap fun other member =>
    (bounded other this).mono fun _ _ inside => spared_of_reaches (apart other member) inside.2

theorem elapsed_ne_active (value value' : Expr α) :
    self.elapsed.write value ≠ self.active.write value' := by
  intro same
  have keys := (Stmt.set.inj same).1
  simp [elapsed, active] at keys

section

variable [Trigonometric α]

namespace OnlyDispatched

theorem of_writesOnly {block : Block α} (spared : Block.WritesOnly self.Spared this block) :
    self.OnlyDispatched this block := by
  induction block with
  | nil => exact .nil
  | cons stmt rest inductionHypothesis =>
    obtain ⟨here, later⟩ := Block.writesOnly_cons.mp spared
    exact .spared stmt rest here (inductionHypothesis later)

theorem append {first second : Block α} (early : self.OnlyDispatched this first)
    (late : self.OnlyDispatched this second) : self.OnlyDispatched this (first ++ second) := by
  induction early with
  | nil => exact late
  | spared stmt rest here _ inductionHypothesis => exact .spared stmt _ here inductionHypothesis
  | branch condition yes no rest inYes inNo _ _ _ inductionHypothesis =>
    exact .branch condition yes no _ inYes inNo inductionHypothesis
  | dispatch rest _ inductionHypothesis =>
    rw [List.append_assoc]
    exact .dispatch _ inductionHypothesis

theorem flatMap {β : Type} {values : List β} {block : β → Block α}
    (each : ∀ value ∈ values, self.OnlyDispatched this (block value)) :
    self.OnlyDispatched this (values.flatMap block) := by
  induction values with
  | nil => exact .nil
  | cons value rest inductionHypothesis =>
    obtain ⟨here, later⟩ := List.forall_mem_cons.mp each
    rw [List.flatMap_cons]
    exact here.append (inductionHypothesis later)

theorem map {β : Type} {values : List β} {statement : β → Stmt α}
    (each : ∀ value ∈ values, self.OnlyDispatched this [statement value]) :
    self.OnlyDispatched this (values.map statement) := by
  rw [List.map_eq_flatMap]
  exact flatMap each

theorem onlyIf {condition : Expr α} {body : Block α} (inside : self.OnlyDispatched this body) :
    self.OnlyDispatched this [.onlyIf condition body] :=
  .branch condition body [] [] inside .nil .nil

/-- A dispatch of any action whose number is shared by no other one. -/
theorem dispatch_of_number {other : Instance α}
    (alone : other.number = self.number → other = self) (this : String) :
    self.OnlyDispatched this other.dispatch := by
  by_cases same : other.number = self.number
  · rw [alone same, ← List.append_nil self.dispatch]
    exact .dispatch [] .nil
  · exact of_writesOnly ((other.writesOnly_dispatch this).mono
      fun _ _ inside => spared_of_reaches same inside.2)

/-- Such a block does not write flag or count itself. -/
theorem not_marks {block : Block α} (only : self.OnlyDispatched this block) :
    ¬self.Marks block := by
  rintro ⟨slot, value, kept, member⟩
  induction only with
  | nil => cases member
  | spared stmt rest here _ inductionHypothesis =>
    rcases List.mem_cons.mp member with rfl | member
    · exact not_spared kept this (Block.writesOnly_write.mp here)
    · exact inductionHypothesis member
  | branch condition yes no rest _ _ _ _ _ inductionHypothesis =>
    rcases List.mem_cons.mp member with same | member
    · cases same
    · exact inductionHypothesis member
  | dispatch rest _ inductionHypothesis =>
    rcases List.mem_append.mp member with member | member
    · obtain ⟨target, -, same⟩ := List.mem_map.mp member
      cases same
    · exact inductionHypothesis member

end OnlyDispatched

/-! ### Bodies -/

variable (self) in
/-- What a target runs in every frame in which the action goes on. -/
def advanceBody : Block α :=
  self.phases.advance ++ [self.elapsed.write (self.elapsed.read + .num 1)]

variable (self) in
/-- What a target runs when the action has had its ticks. -/
def finishBody : Block α :=
  self.phases.exit ++ [self.active.write (.num 0)]

theorem marks_opening (timed : self.isTimed) : self.Marks self.opening := by
  refine ⟨self.active, .num 1, .inl rfl, ?_⟩
  simp [opening, timed]

theorem marks_advanceBody : self.Marks self.advanceBody :=
  ⟨self.elapsed, _, .inr rfl, List.mem_append_right _ List.mem_cons_self⟩

theorem marks_finishBody : self.Marks self.finishBody :=
  ⟨self.active, _, .inl rfl, List.mem_append_right _ List.mem_cons_self⟩

theorem getLast?_opening (timed : self.isTimed) :
    self.opening.getLast? = some (self.elapsed.write (.num 0)) := by
  simp [opening, timed]

theorem getLast?_advanceBody :
    self.advanceBody.getLast? = some (self.elapsed.write (self.elapsed.read + .num 1)) := by
  simp [advanceBody]

theorem getLast?_finishBody :
    self.finishBody.getLast? = some (self.active.write (.num 0)) := by
  simp [finishBody]

theorem opening_ne_advanceBody (timed : self.isTimed) : self.opening ≠ self.advanceBody := by
  intro same
  have last := congrArg List.getLast? same
  rw [getLast?_opening timed, getLast?_advanceBody] at last
  cases last

theorem opening_ne_finishBody (timed : self.isTimed) : self.opening ≠ self.finishBody := by
  intro same
  have last := congrArg List.getLast? same
  rw [getLast?_opening timed, getLast?_finishBody] at last
  exact elapsed_ne_active _ _ (Option.some.inj last)

theorem advanceBody_ne_finishBody : self.advanceBody ≠ self.finishBody := by
  intro same
  have last := congrArg List.getLast? same
  rw [getLast?_advanceBody, getLast?_finishBody] at last
  exact elapsed_ne_active _ _ (Option.some.inj last)

theorem advance_of_timed (timed : self.isTimed) :
    self.advance = [.onlyIf self.active.read.isSet self.advanceBody] := by
  rw [advance, if_pos timed, advanceBody]

theorem finish_of_timed (timed : self.isTimed) :
    self.finish = [.onlyIf (self.active.read.isSet.and
      (self.elapsed.read.ge (.num (Scalar.ofNat self.ticks)))) self.finishBody] := by
  rw [finish, if_pos timed, finishBody]

/-! ### Stretches of a run -/

variable (self) in
/-- Flag and count of the action on a target. -/
def status (world : World α) (target : String) : α × α :=
  (world.read target self.active.key, world.read target self.elapsed.key)

/-- How often a target opens, advances and finishes the action in a stretch of a run. -/
structure Tally (action : Instance α) (target : String) (trace : List (Event α))
    (openings advances finishes : Nat) : Prop where
  openings : Trace.entries target action.opening trace = openings
  advances : Trace.entries target action.advanceBody trace = advances
  finishes : Trace.entries target action.finishBody trace = finishes

namespace Tally

variable {target : String} {trace : List (Event α)}

theorem of_entries (timed : self.isTimed)
    (none : ∀ block, self.Marks block → Trace.entries target block trace = 0) :
    self.Tally target trace 0 0 0 :=
  ⟨none _ (marks_opening timed), none _ marks_advanceBody, none _ marks_finishBody⟩

theorem append {later : List (Event α)}
    {openings advances finishes openings' advances' finishes' : Nat}
    (first : self.Tally target trace openings advances finishes)
    (second : self.Tally target later openings' advances' finishes') :
    self.Tally target (trace ++ later) (openings + openings') (advances + advances')
      (finishes + finishes') where
  openings := by rw [Trace.entries_append, first.openings, second.openings]
  advances := by rw [Trace.entries_append, first.advances, second.advances]
  finishes := by rw [Trace.entries_append, first.finishes, second.finishes]

theorem nil : self.Tally target [] 0 0 0 :=
  ⟨Trace.entries_nil, Trace.entries_nil, Trace.entries_nil⟩

variable {openings advances finishes : Nat}

/-- Blocks on other objects, and blocks that are none of the action's, do not count. -/
theorem entered_other (timed : self.isTimed)
    (tally : self.Tally target trace openings advances finishes) {object : String}
    {block : Block α} (other : object ≠ target ∨ ¬self.Marks block) (world : World α) :
    self.Tally target (.entered object block world :: trace) openings advances finishes := by
  have different {body : Block α} (marks : self.Marks body) :
      ¬(object = target ∧ block = body) := by
    rintro ⟨rfl, rfl⟩
    exact other.elim (fun apart => apart rfl) fun unmarked => unmarked marks
  constructor
  · rw [Trace.entries_cons_other (different (marks_opening timed)), tally.openings]
  · rw [Trace.entries_cons_other (different marks_advanceBody), tally.advances]
  · rw [Trace.entries_cons_other (different marks_finishBody), tally.finishes]

theorem opened (timed : self.isTimed) (tally : self.Tally target trace openings advances finishes)
    (world : World α) :
    self.Tally target (.entered target self.opening world :: trace) (openings + 1) advances
      finishes := by
  refine ⟨?_, ?_, ?_⟩
  · rw [Trace.entries_cons_self, tally.openings]
  · rw [Trace.entries_cons_other (fun same => opening_ne_advanceBody timed same.2), tally.advances]
  · rw [Trace.entries_cons_other (fun same => opening_ne_finishBody timed same.2), tally.finishes]

theorem advanced (timed : self.isTimed)
    (tally : self.Tally target trace openings advances finishes) (world : World α) :
    self.Tally target (.entered target self.advanceBody world :: trace) openings (advances + 1)
      finishes := by
  refine ⟨?_, ?_, ?_⟩
  · rw [Trace.entries_cons_other (fun same => opening_ne_advanceBody timed same.2.symm),
      tally.openings]
  · rw [Trace.entries_cons_self, tally.advances]
  · rw [Trace.entries_cons_other (fun same => advanceBody_ne_finishBody same.2), tally.finishes]

theorem finished (timed : self.isTimed)
    (tally : self.Tally target trace openings advances finishes) (world : World α) :
    self.Tally target (.entered target self.finishBody world :: trace) openings advances
      (finishes + 1) := by
  refine ⟨?_, ?_, ?_⟩
  · rw [Trace.entries_cons_other (fun same => opening_ne_finishBody timed same.2.symm),
      tally.openings]
  · rw [Trace.entries_cons_other (fun same => advanceBody_ne_finishBody same.2.symm),
      tally.advances]
  · rw [Trace.entries_cons_self, tally.finishes]

end Tally

/-! ### Blocks that spare the action -/

/-- No block of the action is entered where its flag and its count are not written. -/
theorem entries_of_writesOnly {whole : Block α} (spared : Block.WritesOnly self.Spared this whole)
    {object : String} {block : Block α} (marks : self.Marks block) (locals : Locals α)
    (world : World α) : Trace.entries object block (Block.traceAll this locals world whole) = 0 := by
  obtain ⟨slot, kept, touched⟩ := marks.mem_writes object
  exact Trace.entries_eq_zero_of_notMem (spared.notMem (not_spared kept object)) touched locals world

theorem tally_of_writesOnly (timed : self.isTimed) {whole : Block α}
    (spared : Block.WritesOnly self.Spared this whole) (target : String) (locals : Locals α)
    (world : World α) : self.Tally target (Block.traceAll this locals world whole) 0 0 0 :=
  .of_entries timed fun _ marks => entries_of_writesOnly spared marks locals world

theorem status_of_writesOnly {whole : Block α} (spared : Block.WritesOnly self.Spared this whole)
    (target : String) (locals : Locals α) (world : World α) :
    self.status (Block.runAll this locals world whole) target = self.status world target := by
  rw [status, spared.read_runAll (not_spared (.inl rfl) target),
    spared.read_runAll (not_spared (.inr rfl) target), status]

/-- Before the action writes its flag and its count, its phases spare them. -/
theorem spared_phase (phase : Phase) :
    Block.WritesOnly self.Spared this (self.phases.get phase) :=
  (self.effect.writesOnly_phases self.timing phase).mono fun _ _ reached =>
    ⟨fun same => Effect.not_reaches_active _ _ (same ▸ reached.2),
      fun same => Effect.not_reaches_elapsed _ _ (same ▸ reached.2)⟩

/-! ### Dispatches -/

section

variable (timed : self.isTimed)

include timed

/-- A block of the action, which ends in writes, enters no block of the action inside. -/
theorem tally_body (phase : Phase) {writes : Block α}
    (plain : ∀ stmt ∈ writes, ∃ slot value, stmt = Slot.write slot value)
    (target object : String) (locals : Locals α) (world : World α) :
    self.Tally target (Block.traceAll object locals world (self.phases.get phase ++ writes))
      0 0 0 := by
  refine .of_entries timed fun block marks => ?_
  have spared : Block.WritesOnly self.Spared object (self.phases.get phase) := spared_phase phase
  have inside : Trace.entries target block
      (Block.traceAll object locals world (self.phases.get phase)) = 0 :=
    entries_of_writesOnly spared marks locals world
  rw [Block.traceAll_append, Trace.entries_append, inside, Nat.zero_add]
  exact Trace.entries_of_writes plain _ _

theorem tally_opening (target object : String) (locals : Locals α) (world : World α) :
    self.Tally target (Block.traceAll object locals world self.opening) 0 0 0 := by
  rw [opening, if_pos timed]
  exact tally_body timed .enter (by simp) target object locals world

theorem tally_advanceBody (target object : String) (locals : Locals α) (world : World α) :
    self.Tally target (Block.traceAll object locals world self.advanceBody) 0 0 0 :=
  tally_body timed .advance (by simp) target object locals world

theorem tally_finishBody (target object : String) (locals : Locals α) (world : World α) :
    self.Tally target (Block.traceAll object locals world self.finishBody) 0 0 0 :=
  tally_body timed .exit (by simp) target object locals world

/-- Opening the action on a hosted object sets its flag and clears its count. -/
theorem status_opening {object : String} {world : World α} (hosted : world.hosts object)
    (locals : Locals α) :
    self.status (Block.runAll object locals world self.opening) object = (1, 0) := by
  rw [opening, Block.runAll_append, if_pos timed]
  simp [status, active, elapsed, hosted, World.read_write, Value.number]

end

theorem status_advanceBody {target : String} {world : World α} (hosted : world.hosts target)
    (locals : Locals α) :
    self.status (Block.runAll target locals world self.advanceBody) target =
      ((self.status world target).1, (self.status world target).2 + 1) := by
  have spared : Block.WritesOnly self.Spared target self.phases.advance := spared_phase .advance
  have kept := status_of_writesOnly spared target locals world
  rw [advanceBody, Block.runAll_append, ← kept]
  simp [status, active, elapsed, hosted, World.read_write, Expr.eval_add, Value.number]

theorem status_finishBody {target : String} {world : World α} (hosted : world.hosts target)
    (locals : Locals α) :
    self.status (Block.runAll target locals world self.finishBody) target =
      (0, (self.status world target).2) := by
  have spared : Block.WritesOnly self.Spared target self.phases.exit := spared_phase .exit
  have kept := status_of_writesOnly spared target locals world
  rw [finishBody, Block.runAll_append, ← kept]
  simp [status, active, elapsed, hosted, World.read_write, Value.number]

theorem status_opening_other {object target : String} (different : target ≠ object)
    (world : World α) (locals : Locals α) :
    self.status (Block.runAll object locals world self.opening) target = self.status world target := by
  have spared (slot : Slot) : ¬self.ScopeOn object target slot := fun inside => different inside.1
  rw [status, writesOnly_opening.read_runAll (spared _), writesOnly_opening.read_runAll (spared _),
    status]

/-- A dispatch opens the action once on each target. -/
theorem dispatched (timed : self.isTimed) (targets : List String) (once : targets.Nodup)
    (this target : String) (locals : Locals α) (world : World α)
    (hosted : ∀ object ∈ targets, world.hosts object) :
    let dispatch : Block α := targets.map fun object => .within object self.opening
    self.Tally target (Block.traceAll this locals world dispatch)
        (if target ∈ targets then 1 else 0) 0 0 ∧
      self.status (Block.runAll this locals world dispatch) target =
        if target ∈ targets then (1, 0) else self.status world target := by
  induction targets generalizing world with
  | nil => exact ⟨by simpa using Tally.nil, by simp⟩
  | cons object rest inductionHypothesis =>
    obtain ⟨notAgain, onceRest⟩ := List.nodup_cons.mp once
    obtain ⟨hostedHere, hostedRest⟩ := List.forall_mem_cons.mp hosted
    have opening := tally_opening timed target object locals world
    obtain ⟨tally, status⟩ := inductionHypothesis onceRest
      (Block.runAll object locals world self.opening) (by simpa using hostedRest)
    dsimp only
    rw [List.map_cons, Block.traceAll_cons, Block.runAll_cons, Stmt.run, Stmt.trace,
      List.cons_append]
    by_cases here : object = target
    · subst here
      rw [if_neg notAgain] at tally status
      rw [if_pos List.mem_cons_self, if_pos List.mem_cons_self]
      exact ⟨(opening.append tally).opened timed world,
        status.trans (status_opening timed hostedHere locals)⟩
    · rw [status_opening_other (Ne.symm here)] at status
      have listed : target ∈ object :: rest ↔ target ∈ rest := by
        simp [Ne.symm here]
      simp only [listed]
      exact ⟨(Nat.zero_add _ ▸ opening.append tally).entered_other timed (.inl here) world, status⟩

/-! ### Stretches that only dispatch -/

/-- A stretch of a run that opens the action so many times on every target. -/
structure Stretch (action : Instance α) (before : World α) (trace : List (Event α))
    (after : World α) (count : Nat) : Prop where
  hosts : after.hosts = before.hosts
  tally : ∀ target ∈ action.targets, action.Tally target trace count 0 0
  status : ∀ target ∈ action.targets,
    action.status after target = if count = 0 then action.status before target else (1, 0)

namespace Stretch

variable {before between after : World α} {trace later : List (Event α)} {count count' : Nat}

theorem refl (world : World α) : self.Stretch world [] world 0 :=
  ⟨rfl, fun _ _ => .nil, fun _ _ => rfl⟩

theorem trans (first : self.Stretch before trace between count)
    (second : self.Stretch between later after count') :
    self.Stretch before (trace ++ later) after (count + count') where
  hosts := second.hosts.trans first.hosts
  tally target member := (first.tally target member).append (second.tally target member)
  status target member := by
    rw [second.status target member, first.status target member]
    by_cases none : count' = 0
    · simp [none]
    · simp [none]

theorem of_writesOnly (timed : self.isTimed) {whole : Block α}
    (spared : Block.WritesOnly self.Spared this whole) (locals : Locals α) (world : World α) :
    self.Stretch world (Block.traceAll this locals world whole)
      (Block.runAll this locals world whole) 0 where
  hosts := Block.hosts_runAll _ _ _ _
  tally target _ := tally_of_writesOnly timed spared target locals world
  status target _ := status_of_writesOnly spared target locals world

theorem entered (timed : self.isTimed) (stretch : self.Stretch before trace after count)
    {object : String} {block : Block α} (unmarked : ¬self.Marks block) (world : World α) :
    self.Stretch before (.entered object block world :: trace) after count where
  hosts := stretch.hosts
  tally target member := (stretch.tally target member).entered_other timed (.inr unmarked) world
  status := stretch.status

theorem of_dispatch (timed : self.isTimed) (once : self.targets.Nodup) (this : String)
    (locals : Locals α) {world : World α} (hosted : ∀ target ∈ self.targets, world.hosts target) :
    self.Stretch world (Block.traceAll this locals world self.dispatch)
      (Block.runAll this locals world self.dispatch) 1 where
  hosts := Block.hosts_runAll _ _ _ _
  tally target member := by
    have opened := (dispatched timed self.targets once this target locals world hosted).1
    rwa [if_pos member] at opened
  status target member := by
    have begun := (dispatched timed self.targets once this target locals world hosted).2
    rwa [if_pos member] at begun

end Stretch

/-- Running a block that only dispatches the action opens it equally often on all targets. -/
theorem OnlyDispatched.exists_stretch (timed : self.isTimed) (once : self.targets.Nodup)
    {block : Block α} (only : self.OnlyDispatched this block) (locals : Locals α)
    (world : World α) (hosted : ∀ target ∈ self.targets, world.hosts target) :
    ∃ count, self.Stretch world (Block.traceAll this locals world block)
      (Block.runAll this locals world block) count := by
  induction only generalizing locals world with
  | nil => exact ⟨0, by simpa using Stretch.refl world⟩
  | spared stmt rest spared _ inductionHypothesis =>
    have here := Stretch.of_writesOnly timed spared locals world
    rw [Block.traceAll_cons, Block.traceAll_nil, List.append_nil, Block.runAll_cons,
      Block.runAll_nil] at here
    obtain ⟨count, later⟩ := inductionHypothesis (stmt.run this locals world).1
      (stmt.run this locals world).2 (by simpa using hosted)
    rw [Block.traceAll_cons, Block.runAll_cons]
    exact ⟨_, here.trans later⟩
  | branch condition yes no rest inYes inNo _ fromYes fromNo inductionHypothesis =>
    rw [Block.traceAll_cons, Block.runAll_cons, Stmt.trace, Stmt.run]
    split
    · obtain ⟨count, here⟩ := fromYes locals world hosted
      obtain ⟨count', later⟩ := inductionHypothesis locals _ (by rwa [here.hosts])
      exact ⟨_, (here.entered timed inYes.not_marks world).trans later⟩
    · obtain ⟨count, here⟩ := fromNo locals world hosted
      obtain ⟨count', later⟩ := inductionHypothesis locals _ (by rwa [here.hosts])
      exact ⟨_, (here.entered timed inNo.not_marks world).trans later⟩
  | dispatch rest _ inductionHypothesis =>
    have here := Stretch.of_dispatch timed once this locals hosted
    obtain ⟨count, later⟩ := inductionHypothesis (Block.thread this locals world self.dispatch).1
      (Block.runAll this locals world self.dispatch) (by simpa using hosted)
    rw [Block.traceAll_append, Block.runAll_append]
    exact ⟨_, here.trans later⟩

end

end Instance

end Stagecraft
