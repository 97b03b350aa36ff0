/-
This file relates the commands for a sound to the flag of the sound. Only the effects for sounds call
the host. They play a sound where its flag is down, and stop it whatever the flag is; both put the
flag in order right after the call. So the flag always tells the last command, and no sound is played
twice without being stopped in between.
-/

import Stagecraft.Proofs.Action.Dispatching
import Stagecraft.Proofs.Logic.Calls
import Stagecraft.Proofs.Logic.Invariants
import Stagecraft.Proofs.Scalar.Counting

namespace Stagecraft

variable {α : Type}

/-! ### Effects without calls -/

@[simp] theorem Quaternion.calls_writeOrientation (value : Quaternion (Expr α)) :
    Block.calls value.writeOrientation = [] := by
  simp [writeOrientation]

namespace Effect

/-- An effect makes calls only if it is there for a sound. -/
def IsSilent : Effect α → Prop
  | .sound .. => False
  | _ => True

section

variable [Scalar α]

@[simp] theorem calls_changeTimeline (name : String) (change : TimelineChange) :
    Block.calls (changeTimeline name change : Block α) = [] := by
  cases change <;> simp [changeTimeline, rewind]

@[simp] theorem calls_capture : Block.calls (capture : Block α) = [] := by
  simp [capture]

@[simp] theorem calls_captureOnce : (captureOnce : Stmt α).calls = [] := by
  simp [captureOnce]

end

variable [Trigonometric α]

theorem calls_setup (effect : Effect α) : Block.calls effect.setup = [] := by
  cases effect <;> simp [setup]

variable {effect : Effect α} (silent : effect.IsSilent)

include silent

theorem calls_now : Block.calls effect.now = [] := by
  cases effect with
  | fade visible => simp [now, showNow]
  | move motion =>
    rcases motion with ⟨_ | _ | _, _ | _ | _⟩ <;> simp [now, moveNow, shiftNow, turnNow, turnPresent]
  | sound name volume => cases silent
  | timeline name change => exact calls_changeTimeline name change
  | restore => simp [now, restoreNow, settleRestore]
  | toggle name enabled => simp [now, toggleTrigger]

theorem calls_start (number : Nat) (steps : α) : Block.calls (effect.start number steps) = [] := by
  cases effect with
  | fade visible => simp [start, beginFade]
  | move motion =>
    rcases motion with ⟨_ | _ | _, _ | _ | _⟩ <;> simp [start, beginMotion, beginShift, beginTurn]
  | sound name volume => cases silent
  | timeline name change => exact calls_changeTimeline name change
  | restore => simp [start, beginRestore]
  | toggle name enabled => simp [start, toggleTrigger]

theorem calls_settle (number : Nat) : Block.calls (effect.settle number) = [] := by
  cases effect with
  | fade visible => simp [settle, showNow]
  | move motion =>
    rcases motion with ⟨_ | _ | _, _ | _ | _⟩ <;> simp [settle, settleMotion, settleShift, settleTurn]
  | sound name volume => cases silent
  | restore => simp [settle, settleRestore]
  | _ => exact Block.calls_nil

omit silent in
/-- No call is made while an effect goes on. -/
theorem calls_advance (effect : Effect α) (number : Nat) (steps : α) :
    Block.calls (effect.advance number steps) = [] := by
  cases effect with
  | fade visible => simp [advance, advanceFade]
  | move motion =>
    rcases motion with ⟨_ | _ | _, _ | _ | _⟩ <;>
      simp [advance, advanceMotion, advanceShift, advanceTurn, turnPresent]
  | sound name volume => simp [advance, advanceSound]
  | restore => simp [advance, advanceRestore]
  | _ => exact Block.calls_nil

theorem calls_phases (number : Nat) (timing : Timing α) (phase : Phase) :
    Block.calls ((effect.phases number timing).get phase) = [] := by
  rw [phases]
  cases phase with
  | enter =>
    split
    · exact calls_now silent
    · exact calls_start silent number timing.steps
  | advance =>
    split
    · exact Block.calls_nil
    · exact effect.calls_advance number timing.steps
  | exit =>
    split
    · exact Block.calls_nil
    · exact calls_settle silent number

end Effect


/-! ### Commands -/

namespace HostCall

/-- The commands for one sound of an object among some calls, in order. -/
def commands (object name : String) (calls : List (String × HostCall)) : List HostCall :=
  (calls.filter fun made =>
    made.1 = object ∧ (made.2 = .playSound name ∨ made.2 = .stopSound name)).map (·.2)

variable {object name : String}

@[simp] theorem commands_nil : commands object name [] = [] := rfl

@[simp] theorem commands_append (first second : List (String × HostCall)) :
    commands object name (first ++ second) =
      commands object name first ++ commands object name second := by
  simp [commands]

theorem commands_play : commands object name [(object, .playSound name)] = [.playSound name] := by
  simp [commands]

theorem commands_stop : commands object name [(object, .stopSound name)] = [.stopSound name] := by
  simp [commands]

/-- A command for another sound, or on another object, is none for this one. -/
theorem commands_other {this other : String} (different : ¬(this = object ∧ other = name))
    {call : HostCall} (isFor : call = .playSound other ∨ call = .stopSound other) :
    commands object name [(this, call)] = [] := by
  rcases isFor with rfl | rfl <;> simp_all [commands]

/-- No two commands in a row play the sound. -/
def Alternate (name : String) : List HostCall → Prop :=
  List.IsChain fun first second => ¬(first = .playSound name ∧ second = .playSound name)

theorem alternate_append_stop {made : List HostCall} (held : Alternate name made) :
    Alternate name (made ++ [.stopSound name]) := by
  refine List.isChain_append.mpr ⟨held, List.isChain_singleton _, fun last _ next isNext both => ?_⟩
  cases Option.mem_some_iff.mp isNext
  cases both.2

theorem alternate_append_play {made : List HostCall} (held : Alternate name made)
    (silent : made.getLast? ≠ some (.playSound name)) :
    Alternate name (made ++ [.playSound name]) := by
  refine List.isChain_append.mpr ⟨held, List.isChain_singleton _, fun last isLast _ _ both => ?_⟩
  exact silent (both.1 ▸ isLast)

/-- Between two commands that play a sound there is one that stops it. -/
theorem stop_of_alternate {calls before between after : List (String × HostCall)}
    (held : Alternate name (commands object name calls))
    (split : calls = before ++ (object, .playSound name) :: (between ++ (object, .playSound name) :: after)) :
    (object, .stopSound name) ∈ between := by
  by_contra absent
  have plays : ∀ command ∈ commands object name between, command = .playSound name := by
    intro command member
    obtain ⟨⟨this, made⟩, inBetween, rfl⟩ := List.mem_map.mp member
    obtain ⟨isBetween, isFor⟩ := List.mem_filter.mp inBetween
    obtain ⟨rfl, same⟩ := of_decide_eq_true isFor
    exact same.resolve_right fun stops => absent (stops ▸ isBetween)
  have whole : commands object name calls = commands object name before ++
      .playSound name :: (commands object name between ++
        .playSound name :: commands object name after) := by
    rw [split]
    simp [commands]
  rw [Alternate, whole] at held
  have chain := (List.isChain_append.mp held).2.1
  cases found : commands object name between with
  | nil =>
    rw [found, List.nil_append, List.isChain_cons_cons] at chain
    exact chain.1 ⟨rfl, rfl⟩
  | cons next rest =>
    rw [found, List.cons_append, List.isChain_cons_cons] at chain
    exact chain.1 ⟨rfl, plays next (found ▸ List.mem_cons_self)⟩

end HostCall

/-! ### The flag -/

/-- The flag of the sound tells the last command, and commands that play the sound alternate with
others. The commands are those of the past and those of the present frame. -/
structure World.Heeds [Scalar α] (hosts : String → Bool) (past : List (String × HostCall))
    (object name : String) (world : World α) : Prop where
  hosts : world.hosts = hosts
  flag : world.read object (Slot.sound name .playing).key =
    if (HostCall.commands object name (past ++ world.calls)).getLast? = some (.playSound name)
    then 1 else 0
  alternate : HostCall.Alternate name (HostCall.commands object name (past ++ world.calls))

/-- Any slot but the flag of the sound. -/
def Slot.IsBeside (object name : String) (this : String) (slot : Slot) : Prop :=
  ¬(this = object ∧ slot = .sound name .playing)

variable {hosts : String → Bool} {past : List (String × HostCall)} {object name : String}

/-- Calls that are no commands for the sound change nothing, and neither do writes beside its
flag. -/
theorem World.Heeds.beside [Scalar α] {world world' : World α}
    (held : world.Heeds hosts past object name) (sameHosts : world'.hosts = world.hosts)
    (sameFlag : world'.read object (Slot.sound name .playing).key =
      world.read object (Slot.sound name .playing).key)
    (made : List (String × HostCall)) (calls : world'.calls = world.calls ++ made)
    (others : HostCall.commands object name made = []) :
    world'.Heeds hosts past object name := by
  have commands : HostCall.commands object name (past ++ world'.calls) =
      HostCall.commands object name (past ++ world.calls) := by
    simp [calls, others]
  exact ⟨sameHosts.trans held.hosts, by rw [sameFlag, held.flag, commands],
    commands ▸ held.alternate⟩

namespace World.Heeds

variable [Scalar α] {world : World α} (held : world.Heeds hosts past object name)
  {this other : String}

include held

/-- A command for another sound, and what is noted for it. -/
theorem apart (different : ¬(this = object ∧ other = name)) {call : HostCall}
    (isFor : call = .playSound other ∨ call = .stopSound other) (value : α) :
    ((world.call this call).write this (Slot.sound other .playing).key value).Heeds
      hosts past object name := by
  have otherKey : ¬(this = object ∧
      (Slot.sound other .playing).key = (Slot.sound name .playing).key) := fun same =>
    different ⟨same.1, (Slot.sound.inj (Slot.key_injective same.2)).1⟩
  refine held.beside (by simp) ?_ [(this, call)] (by simp) (HostCall.commands_other different isFor)
  rw [read_write, if_neg fun same => otherKey same.2, read_call]

/-- A sound that is played where its flag is down was not played last. -/
theorem play [Counting α] (hosted : hosts this)
    (isDown : (world.read this (Slot.sound other .playing).key == 0) = true) :
    ((world.call this (.playSound other)).write this (Slot.sound other .playing).key 1).Heeds
      hosts past object name := by
  by_cases same : this = object ∧ other = name
  · obtain ⟨rfl, rfl⟩ := same
    have silent : (HostCall.commands this other (past ++ world.calls)).getLast? ≠
        some (.playSound other) := by
      intro plays
      rw [held.flag, if_pos plays, Counting.one_beq_zero] at isDown
      cases isDown
    refine ⟨by simp [held.hosts], ?_, ?_⟩
    · rw [read_write, if_pos ⟨by simpa [held.hosts] using hosted, rfl, rfl⟩]
      simp [HostCall.commands_play]
    · rw [calls_write, calls_call, ← List.append_assoc, HostCall.commands_append,
        HostCall.commands_play]
      exact HostCall.alternate_append_play held.alternate silent
  · exact held.apart same (.inl rfl) 1

theorem stop (hosted : hosts this) :
    ((world.call this (.stopSound other)).write this (Slot.sound other .playing).key 0).Heeds
      hosts past object name := by
  by_cases same : this = object ∧ other = name
  · obtain ⟨rfl, rfl⟩ := same
    refine ⟨by simp [held.hosts], ?_, ?_⟩
    · rw [read_write, if_pos ⟨by simpa [held.hosts] using hosted, rfl, rfl⟩]
      simp [HostCall.commands_stop]
    · rw [calls_write, calls_call, ← List.append_assoc, HostCall.commands_append,
        HostCall.commands_stop]
      exact HostCall.alternate_append_stop held.alternate
  · exact held.apart same (.inr rfl) 0

end World.Heeds

section

variable [Trigonometric α] {this : String}

/-- A block that makes no calls, and writes only beside the flag. -/
theorem Block.keeps_of_silent {block : Block α}
    (bounded : WritesOnly (Slot.IsBeside object name) this block) (silent : calls block = []) :
    Keeps (World.Heeds hosts past object name) this block where
  after locals world held := by
    refine held.beside (hosts_runAll _ _ _ _) ?_ [] ?_ HostCall.commands_nil
    · exact bounded.read_runAll (not_not_intro ⟨rfl, rfl⟩) locals world
    · rw [calls_runAll _ _ _ _ silent, List.append_nil]
  inside locals world held inner entered found happens := by
    refine held.beside (hosts_of_entered block happens) ?_ [] ?_ HostCall.commands_nil
    · exact read_of_entered block (bounded.notMem (not_not_intro ⟨rfl, rfl⟩)) happens
    · rw [calls_of_entered block silent happens, List.append_nil]

/-! ### Effects for sounds -/

namespace Effect

theorem keeps_stopPlaying (hosted : hosts this) (other : String) :
    Block.Keeps (World.Heeds hosts past object name) this (stopPlaying other : Block α) where
  after locals world held := by
    rw [stopPlaying, Block.runAll_cons, Block.runAll_cons, Block.runAll_nil, Stmt.run,
      Slot.run_write]
    simpa [Value.number] using held.stop hosted
  inside := by simp [stopPlaying, Block.traceAll_cons, Stmt.trace]

theorem keeps_startPlaying [Counting α] (hosted : hosts this) (other : String) :
    Block.Keeps (World.Heeds hosts past object name) this [(startPlaying other : Stmt α)] where
  after locals world held := by
    rw [startPlaying, Block.runAll_cons, Block.runAll_nil, Stmt.run_onlyIf,
      Expr.isTruthy_equals_read]
    split
    · rename_i isDown
      rw [Block.runAll_cons, Block.runAll_cons, Block.runAll_nil, Stmt.run, Slot.run_write]
      simpa [Value.number] using held.play hosted isDown
    · exact held
  inside locals world held inner entered found happens := by
    rw [startPlaying, Block.traceAll_cons, Block.traceAll_nil, Stmt.trace_onlyIf] at happens
    have same : found = world := by
      split at happens
      · exact (Event.entered.inj (by simpa [Block.traceAll_cons, Stmt.trace] using happens)).2.2
      · exact (Event.entered.inj (by simpa using happens)).2.2
    exact same ▸ held

theorem keeps_prepareSound [Counting α] (hosted : hosts this) (other : String) (volume : Option α) :
    Block.Keeps (World.Heeds hosts past object name) this (prepareSound other volume) := by
  rw [prepareSound]
  split
  · exact keeps_startPlaying hosted other
  · exact Block.keeps_nil

theorem keeps_settleSound (hosted : hosts this) (other : String) (volume : Option α) :
    Block.Keeps (World.Heeds hosts past object name) this (settleSound other volume) := by
  rw [settleSound]
  refine Block.keeps_cons (Block.keeps_of_silent ?_ (by simp)) ?_
  · rw [Block.writesOnly_write]
    rintro ⟨-, same⟩
    cases same
  · split
    · exact keeps_stopPlaying hosted other
    · exact Block.keeps_nil

/-- What an effect that is there for a sound notes or changes in its midst. -/
theorem keeps_note (slot : Slot) (beside : ∀ other, slot ≠ .sound other .playing) (value : Expr α) :
    Block.Keeps (World.Heeds hosts past object name) this [slot.write value] :=
  Block.keeps_of_silent (Block.writesOnly_write.mpr fun same => beside name same.2) (by simp)

omit [Trigonometric α] in
theorem not_reaches_playing {effect : Effect α} (silent : effect.IsSilent) (number : Nat)
    (name : String) : ¬effect.Reaches number (.sound name .playing) := by
  rintro (drives | ⟨field, -, -, same⟩)
  · cases effect <;> simp_all [Drives, IsSilent, Slot.visible, Slot.alpha, Slot.position,
      Slot.orientation]
  · cases same

/-- Every block of an effect keeps the flags of sounds in order. -/
theorem keeps_phases [Counting α] (hosted : hosts this) (effect : Effect α) (number : Nat)
    (timing : Timing α) (phase : Phase) :
    Block.Keeps (World.Heeds hosts past object name) this
      ((effect.phases number timing).get phase) := by
  by_cases silent : effect.IsSilent
  · refine Block.keeps_of_silent ?_ (calls_phases silent number timing phase)
    exact (effect.writesOnly_phases timing phase).mono fun _ slot reached same =>
      not_reaches_playing silent number name (same.2 ▸ reached.2)
  · cases effect with
    | sound other volume =>
      rw [phases]
      cases phase with
      | enter =>
        split
        · exact Block.keeps_append (keeps_prepareSound hosted other volume)
            (keeps_settleSound hosted other volume)
        · exact Block.keeps_append (keeps_prepareSound hosted other volume)
            (keeps_note _ (by simp) _)
      | advance =>
        split
        · exact Block.keeps_nil
        · exact keeps_note _ (by simp) _
      | exit =>
        split
        · exact Block.keeps_nil
        · exact keeps_settleSound hosted other volume
    | _ => exact absurd trivial silent

end Effect

end

/-! ### Actions -/

namespace Instance

variable [Trigonometric α] [Counting α] (self : Instance α) {target : String}
  (hosted : hosts target)

include hosted

theorem heeds_opening :
    Block.Keeps (World.Heeds hosts past object name) target self.opening := by
  refine Block.keeps_append (self.effect.keeps_phases hosted self.number self.timing .enter) ?_
  split
  · exact Block.keeps_cons (Effect.keeps_note _ (by simp [active]) _)
      (Effect.keeps_note _ (by simp [elapsed]) _)
  · exact Block.keeps_nil

theorem heeds_advance :
    Block.Keeps (World.Heeds hosts past object name) target self.advance := by
  rw [advance]
  split
  · exact Block.keeps_branch (Block.keeps_append
      (self.effect.keeps_phases hosted self.number self.timing .advance)
      (Effect.keeps_note _ (by simp [elapsed]) _)) Block.keeps_nil
  · exact Block.keeps_nil

theorem heeds_finish :
    Block.Keeps (World.Heeds hosts past object name) target self.finish := by
  rw [finish]
  split
  · exact Block.keeps_branch (Block.keeps_append
      (self.effect.keeps_phases hosted self.number self.timing .exit)
      (Effect.keeps_note _ (by simp [active]) _)) Block.keeps_nil
  · exact Block.keeps_nil

end Instance

end Stagecraft
