/-
This file shows that an action leaves the same behind whether it takes time or happens at once. What
it does on its way only touches slots that it settles in the end, and no notes, so that nothing adds
up however often it is advanced. Its calls are made at the beginning and at the end.
-/

import Stagecraft.Proofs.Effect.Arrival
import Stagecraft.Proofs.Effect.Playback
import Stagecraft.Proofs.Program.Contracts

namespace Stagecraft

variable {α : Type} [Trigonometric α]

/-! ### Courses -/

namespace Phases

/-- An action has begun on an object and was advanced some number of times, and made these calls
there. Other objects may have changed in between, and other calls may have been made. -/
inductive Course (phases : Phases α) (this : String) (start : World α) :
    Nat → World α → List (String × HostCall) → Prop
  | entered : Course phases this start 0 (phases.enter.run this start)
      (phases.enter.madeBy this start)
  | advanced {times : Nat} {before between : World α} {made : List (String × HostCall)}
      (course : Course phases this start times before made)
      (untouched : between.AgreesOn this before) :
      Course phases this start (times + 1) (phases.advance.run this between)
        (made ++ phases.advance.madeBy this between)

/-- The same, and the action was brought to its end. -/
inductive Ends (phases : Phases α) (this : String) (start : World α) :
    Nat → World α → List (String × HostCall) → Prop
  | exited {times : Nat} {before between : World α} {made : List (String × HostCall)}
      (course : Course phases this start times before made)
      (untouched : between.AgreesOn this before) :
      Ends phases this start times (phases.exit.run this between)
        (made ++ phases.exit.madeBy this between)

end Phases

/-- The state of an action apart, an object is left with the same entries in both worlds, or with
the same but for the signs of its orientation. -/
def World.EndsAs (number : Nat) (this : String) (flipped : Bool) (ended atOnce : World α) : Prop :=
  ∀ key, (∀ field, key ≠ Slot.actionKey number field) →
    ended.entry this key = (atOnce.entry this key).map (Slot.flip flipped key)

/-- Where an entry differs, the signs have changed. -/
theorem World.EndsAs.flipped_of_ne {number : Nat} {this key : String} {flipped : Bool}
    {ended atOnce : World α} (same : ended.EndsAs number this flipped atOnce)
    (apart : ∀ field, key ≠ Slot.actionKey number field)
    (differs : ended.read this key ≠ atOnce.read this key) : flipped = true := by
  cases flipped with
  | true => rfl
  | false =>
    have unflipped := same key apart
    rw [Slot.map_flip_false] at unflipped
    exact absurd (congrArg (·.getD 0) unflipped) differs

namespace Effect

open Block

variable {this : String} {world : World α} {number : Nat} {steps : α}

/-! ### Calls -/

theorem calls_depart (effect : Effect α) : Block.calls (effect.depart number steps) = [] := by
  cases effect with
  | fade visible => simp [depart, beginFade]
  | move motion =>
    rcases motion with ⟨_ | _ | _, _ | _ | _⟩ <;> simp [depart, beginMotion, beginShift, beginTurn]
  | sound name volume => simp [depart]
  | restore => simp [depart, beginRestore]
  | _ => simp [depart]

/-- What an effect calls in the end it calls when it goes there at once. -/
theorem madeBy_settle (effect : Effect α) (world later : World α) :
    (effect.settle number).madeBy this later = effect.arrive.madeBy this world := by
  have silent (isSilent : effect.IsSilent) :
      (effect.settle number).madeBy this later = effect.arrive.madeBy this world := by
    have now := calls_now isSilent
    rw [now_eq, calls_append, List.append_eq_nil_iff] at now
    rw [madeBy_of_silent (calls_settle isSilent number), madeBy_of_silent now.2]
  cases effect with
  | sound name volume =>
    cases volume <;>
      simp [settle, arrive, settleSound, stopPlaying, madeBy, Block.run, Stmt.run]
  | _ => exact silent trivial

/-! ### Courses -/

/-- What comes first names no temporaries. -/
theorem locals_lead (effect : Effect α) : (thread this [] world effect.lead).1 = [] := by
  cases effect with
  | sound name volume => cases volume <;> simp [lead, prepareSound, startPlaying, Stmt.run_onlyIf]
  | timeline name change => cases change <;> simp [lead, changeTimeline, rewind, Stmt.run_onlyIf]
  | restore => simp [lead, captureOnce, Stmt.run_onlyIf]
  | _ => simp [lead, toggleTrigger]

variable {effect : Effect α} {timing : Timing α} (timed : timing.isInstant = false)
  {start : World α} {times : Nat} {made : List (String × HostCall)}

include timed

/-- On the way only slots change that are settled in the end, and no call is made. -/
theorem keepsBeyond_of_course {reached : World α}
    (course : (effect.phases number timing).Course this start times reached made) :
    World.KeepsBeyond effect.Settles this
        ((effect.depart number timing.steps).run this (effect.lead.run this start)) reached ∧
      made = effect.lead.madeBy this start := by
  have phases : effect.phases number timing =
      ⟨effect.start number timing.steps, effect.advance number timing.steps,
        effect.settle number⟩ := by
    rw [phases, timed]
    rfl
  rw [phases] at course
  induction course with
  | entered =>
    rw [start_eq, run_append (locals_lead effect), madeBy_append (locals_lead effect),
      madeBy_of_silent (calls_depart effect), List.append_nil]
    exact ⟨⟨rfl, fun _ _ => rfl⟩, rfl⟩
  | advanced _ untouched inductionHypothesis =>
    obtain ⟨kept, calls⟩ := inductionHypothesis
    have bounded : Block.WritesOnly (fun object slot => object = this ∧ effect.Settles slot) this
        (effect.advance number timing.steps) :=
      writesOnly_advance (fun _ settles => ⟨rfl, settles⟩) timing.steps
    refine ⟨(kept.trans (.of_agreesOn untouched)).trans (.of_writesOnly [] bounded), ?_⟩
    rw [calls, madeBy_of_silent (effect.calls_advance number timing.steps), List.append_nil]

omit timed in
/-- Beyond what it settles and its notes, an effect has done all that it does when it departs. -/
theorem entry_beyond {later : World α} {steps : α}
    (kept : World.KeepsBeyond effect.Settles this ((effect.depart number steps).run this world)
      later) {key : String} (notNote : ∀ field, key ≠ Slot.actionKey number field)
    (beyond : world.hosts this → ∀ slot, effect.Settles slot → key ≠ slot.key) :
    ((effect.settle number).run this later).entry this key =
      (effect.arrive.run this world).entry this key := by
  have hosts : ((effect.depart number steps).run this world).hosts this = world.hosts this := by
    rw [Block.run, hosts_runAll]
  have ended : World.KeepsBeyond effect.Settles this later
      (Block.runAll this [] later (effect.settle number)) :=
    .of_writesOnly [] (writesOnly_settle (fun _ settles => ⟨rfl, settles⟩) number)
  have arrived : World.KeepsBeyond effect.Settles this world
      (Block.runAll this [] world effect.arrive) :=
    .of_writesOnly [] (writesOnly_arrive fun _ settles => ⟨rfl, settles⟩)
  have departed : ((effect.depart number steps).run this world).entry this key =
      world.entry this key := by
    refine entry_runAll this [] world this key _ fun hosted named => ?_
    have bounded : Block.WritesOnly (fun _ slot => effect.Settles slot ∨ slot.IsNote number) this
        (effect.depart number steps) := writesOnly_depart (fun _ => .inl) fun _ => .inr
    obtain ⟨slot, same, inside | ⟨field, -, -, rfl⟩⟩ := bounded _ named
    · exact beyond hosted slot inside same
    · exact notNote field.key same
  rw [Block.run, Block.run, arrived.entry key beyond,
    ended.entry key (by rw [kept.hosts, hosts]; exact beyond),
    kept.entry key (by rw [hosts]; exact beyond), departed]

/-- An effect that takes time leaves its object as it is left at once. -/
theorem endsAs_of_ends [Signing α] {ended : World α}
    (ends : (effect.phases number timing).Ends this start times ended made) :
    (∃ flipped : Bool, (flipped = true → effect.IsAbsoluteTurn) ∧
        ended.EndsAs number this flipped (effect.now.run this start)) ∧
      made = effect.now.madeBy this start := by
  obtain ⟨course, untouched⟩ := ends
  obtain ⟨kept, calls⟩ := keepsBeyond_of_course timed course
  replace kept := kept.trans (.of_agreesOn untouched)
  have exit : (effect.phases number timing).exit = effect.settle number := by
    rw [phases, timed]
    rfl
  rw [exit, now_eq, run_append (locals_lead effect), madeBy_append (locals_lead effect), calls,
    madeBy_settle effect (effect.lead.run this start)]
  refine ⟨?_, rfl⟩
  by_cases hosted : (effect.lead.run this start).hosts this
  · obtain ⟨flipped, absolute, settled⟩ := exists_flip effect hosted kept
    refine ⟨flipped, absolute, fun key notNote => ?_⟩
    by_cases inside : ∃ slot, effect.Settles slot ∧ key = slot.key
    · obtain ⟨slot, settles, rfl⟩ := inside
      exact settled slot settles
    · rw [not_exists] at inside
      rw [entry_beyond kept notNote fun _ slot settles same => inside slot ⟨settles, same⟩]
      cases flipped with
      | false => rw [Slot.map_flip_false]
      | true =>
        -- An absolute turn settles the orientation, so this key is none of it.
        refine (Slot.map_flip_of_notMem true (fun member => ?_) _).symm
        obtain ⟨part, -, rfl⟩ := List.mem_map.mp member
        obtain ⟨shift, goal, rfl⟩ := IsAbsoluteTurn.exists_eq (absolute rfl)
        exact inside _ ⟨.inr ⟨trivial, part, rfl⟩, rfl⟩
  · refine ⟨false, by simp, fun key notNote => ?_⟩
    rw [entry_beyond kept notNote fun isHosted => absurd isHosted hosted, Slot.map_flip_false]

end Effect

/-! ### Actions -/

namespace Action

variable {directory : Directory α} {context : Context} {owner : String} {action : Action α}

/-- An action that may take time may as well happen at once. -/
theorem resolveKind_at_once {duration moment : α} (zero : (moment == 0) = true)
    {found : List String × Effect α}
    (resolved : action.resolveKind directory context owner duration = .ok found) :
    { action with duration := moment }.resolveKind directory context owner moment = .ok found := by
  obtain ⟨target, declared, kind⟩ := action
  have instant : requireInstant context moment = .ok () := if_pos zero
  cases kind with
  | timeline name change =>
    obtain ⟨_, forbidden, resolved⟩ := Outcome.bind_eq_ok.mp resolved
    obtain ⟨_, -, resolved⟩ := Outcome.bind_eq_ok.mp resolved
    exact Outcome.bind_eq_ok.mpr ⟨_, forbidden, Outcome.bind_eq_ok.mpr ⟨_, instant, resolved⟩⟩
  | triggerToggle name enabled =>
    obtain ⟨_, forbidden, resolved⟩ := Outcome.bind_eq_ok.mp resolved
    obtain ⟨_, -, resolved⟩ := Outcome.bind_eq_ok.mp resolved
    exact Outcome.bind_eq_ok.mpr ⟨_, forbidden, Outcome.bind_eq_ok.mpr ⟨_, instant, resolved⟩⟩
  | _ => exact resolved

end Action

/-- Declared without a duration, an action that takes time leaves the same behind at once: however
often it is advanced and whatever happens to other objects meanwhile, every entry of its target but
its own state ends the same, and the same calls are made. Only the orientation that an absolute turn
leaves may have all its signs changed. -/
theorem timed_ends_as_at_once [Measuring α] [Signing α] {directory : Directory α} {rate : α}
    {context : Context} {owner : String} {number : Nat} {action : Action α} {timed : Instance α}
    (resolved : action.resolve directory rate context owner number = .ok timed)
    (lasting : 0 < action.duration) (rate' moment : α) (magnitude : Scalar.isMagnitude moment)
    (zero : (moment == 0) = true) :
    ∃ instant : Instance α,
      { action with duration := moment }.resolve directory rate' context owner number =
          .ok instant ∧
        ∀ this start times ended made, timed.phases.Ends this start times ended made →
          (∃ flipped : Bool, (flipped = true → timed.effect.IsAbsoluteTurn) ∧
            ended.EndsAs number this flipped (instant.phases.enter.run this start)) ∧
          made = instant.phases.enter.madeBy this start := by
  obtain ⟨isMagnitude, targets, effect, kind, rfl⟩ := Action.resolve_eq_ok.mp resolved
  have takesTime : (action.duration == 0) = false := by
    rw [Bool.eq_false_iff]
    exact fun isZero => (Measuring.beq_zero_iff _ isMagnitude).mp isZero lasting
  refine ⟨⟨number, action.kind.label, targets, ⟨moment, rate'⟩, effect⟩, ?_, ?_⟩
  · exact Action.resolve_eq_ok.mpr
      ⟨magnitude, targets, effect, Action.resolveKind_at_once zero kind, rfl⟩
  · intro this start times ended made ends
    have enter : (effect.phases number ⟨moment, rate'⟩).enter = effect.now := by
      rw [Effect.phases, Timing.isInstant, zero]
      rfl
    rw [Instance.phases, enter]
    have notInstant : Timing.isInstant ⟨action.duration, rate⟩ = false := takesTime
    exact Effect.endsAs_of_ends notInstant ends

/-- A door that makes a quarter turn in two seconds. -/
def Action.swing : Action Float where
  target := none
  duration := 2
  kind := .move ⟨none, .center, .normal ⟨0, 0, -1⟩⟩ false

/-- The door stands as when it is not turned at all, but with all signs the other way. -/
def World.ajar : World Float :=
  World.blank.write "door" (Slot.orientation .w).key (-1)

/-- The door turns along the short arc, to the negated goal. -/
theorem timed_ends_as_at_once_swing :
    ∃ timed instant : Instance Float,
      Action.swing.resolve ⟨Scene.hall.walk, []⟩ 1 (.link "door") "door" 0 = .ok timed ∧
        (0 : Float) < Action.swing.duration ∧
        { Action.swing with duration := 0 }.resolve ⟨Scene.hall.walk, []⟩ 1 (.link "door") "door"
            0 = .ok instant ∧
        ∃ halfway ended begun made,
          timed.phases.Course "door" World.ajar 1 halfway begun ∧
          timed.phases.Ends "door" World.ajar 2 ended made ∧
          (let atOnce := instant.phases.enter.run "door" World.ajar
          ended.EndsAs 0 "door" true atOnce ∧
            [World.ajar, halfway, ended, atOnce].map
                (fun world => world.read "door" (Slot.orientation .w).key) =
              [-1, -0.8535533905932737, -0.7071067811865475, 0.7071067811865475]) := by
  have accepted : (Action.swing.resolve ⟨Scene.hall.walk, []⟩ 1 (.link "door") "door" 0).isOk := by
    decide +kernel
  have lasting : (0 : Float) < Action.swing.duration := by decide +kernel
  cases resolved : Action.swing.resolve ⟨Scene.hall.walk, []⟩ 1 (.link "door") "door" 0 with
  | error fault =>
    rw [resolved] at accepted
    cases accepted
  | ok timed =>
    obtain ⟨instant, atOnce, ends⟩ := timed_ends_as_at_once resolved lasting 1 0
      (by decide +kernel) (by decide +kernel)
    have halfway : timed.phases.Course "door" World.ajar 1 _ _ := .advanced .entered ⟨rfl, rfl⟩
    have course : timed.phases.Course "door" World.ajar 2 _ _ := .advanced halfway ⟨rfl, rfl⟩
    have exited := Phases.Ends.exited course ⟨rfl, rfl⟩
    obtain ⟨⟨flipped, -, same⟩, -⟩ := ends "door" World.ajar 2 _ _ exited
    have turning : (let begun := timed.phases.enter.run "door" World.ajar
        let halfway := timed.phases.advance.run "door" begun
        let ended := timed.phases.exit.run "door" (timed.phases.advance.run "door" halfway)
        [World.ajar, halfway, ended].map
            (fun world => world.read "door" (Slot.orientation .w).key)) =
          [-1, -0.8535533905932737, -0.7071067811865475] := by
      apply Outcome.eq_of_seen resolved
      decide +kernel
    have turned : (instant.phases.enter.run "door" World.ajar).read "door"
        (Slot.orientation .w).key = 0.7071067811865475 := by
      apply Outcome.eq_of_seen atOnce
      decide +kernel
    simp only [List.map_cons, List.map_nil, List.cons.injEq, and_true] at turning
    obtain ⟨ajar, between, closed⟩ := turning
    have apart (field : String) : (Slot.orientation .w).key ≠ Slot.actionKey 0 field := by
      simp [Slot.orientation, Slot.key, Channel.key, Slot.actionKey, Slot.actionPrefix,
        ← String.toList_inj]
    have negated : flipped = true := same.flipped_of_ne apart (by
      rw [closed, turned]
      decide +kernel)
    subst negated
    refine ⟨timed, instant, rfl, lasting, atOnce, _, _, _, _, halfway, exited, same, ?_⟩
    simp only [List.map_cons, List.map_nil, ajar, between, closed, turned]

end Stagecraft
