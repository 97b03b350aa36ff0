/-
This file bounds what a block can change. The places that the statements of a block name are
collected without running it, and a run changes no other place. Where the bound is given by slots
instead of keys, no two slots being spelled alike turns it into a statement about slots.
-/

import Stagecraft.Logic.Access
import Stagecraft.Logic.Meaning
import Stagecraft.Proofs.Logic.Keys

namespace Stagecraft

variable {α : Type}

/-! ### Entries -/

namespace World

/-- What a bag has under a key. A key that is not there reads as zero. -/
def entry (world : World α) (object key : String) : Option α :=
  (world.bag object)[key]?

theorem entry_write (world : World α) (object key object' key' : String) (value : α) :
    (world.write object key value).entry object' key' =
      if world.hosts object ∧ object = object' ∧ key = key' then some value
      else world.entry object' key' := by
  unfold write entry bag
  split <;> rename_i hosted
  · by_cases sameObject : object = object'
    · subst sameObject
      by_cases sameKey : key = key'
      · simp [hosted, sameKey]
      · simp [hosted, sameKey, Std.ExtTreeMap.getElem?_insert]
    · simp [hosted, sameObject, Std.ExtTreeMap.getElem?_insert]
  · simp [hosted]

@[simp] theorem entry_call (world : World α) (object object' key : String) (made : HostCall) :
    (world.call object made).entry object' key = world.entry object' key := rfl

end World

/-! ### Places -/

mutual

/-- The objects and keys that a statement may write. -/
def Stmt.writes (this : String) : Stmt α → List (String × String)
  | .set key _ => [(this, key)]
  | .branch _ yes no => Block.writes this yes ++ Block.writes this no
  | .within object body => Block.writes object body
  | _ => []

def Block.writes (this : String) : List (Stmt α) → List (String × String)
  | [] => []
  | stmt :: rest => stmt.writes this ++ Block.writes this rest

end

namespace Block

@[simp] theorem writes_nil (this : String) : writes this ([] : Block α) = [] := by
  rw [writes]

@[simp] theorem writes_cons (this : String) (stmt : Stmt α) (rest : Block α) :
    writes this (stmt :: rest) = stmt.writes this ++ writes this rest := by
  rw [writes]

@[simp] theorem writes_append (this : String) (first second : Block α) :
    writes this (first ++ second) = writes this first ++ writes this second := by
  induction first with
  | nil => simp
  | cons stmt rest inductionHypothesis => simp [inductionHypothesis]

theorem mem_writes {this : String} {block : Block α} {place : String × String} :
    place ∈ writes this block ↔ ∃ stmt ∈ block, place ∈ stmt.writes this := by
  induction block with
  | nil => simp
  | cons stmt rest inductionHypothesis => simp [inductionHypothesis]

end Block

namespace Stmt

@[simp] theorem writes_set (this key : String) (value : Expr α) :
    (set key value).writes this = [(this, key)] := by
  rw [writes]

@[simp] theorem writes_bind (this name : String) (value : Expr α) :
    (bind name value).writes this = [] := by
  rw [writes] <;> simp

@[simp] theorem writes_branch (this : String) (condition : Expr α) (yes no : Block α) :
    (branch condition yes no).writes this = Block.writes this yes ++ Block.writes this no := by
  rw [writes]

@[simp] theorem writes_onlyIf (this : String) (condition : Expr α) (body : Block α) :
    (onlyIf condition body).writes this = Block.writes this body := by
  simp [onlyIf]

@[simp] theorem writes_within (this object : String) (body : Block α) :
    (within object body).writes this = Block.writes object body := by
  rw [writes]

@[simp] theorem writes_host (this : String) (call : HostCall) :
    (host call : Stmt α).writes this = [] := by
  rw [writes] <;> simp

@[simp] theorem writes_comment (this text : String) :
    (comment text : Stmt α).writes this = [] := by
  rw [writes] <;> simp

end Stmt

/-! ### Runs -/

section

variable [Trigonometric α]

mutual

@[simp] theorem Stmt.hosts_run (this : String) (locals : Locals α) (world : World α) :
    (stmt : Stmt α) → (stmt.run this locals world).2.hosts = world.hosts
  | .set key value => by rw [Stmt.run, World.hosts_write]
  | .bind name value => by rw [Stmt.run]
  | .branch condition yes no => by
    rw [Stmt.run]
    split
    · exact Block.hosts_runAll this locals world yes
    · exact Block.hosts_runAll this locals world no
  | .within object body => by
    rw [Stmt.run]
    exact Block.hosts_runAll object locals world body
  | .host call => by rw [Stmt.run, World.hosts_call]
  | .comment text => by rw [Stmt.run]

@[simp] theorem Block.hosts_runAll (this : String) (locals : Locals α) (world : World α) :
    (block : List (Stmt α)) → (Block.runAll this locals world block).hosts = world.hosts
  | [] => by rw [Block.runAll]
  | stmt :: rest => by
    rw [Block.runAll, Block.hosts_runAll _ _ _ rest, Stmt.hosts_run this locals world stmt]

end

mutual

/-- A statement leaves what lies under a place that it does not name, or that is not hosted. -/
theorem Stmt.entry_run (this : String) (locals : Locals α) (world : World α) (object key : String) :
    (stmt : Stmt α) → (world.hosts object → (object, key) ∉ stmt.writes this) →
      (stmt.run this locals world).2.entry object key = world.entry object key
  | .set written value, spared => by
    have different : ¬(world.hosts this ∧ this = object ∧ written = key) := by
      rintro ⟨hosted, rfl, rfl⟩
      exact spared hosted (by simp)
    rw [Stmt.run, World.entry_write, if_neg different]
  | .bind name value, _ => by rw [Stmt.run]
  | .branch condition yes no, spared => by
    simp only [Stmt.writes_branch, List.mem_append, not_or] at spared
    rw [Stmt.run]
    split
    · exact Block.entry_runAll this locals world object key yes fun hosted => (spared hosted).1
    · exact Block.entry_runAll this locals world object key no fun hosted => (spared hosted).2
  | .within inner body, spared => by
    rw [Stmt.writes_within] at spared
    rw [Stmt.run]
    exact Block.entry_runAll inner locals world object key body spared
  | .host call, _ => by rw [Stmt.run, World.entry_call]
  | .comment text, _ => by rw [Stmt.run]

theorem Block.entry_runAll (this : String) (locals : Locals α) (world : World α)
    (object key : String) :
    (block : List (Stmt α)) → (world.hosts object → (object, key) ∉ Block.writes this block) →
      (Block.runAll this locals world block).entry object key = world.entry object key
  | [], _ => by rw [Block.runAll]
  | stmt :: rest, spared => by
    simp only [Block.writes_cons, List.mem_append, not_or] at spared
    rw [Block.runAll, Block.entry_runAll _ _ _ object key rest fun hosted =>
        (spared (by rwa [Stmt.hosts_run] at hosted)).2,
      Stmt.entry_run this locals world object key stmt fun hosted => (spared hosted).1]

end

/-- A statement changes no place that it does not name. -/
theorem Stmt.read_run (this : String) (locals : Locals α) (world : World α) (object key : String)
    (stmt : Stmt α) (spared : (object, key) ∉ stmt.writes this) :
    (stmt.run this locals world).2.read object key = world.read object key :=
  congrArg (·.getD 0) (stmt.entry_run this locals world object key fun _ => spared)

theorem Block.read_runAll (this : String) (locals : Locals α) (world : World α)
    (object key : String) (block : Block α) (spared : (object, key) ∉ Block.writes this block) :
    (Block.runAll this locals world block).read object key = world.read object key :=
  congrArg (·.getD 0) (entry_runAll this locals world object key block fun _ => spared)

end

/-! ### Slots -/

namespace Block

/-- Every place that the block may write is a slot, and an allowed one. -/
def WritesOnly (allowed : String → Slot → Prop) (this : String) (block : Block α) : Prop :=
  ∀ place ∈ writes this block, ∃ slot : Slot, place.2 = slot.key ∧ allowed place.1 slot

variable {allowed : String → Slot → Prop} {this : String}

@[simp] theorem writesOnly_nil : WritesOnly allowed this ([] : Block α) := by
  simp [WritesOnly]

theorem writesOnly_cons {stmt : Stmt α} {rest : Block α} :
    WritesOnly allowed this (stmt :: rest) ↔
      WritesOnly allowed this [stmt] ∧ WritesOnly allowed this rest := by
  simp [WritesOnly, or_imp, forall_and]

@[simp] theorem writesOnly_cons_cons {stmt next : Stmt α} {rest : Block α} :
    WritesOnly allowed this (stmt :: next :: rest) ↔
      WritesOnly allowed this [stmt] ∧ WritesOnly allowed this (next :: rest) :=
  writesOnly_cons

@[simp] theorem writesOnly_append {first second : Block α} :
    WritesOnly allowed this (first ++ second) ↔
      WritesOnly allowed this first ∧ WritesOnly allowed this second := by
  simp [WritesOnly, or_imp, forall_and]

theorem writesOnly_of_forall {block : Block α}
    (each : ∀ stmt ∈ block, WritesOnly allowed this [stmt]) : WritesOnly allowed this block := by
  intro place member
  obtain ⟨stmt, inBlock, inWrites⟩ := mem_writes.mp member
  exact each stmt inBlock place (by simpa using inWrites)

@[simp] theorem writesOnly_write {slot : Slot} {value : Expr α} :
    WritesOnly allowed this [slot.write value] ↔ allowed this slot := by
  simp only [WritesOnly, Slot.write, writes_cons, Stmt.writes_set, writes_nil,
    List.append_nil, List.mem_singleton, forall_eq]
  exact ⟨fun ⟨other, same, isAllowed⟩ => Slot.key_injective same ▸ isAllowed,
    fun isAllowed => ⟨slot, rfl, isAllowed⟩⟩

@[simp] theorem writesOnly_bind {name : String} {value : Expr α} :
    WritesOnly allowed this [.bind name value] := by
  simp [WritesOnly]

@[simp] theorem writesOnly_onlyIf {condition : Expr α} {body : Block α} :
    WritesOnly allowed this [.onlyIf condition body] ↔ WritesOnly allowed this body := by
  simp [WritesOnly]

@[simp] theorem writesOnly_branch {condition : Expr α} {yes no : Block α} :
    WritesOnly allowed this [.branch condition yes no] ↔
      WritesOnly allowed this yes ∧ WritesOnly allowed this no := by
  simp [WritesOnly, or_imp, forall_and]

@[simp] theorem writesOnly_within {object : String} {body : Block α} :
    WritesOnly allowed this [.within object body] ↔ WritesOnly allowed object body := by
  simp [WritesOnly]

@[simp] theorem writesOnly_host {call : HostCall} :
    WritesOnly allowed this [(.host call : Stmt α)] := by
  simp [WritesOnly]

@[simp] theorem writesOnly_comment {text : String} :
    WritesOnly allowed this [(.comment text : Stmt α)] := by
  simp [WritesOnly]

theorem writesOnly_map {β : Type} {values : List β} {statement : β → Stmt α}
    (each : ∀ value ∈ values, WritesOnly allowed this [statement value]) :
    WritesOnly allowed this (values.map statement) := by
  refine writesOnly_of_forall fun stmt member => ?_
  obtain ⟨value, inValues, rfl⟩ := List.mem_map.mp member
  exact each value inValues

theorem writesOnly_flatMap {β : Type} {values : List β} {block : β → Block α}
    (each : ∀ value ∈ values, WritesOnly allowed this (block value)) :
    WritesOnly allowed this (values.flatMap block) := by
  intro place member
  obtain ⟨stmt, inBlock, inWrites⟩ := mem_writes.mp member
  obtain ⟨value, inValues, inPart⟩ := List.mem_flatMap.mp inBlock
  exact each value inValues place (mem_writes.mpr ⟨stmt, inPart, inWrites⟩)

theorem WritesOnly.mono {block : Block α} {wider : String → Slot → Prop}
    (within : WritesOnly allowed this block)
    (weaken : ∀ object slot, allowed object slot → wider object slot) :
    WritesOnly wider this block := fun place member =>
  let ⟨slot, same, isAllowed⟩ := within place member
  ⟨slot, same, weaken _ _ isAllowed⟩

/-- A slot that is not allowed is spared. -/
theorem WritesOnly.notMem {block : Block α} (within : WritesOnly allowed this block)
    {object : String} {slot : Slot} (forbidden : ¬allowed object slot) :
    (object, slot.key) ∉ writes this block := fun member =>
  let ⟨_, same, isAllowed⟩ := within _ member
  forbidden (Slot.key_injective same ▸ isAllowed)

theorem WritesOnly.read_runAll [Trigonometric α] {block : Block α}
    (within : WritesOnly allowed this block) {object : String} {slot : Slot}
    (forbidden : ¬allowed object slot) (locals : Locals α) (world : World α) :
    (runAll this locals world block).read object slot.key = world.read object slot.key :=
  Block.read_runAll this locals world object slot.key block (within.notMem forbidden)

end Block

end Stagecraft
