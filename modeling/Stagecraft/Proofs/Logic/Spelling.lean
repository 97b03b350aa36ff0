/-
This file lists the keys under which logic reads and writes bags, on its own object and on others.
Logic is spelled if all of them are keys of slots. Since no two slots share a key, such logic finds
under a key what was meant for that slot and nothing else, and its runs put nothing into a bag that
is not in a slot.
-/

import Stagecraft.Proofs.Logic.Writes

namespace Stagecraft

variable {α : Type}

/-! ### Keys of slots -/

/-- Some slot is kept under the key. -/
def Slot.IsKey (key : String) : Prop :=
  ∃ slot : Slot, slot.key = key

@[simp] theorem Slot.isKey (slot : Slot) : IsKey slot.key :=
  ⟨slot, rfl⟩

theorem Slot.IsKey.existsUnique {key : String} (isKey : IsKey key) :
    ∃! slot : Slot, slot.key = key :=
  existsUnique_of_exists_of_unique isKey fun _ _ first second =>
    key_injective (first.trans second.symm)

/-! ### Keys of logic -/

mutual

/-- The keys that an expression reads. -/
def Expr.keys : Expr α → List String
  | .num _ => []
  | .prop _ key => [key]
  | .var _ => []
  | .unary _ operand => operand.keys
  | .binary _ left right => left.keys ++ right.keys
  | .call _ arguments => Expr.allKeys arguments
  | .select condition yes no => condition.keys ++ (yes.keys ++ no.keys)

def Expr.allKeys : List (Expr α) → List String
  | [] => []
  | expr :: rest => expr.keys ++ Expr.allKeys rest

end

mutual

/-- The keys that a statement reads or writes. -/
def Stmt.keys : Stmt α → List String
  | .set key value => key :: value.keys
  | .bind _ value => value.keys
  | .branch condition yes no => condition.keys ++ (Block.keys yes ++ Block.keys no)
  | .within _ body => Block.keys body
  | .host _ => []
  | .comment _ => []

def Block.keys : List (Stmt α) → List String
  | [] => []
  | stmt :: rest => stmt.keys ++ Block.keys rest

end

/-- All keys of the block are those of slots. -/
def Block.IsSpelled (block : Block α) : Prop :=
  ∀ key ∈ Block.keys block, Slot.IsKey key

/-! ### Writes -/

mutual

/-- Where a statement may write, it writes under one of its keys. -/
theorem Stmt.mem_keys_of_mem_writes {this : String} {place : String × String} :
    (stmt : Stmt α) → place ∈ stmt.writes this → place.2 ∈ stmt.keys
  | .set key value, member => by
    rw [Stmt.writes_set, List.mem_singleton] at member
    rw [member, Stmt.keys]
    exact List.mem_cons_self
  | .bind name value, member => by simp at member
  | .branch condition yes no, member => by
    rw [Stmt.writes_branch, List.mem_append] at member
    rw [Stmt.keys, List.mem_append, List.mem_append]
    exact .inr (member.imp (Block.mem_keys_of_mem_writes yes) (Block.mem_keys_of_mem_writes no))
  | .within object body, member => by
    rw [Stmt.writes_within] at member
    rw [Stmt.keys]
    exact Block.mem_keys_of_mem_writes body member
  | .host call, member => by simp at member
  | .comment text, member => by simp at member

theorem Block.mem_keys_of_mem_writes {this : String} {place : String × String} :
    (block : List (Stmt α)) → place ∈ Block.writes this block → place.2 ∈ Block.keys block
  | [], member => by simp at member
  | stmt :: rest, member => by
    rw [Block.writes_cons, List.mem_append] at member
    rw [Block.keys, List.mem_append]
    exact member.imp (Stmt.mem_keys_of_mem_writes stmt) (Block.mem_keys_of_mem_writes rest)

end

/-! ### Worlds -/

/-- All bags hold slots only. -/
def World.IsSpelled (world : World α) : Prop :=
  ∀ object key, world.entry object key ≠ none → Slot.IsKey key

theorem World.IsSpelled.write {world : World α} (spelled : world.IsSpelled) (object : String)
    (slot : Slot) (value : α) : (world.write object slot.key value).IsSpelled := by
  intro object' key held
  rw [World.entry_write] at held
  split at held
  · rename_i same
    exact same.2.2 ▸ slot.isKey
  · exact spelled object' key held

/-- Spelled logic puts nothing into a bag but what is kept in slots. -/
theorem World.IsSpelled.runAll [Trigonometric α] {world : World α} (spelled : world.IsSpelled)
    {block : Block α} (isSpelled : Block.IsSpelled block) (this : String) (locals : Locals α) :
    (Block.runAll this locals world block).IsSpelled := by
  intro object key held
  by_cases touched : (object, key) ∈ Block.writes this block
  · exact isSpelled key (Block.mem_keys_of_mem_writes block touched)
  · rw [Block.entry_runAll this locals world object key block fun _ => touched] at held
    exact spelled object key held

end Stagecraft
