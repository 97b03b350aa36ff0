/-
This file shows that logic which names no object concerns only the one it runs on. What its bag
holds decides what the logic leaves there and which calls it makes, and every other bag is left
alone. So duties of that kind on different objects can be done in any order.
-/

import Stagecraft.Proofs.Lists
import Stagecraft.Proofs.Stage.Agenda

namespace Stagecraft

variable {α : Type}

/-! ### Named objects -/

mutual

/-- The objects that an expression reads by name. -/
def Expr.named : Expr α → List String
  | .prop (.object id) _ => [id]
  | .unary _ operand => operand.named
  | .binary _ left right => left.named ++ right.named
  | .call _ arguments => Expr.namedAll arguments
  | .select condition yes no => condition.named ++ (yes.named ++ no.named)
  | _ => []

def Expr.namedAll : List (Expr α) → List String
  | [] => []
  | expr :: rest => expr.named ++ Expr.namedAll rest

end

mutual

/-- The objects that a statement reads by name or runs a block on. -/
def Stmt.named : Stmt α → List String
  | .set _ value => value.named
  | .bind _ value => value.named
  | .branch condition yes no => condition.named ++ (Block.named yes ++ Block.named no)
  | .within object body => object :: Block.named body
  | _ => []

def Block.named : List (Stmt α) → List String
  | [] => []
  | stmt :: rest => stmt.named ++ Block.named rest

end

namespace Block

@[simp] theorem named_nil : named ([] : Block α) = [] := by
  rw [named]

@[simp] theorem named_cons (stmt : Stmt α) (rest : Block α) :
    named (stmt :: rest) = stmt.named ++ named rest := by
  rw [named]

theorem named_eq_nil {block : Block α} : named block = [] ↔ ∀ stmt ∈ block, stmt.named = [] := by
  induction block with
  | nil => simp
  | cons stmt rest inductionHypothesis => simp [inductionHypothesis]

end Block

/-! ### Bags of one object -/

namespace World

/-- Two worlds are the same as far as one object is concerned. -/
structure AgreesOn (object : String) (first second : World α) : Prop where
  hosts : first.hosts object = second.hosts object
  bag : first.bags[object]? = second.bags[object]?

/-- The calls made on an object, in order. -/
def callsOn (world : World α) (object : String) : List HostCall :=
  (world.calls.filter (·.1 == object)).map (·.2)

theorem getElem?_write (world : World α) (object key other : String) (value : α) :
    (world.write object key value).bags[other]? =
      if world.hosts object ∧ object = other then some ((world.bag object).insert key value)
      else world.bags[other]? := by
  unfold write
  split <;> rename_i hosted
  · simp [hosted, Std.ExtTreeMap.getElem?_insert]
  · simp [hosted]

namespace AgreesOn

variable {this : String} {world world' : World α}

theorem refl (this : String) (world : World α) : AgreesOn this world world := ⟨rfl, rfl⟩

theorem bag_eq (agree : AgreesOn this world world') : world.bag this = world'.bag this := by
  rw [World.bag, World.bag, agree.bag]

theorem read_eq [Scalar α] (agree : AgreesOn this world world') (key : String) :
    world.read this key = world'.read this key := by
  rw [read, read, agree.bag_eq]

theorem write (agree : AgreesOn this world world') (key : String) (value : α) :
    AgreesOn this (world.write this key value) (world'.write this key value) where
  hosts := by rw [hosts_write, hosts_write, agree.hosts]
  bag := by rw [getElem?_write, getElem?_write, agree.hosts, agree.bag_eq, agree.bag]

end AgreesOn

/-- How two worlds go on alike on an object: they stay the same there, and the same calls are made
on it. -/
structure GoesAlike (this : String) (first second next next' : World α) : Prop where
  agree : AgreesOn this next next'
  calls : ∃ made : List HostCall, next.calls = first.calls ++ made.map (this, ·) ∧
    next'.calls = second.calls ++ made.map (this, ·)

namespace GoesAlike

variable {this : String} {world world' next next' last last' : World α}

theorem refl (agree : AgreesOn this world world') : GoesAlike this world world' world world' :=
  ⟨agree, [], by simp, by simp⟩

theorem trans (first : GoesAlike this world world' next next')
    (second : GoesAlike this next next' last last') :
    GoesAlike this world world' last last' := by
  obtain ⟨early, made, made'⟩ := first.calls
  obtain ⟨late, further, further'⟩ := second.calls
  refine ⟨second.agree, early ++ late, ?_, ?_⟩
  · rw [further, made, List.map_append, List.append_assoc]
  · rw [further', made', List.map_append, List.append_assoc]

end GoesAlike

end World

/-! ### Runs -/

section

variable [Trigonometric α] {this : String} {world world' : World α}

mutual

theorem Expr.eval_congr (agree : world.AgreesOn this world') (locals : Locals α) :
    (expr : Expr α) → expr.named = [] →
      expr.eval world this locals = expr.eval world' this locals
  | .num value, _ => by rw [Expr.eval, Expr.eval]
  | .prop .this key, _ => by rw [Expr.eval, Expr.eval, agree.read_eq]
  | .prop (.object id) key, home => by simp [Expr.named] at home
  | .var name, _ => by rw [Expr.eval, Expr.eval]
  | .unary op operand, home => by
    rw [Expr.named] at home
    rw [Expr.eval, Expr.eval, Expr.eval_congr agree locals operand home]
  | .binary op left right, home => by
    rw [Expr.named, List.append_eq_nil_iff] at home
    rw [Expr.eval, Expr.eval, Expr.eval_congr agree locals left home.1,
      Expr.eval_congr agree locals right home.2]
  | .call builtin arguments, home => by
    rw [Expr.named] at home
    rw [Expr.eval, Expr.eval, Expr.evalAll_congr agree locals arguments home]
  | .select condition yes no, home => by
    rw [Expr.named, List.append_eq_nil_iff, List.append_eq_nil_iff] at home
    rw [Expr.eval, Expr.eval, Expr.eval_congr agree locals condition home.1,
      Expr.eval_congr agree locals yes home.2.1, Expr.eval_congr agree locals no home.2.2]

theorem Expr.evalAll_congr (agree : world.AgreesOn this world') (locals : Locals α) :
    (exprs : List (Expr α)) → Expr.namedAll exprs = [] →
      Expr.evalAll world this locals exprs = Expr.evalAll world' this locals exprs
  | [], _ => by rw [Expr.evalAll, Expr.evalAll]
  | expr :: rest, home => by
    rw [Expr.namedAll, List.append_eq_nil_iff] at home
    rw [Expr.evalAll, Expr.evalAll, Expr.eval_congr agree locals expr home.1,
      Expr.evalAll_congr agree locals rest home.2]

end

mutual

/-- A statement that names no object goes alike in worlds that are the same on its own one. -/
theorem Stmt.goesAlike {world world' : World α} (agree : world.AgreesOn this world')
    (locals : Locals α) :
    (stmt : Stmt α) → stmt.named = [] →
      (stmt.run this locals world).1 = (stmt.run this locals world').1 ∧
        World.GoesAlike this world world' (stmt.run this locals world).2
          (stmt.run this locals world').2
  | .set key value, home => by
    rw [Stmt.named] at home
    rw [Stmt.run, Stmt.run, Expr.eval_congr agree locals value home]
    exact ⟨rfl, agree.write _ _, [], by simp, by simp⟩
  | .bind name value, home => by
    rw [Stmt.named] at home
    rw [Stmt.run, Stmt.run, Expr.eval_congr agree locals value home]
    exact ⟨rfl, .refl agree⟩
  | .branch condition yes no, home => by
    rw [Stmt.named, List.append_eq_nil_iff, List.append_eq_nil_iff] at home
    rw [Stmt.run, Stmt.run, Expr.eval_congr agree locals condition home.1]
    split
    · exact ⟨rfl, Block.goesAlike agree locals yes home.2.1⟩
    · exact ⟨rfl, Block.goesAlike agree locals no home.2.2⟩
  | .within object body, home => by simp [Stmt.named] at home
  | .host call, _ => by
    rw [Stmt.run, Stmt.run]
    exact ⟨rfl, ⟨agree.hosts, agree.bag⟩, [call], rfl, rfl⟩
  | .comment text, _ => by
    rw [Stmt.run, Stmt.run]
    exact ⟨rfl, .refl agree⟩

theorem Block.goesAlike {world world' : World α} (agree : world.AgreesOn this world')
    (locals : Locals α) :
    (block : List (Stmt α)) → Block.named block = [] →
      World.GoesAlike this world world' (Block.runAll this locals world block)
        (Block.runAll this locals world' block)
  | [], _ => by
    rw [Block.runAll, Block.runAll]
    exact .refl agree
  | stmt :: rest, home => by
    rw [Block.named, List.append_eq_nil_iff] at home
    obtain ⟨sameLocals, here⟩ := Stmt.goesAlike agree locals stmt home.1
    rw [Block.runAll_cons, Block.runAll_cons, ← sameLocals]
    exact here.trans (Block.goesAlike here.agree _ rest home.2)

end

mutual

/-- A statement that names no object leaves all other bags alone. -/
theorem Stmt.getElem?_run {other : String} (apart : other ≠ this) (locals : Locals α)
    (world : World α) : (stmt : Stmt α) → stmt.named = [] →
      (stmt.run this locals world).2.bags[other]? = world.bags[other]?
  | .set key value, _ => by
    rw [Stmt.run, World.getElem?_write, if_neg fun same => apart same.2.symm]
  | .bind name value, _ => by rw [Stmt.run]
  | .branch condition yes no, home => by
    rw [Stmt.named, List.append_eq_nil_iff, List.append_eq_nil_iff] at home
    rw [Stmt.run]
    split
    · exact Block.getElem?_runAll apart locals world yes home.2.1
    · exact Block.getElem?_runAll apart locals world no home.2.2
  | .within object body, home => by simp [Stmt.named] at home
  | .host call, _ => by rw [Stmt.run, World.call]
  | .comment text, _ => by rw [Stmt.run]

theorem Block.getElem?_runAll {other : String} (apart : other ≠ this) (locals : Locals α)
    (world : World α) : (block : List (Stmt α)) → Block.named block = [] →
      (Block.runAll this locals world block).bags[other]? = world.bags[other]?
  | [], _ => by rw [Block.runAll]
  | stmt :: rest, home => by
    rw [Block.named, List.append_eq_nil_iff] at home
    rw [Block.runAll, Block.getElem?_runAll apart _ _ rest home.2,
      Stmt.getElem?_run apart locals world stmt home.1]

end

/-- Running the block on an object concerns that object only. -/
structure Block.StaysHome (this : String) (block : Block α) : Prop where
  /-- What is found on the object decides what is left there and which calls are made. -/
  goesAlike : ∀ world world' : World α, world.AgreesOn this world' →
    World.GoesAlike this world world' (block.run this world) (block.run this world')
  /-- All other bags stay as they are. -/
  others : ∀ (world : World α) (other : String), other ≠ this →
    (block.run this world).bags[other]? = world.bags[other]?

theorem Block.staysHome_of_named {block : Block α} (home : Block.named block = []) (this : String) :
    Block.StaysHome this block where
  goesAlike _ _ agree := Block.goesAlike agree [] block home
  others world _ apart := Block.getElem?_runAll apart [] world block home

end

/-! ### Duties in any order -/

section

variable [Trigonometric α]

/-- What the world has of one object: its bag, and the calls made on it. -/
def World.view (world : World α) (object : String) : Option (Bag α) × List HostCall :=
  (world.bags[object]?, world.callsOn object)

namespace World.GoesAlike

variable {this : String} {world world' next next' : World α}

omit [Trigonometric α] in
/-- Worlds that go on alike on an object have the same of it. -/
theorem view_eq (alike : GoesAlike this world world' next next')
    (same : world.view this = world'.view this) : next.view this = next'.view this := by
  obtain ⟨agree, made, calls, calls'⟩ := alike
  have sameCalls := (Prod.mk.inj same).2
  rw [callsOn, callsOn] at sameCalls
  rw [view, view, agree.bag, callsOn, callsOn, calls, calls', List.filter_append, List.filter_append,
    List.map_append, List.map_append, sameCalls]

omit [Trigonometric α] in
/-- No call is made on another object. -/
theorem view_other (alike : GoesAlike this world world' next next') {other : String}
    (apart : other ≠ this) (bag : next.bags[other]? = world.bags[other]?) :
    next.view other = world.view other := by
  obtain ⟨made, calls, -⟩ := alike.calls
  have notHere : ∀ call ∈ made.map (this, ·), ¬(call.1 == other) = true := by
    intro call member
    obtain ⟨_, -, rfl⟩ := List.mem_map.mp member
    simpa using apart.symm
  rw [view, callsOn, bag, calls, List.filter_append, List.filter_eq_nil_iff.mpr notHere,
    List.append_nil]
  rfl

end World.GoesAlike

namespace Block

variable {block : Block α} (home : Block.named block = []) {this : String} (locals : Locals α)

include home

theorem view_runAll_other {other : String} (apart : other ≠ this) (world : World α) :
    (Block.runAll this locals world block).view other = world.view other :=
  (Block.goesAlike (.refl this world) locals block home).view_other apart
    (Block.getElem?_runAll apart locals world block home)

theorem view_runAll {world world' : World α} (hosts : world.hosts = world'.hosts)
    (same : world.view this = world'.view this) :
    (Block.runAll this locals world block).view this =
      (Block.runAll this locals world' block).view this :=
  (Block.goesAlike ⟨congrFun hosts this, (Prod.mk.inj same).1⟩ locals block home).view_eq same

end Block

namespace Duty

variable {duty : Duty α} (home : Block.StaysHome duty.object duty.block)

include home

theorem view_run_other {other : String} (apart : other ≠ duty.object) (world : World α) :
    (duty.run world).view other = world.view other := by
  unfold run
  split
  · exact (home.goesAlike world world (.refl _ world)).view_other apart (home.others world other apart)
  · rfl

theorem view_run {world world' : World α} (hosts : world.hosts = world'.hosts)
    (same : world.view duty.object = world'.view duty.object) :
    (duty.run world).view duty.object = (duty.run world').view duty.object := by
  unfold run
  rw [hosts]
  split
  · exact (home.goesAlike world world'
      ⟨congrFun hosts _, (Prod.mk.inj same).1⟩).view_eq same
  · exact same

end Duty

namespace Agenda

variable {agenda : Agenda α} (home : ∀ duty ∈ agenda, Block.StaysHome duty.object duty.block)

include home

/-- An object without a duty is left alone. -/
theorem view_run_other {object : String} (free : object ∉ agenda.map (·.object))
    (world : World α) : (run agenda world).view object = world.view object := by
  induction agenda generalizing world with
  | nil => rfl
  | cons duty rest inductionHypothesis =>
    obtain ⟨homeHere, homeLater⟩ := List.forall_mem_cons.mp home
    rw [List.map_cons, List.mem_cons, not_or] at free
    rw [run_cons, inductionHypothesis homeLater free.2, Duty.view_run_other homeHere free.1]

/-- An object with one duty is left as if no other duty were done. -/
theorem view_run (once : (agenda.map (·.object)).Nodup) {duty : Duty α} (member : duty ∈ agenda)
    (world : World α) : (run agenda world).view duty.object = (duty.run world).view duty.object := by
  obtain ⟨before, after, rfl⟩ := List.append_of_mem member
  rw [List.map_append, List.map_cons] at once
  obtain ⟨notBefore, notAfter⟩ := Lists.eq_of_nodup_append once
  obtain ⟨homeBefore, homeThen⟩ := List.forall_mem_append.mp home
  obtain ⟨homeHere, homeAfter⟩ := List.forall_mem_cons.mp homeThen
  rw [run_append, run_cons, view_run_other homeAfter notAfter]
  exact Duty.view_run homeHere (hosts_run _ _) (view_run_other homeBefore notBefore world)

/-- Duties on different objects can be done in any order. -/
theorem view_run_perm (once : (agenda.map (·.object)).Nodup) {other : Agenda α}
    (permuted : other.Perm agenda) (world : World α) (object : String) :
    (run other world).view object = (run agenda world).view object := by
  have homeOther : ∀ duty ∈ other, Block.StaysHome duty.object duty.block :=
    fun duty member => home duty (permuted.subset member)
  have onceOther : (other.map (·.object)).Nodup := (permuted.map _).nodup_iff.mpr once
  by_cases occupied : object ∈ agenda.map (·.object)
  · obtain ⟨duty, member, rfl⟩ := List.mem_map.mp occupied
    rw [view_run homeOther onceOther (permuted.symm.subset member), view_run home once member]
  · have free : object ∉ other.map (·.object) := fun inOther =>
      occupied ((permuted.map _).subset inOther)
    rw [view_run_other homeOther free, view_run_other home occupied]

end Agenda

end

end Stagecraft
