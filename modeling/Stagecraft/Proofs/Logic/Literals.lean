/-
This file lists what logic is written with besides the keys of its slots: the numbers in it, the
names that it gives to temporaries, and those under which it reads them.
-/

import Stagecraft.Logic.Basic

namespace Stagecraft

variable {α : Type}

mutual

/-- The numbers that an expression is written with. -/
def Expr.literals : Expr α → List α
  | .num value => [value]
  | .prop _ _ => []
  | .var _ => []
  | .unary _ operand => operand.literals
  | .binary _ left right => left.literals ++ right.literals
  | .call _ arguments => Expr.allLiterals arguments
  | .select condition yes no => condition.literals ++ yes.literals ++ no.literals

def Expr.allLiterals : List (Expr α) → List α
  | [] => []
  | expr :: rest => expr.literals ++ Expr.allLiterals rest

end

mutual

def Stmt.literals : Stmt α → List α
  | .set _ value => value.literals
  | .bind _ value => value.literals
  | .branch condition yes no => condition.literals ++ Block.literals yes ++ Block.literals no
  | .within _ body => Block.literals body
  | .host _ => []
  | .comment _ => []

def Block.literals : List (Stmt α) → List α
  | [] => []
  | stmt :: rest => stmt.literals ++ Block.literals rest

end

mutual

/-- The names that a statement gives to temporaries. -/
def Stmt.names : Stmt α → List String
  | .set _ _ => []
  | .bind name _ => [name]
  | .branch _ yes no => Block.names yes ++ Block.names no
  | .within _ body => Block.names body
  | .host _ => []
  | .comment _ => []

def Block.names : List (Stmt α) → List String
  | [] => []
  | stmt :: rest => stmt.names ++ Block.names rest

end

mutual

/-- The names of the temporaries that an expression reads. -/
def Expr.temporaries : Expr α → List String
  | .num _ => []
  | .prop _ _ => []
  | .var name => [name]
  | .unary _ operand => operand.temporaries
  | .binary _ left right => left.temporaries ++ right.temporaries
  | .call _ arguments => Expr.allTemporaries arguments
  | .select condition yes no => condition.temporaries ++ (yes.temporaries ++ no.temporaries)

def Expr.allTemporaries : List (Expr α) → List String
  | [] => []
  | expr :: rest => expr.temporaries ++ Expr.allTemporaries rest

end

mutual

/-- The names of the temporaries of a statement, where they are given and where they are read. -/
def Stmt.temporaries : Stmt α → List String
  | .set _ value => value.temporaries
  | .bind name value => name :: value.temporaries
  | .branch condition yes no =>
    condition.temporaries ++ (Block.temporaries yes ++ Block.temporaries no)
  | .within _ body => Block.temporaries body
  | .host _ => []
  | .comment _ => []

def Block.temporaries : List (Stmt α) → List String
  | [] => []
  | stmt :: rest => stmt.temporaries ++ Block.temporaries rest

end

end Stagecraft
