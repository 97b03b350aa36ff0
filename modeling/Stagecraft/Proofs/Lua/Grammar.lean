/-
This file reads tokens by the grammar of Lua 5.1, for the part of the language that chunks are
written in, and shows that the text of a chunk is read as the chunk. The reader goes from left to
right and looks one token ahead: an operand is followed by operators as long as they bind more
closely than what stands before it. Parentheses leave no trace in what is read, and neither do
comments. Statements that begin with a parenthesis are not read.
-/

import Stagecraft.Proofs.Lua.Tokens

namespace Stagecraft

namespace Lua

/-! ### Expressions -/

/-- How closely an operator binds its operands. -/
def priority : BinaryOp → Nat
  | .or => 1
  | .and => 2
  | .lt | .le | .gt | .ge | .eq | .ne => 3
  | .add | .sub => 6
  | .mul | .div => 7

/-- Operators with one operand bind it more closely than those with two. -/
def unaryPriority : Nat := 8

-- A reader goes on only behind tokens that it has read, so it ends. The conditions on lengths say
-- so; they always hold, since no expression and no statement is read from nothing.
mutual

/-- An expression with operators that bind more closely than the limit. -/
def expression? (limit : Nat) (tokens : List Token) : Option (Exp Float × List Token) := do
  let (left, rest) ← operand? tokens
  if rest.length < tokens.length then operations? limit left rest else none
termination_by (tokens.length, 2)

/-- The operations on a left operand, as far as the limit allows. -/
def operations? (limit : Nat) (left : Exp Float) (tokens : List Token) :
    Option (Exp Float × List Token) :=
  match tokens with
  | .operator op :: later =>
    if limit < priority op then do
      let (right, rest) ← expression? (priority op) later
      if rest.length < later.length then operations? limit (.binary op left right) rest else none
    else some (left, tokens)
  | _ => some (left, tokens)
termination_by (tokens.length, 0)

def operand? (tokens : List Token) : Option (Exp Float × List Token) :=
  match tokens with
  | .operator .sub :: rest => do
    let (operand, rest) ← expression? unaryPriority rest
    some (.unary .neg operand, rest)
  | .not :: rest => do
    let (operand, rest) ← expression? unaryPriority rest
    some (.unary .not operand, rest)
  | .numeral value :: rest => some (.numeral value, rest)
  | .text content :: rest => some (.text content, rest)
  | .name found :: rest => suffixes? (.name found) rest
  | .opening :: later => do
    let (inner, rest) ← expression? 0 later
    match rest with
    | .closing :: rest => if rest.length < later.length then suffixes? inner rest else none
    | _ => none
  | _ => none
termination_by (tokens.length, 1)

/-- The indices, fields and calls behind an expression. -/
def suffixes? (front : Exp Float) (tokens : List Token) : Option (Exp Float × List Token) :=
  match tokens with
  | .bracket :: later => do
    let (key, rest) ← expression? 0 later
    match rest with
    | .unbracket :: rest =>
      if rest.length < later.length then suffixes? (.index front key) rest else none
    | _ => none
  | .dot :: .name field :: rest => suffixes? (.member front field) rest
  | .dot :: _ => none
  | .opening :: .closing :: rest => suffixes? (.call front []) rest
  | .opening :: later => do
    let (arguments, rest) ← arguments? later
    if rest.length < later.length then suffixes? (.call front arguments) rest else none
  | .text content :: rest => suffixes? (.call front [.text content]) rest
  | _ => some (front, tokens)
termination_by (tokens.length, 0)

/-- At least one argument, up to the parenthesis behind the last one. -/
def arguments? (tokens : List Token) : Option (List (Exp Float) × List Token) := do
  let (first, rest) ← expression? 0 tokens
  match rest with
  | .closing :: rest => some ([first], rest)
  | .comma :: rest =>
    if rest.length < tokens.length then do
      let (others, rest) ← arguments? rest
      some (first :: others, rest)
    else none
  | _ => none
termination_by (tokens.length, 3)

end

/-! ### Statements -/

mutual

def statement? (tokens : List Token) : Option (Stat Float × List Token) :=
  match tokens with
  | .branch :: later => do
    let (condition, rest) ← expression? 0 later
    match rest with
    | .yes :: rest =>
      if rest.length < later.length then do
        let (yes, rest) ← statements? rest
        match rest with
        | .finish :: rest => some (.branch condition yes [], rest)
        | .no :: rest =>
          if rest.length < later.length then do
            let (no, rest) ← statements? rest
            match rest with
            | .finish :: rest => some (.branch condition yes no, rest)
            | _ => none
          else none
        | _ => none
      else none
    | _ => none
  | .scope :: rest => do
    let (body, rest) ← statements? rest
    match rest with
    | .finish :: rest => some (.scope body, rest)
    | _ => none
  | .declare :: .name name :: .assign :: rest => do
    let (value, rest) ← expression? 0 rest
    some (.declare name value, rest)
  | .name found :: rest => do
    let (front, rest) ← suffixes? (.name found) rest
    match front, rest with
    | .index table key, .assign :: rest => do
      let (value, rest) ← expression? 0 rest
      some (.assign table key value, rest)
    | .call callee arguments, rest => some (.call callee arguments, rest)
    | _, _ => none
  | _ => none
termination_by (tokens.length, 0)

/-- The statements of a block, which goes on to the word that closes it or to the end. -/
def statements? (tokens : List Token) : Option (List (Stat Float) × List Token) :=
  match tokens with
  | [] | .finish :: _ | .no :: _ => some ([], tokens)
  | token :: later => do
    let (stat, rest) ← statement? (token :: later)
    if rest.length ≤ later.length then do
      let (stats, rest) ← statements? rest
      some (stat :: stats, rest)
    else none
termination_by (tokens.length, 1)

end

/-- The chunk that a text is. -/
def parse? (text : String) : Option (Chunk Float) := do
  let tokens ← lex true text.toList
  let (chunk, rest) ← statements? tokens
  if rest.isEmpty then some chunk else none

/-! ### What is left over -/

section

variable {limit : Nat} {left exp : Exp Float} {tokens rest : List Token}

theorem length_operations? (read : operations? limit left tokens = some (exp, rest)) :
    rest.length ≤ tokens.length := by
  induction size : tokens.length using Nat.strong_induction_on generalizing left tokens with
  | _ _ inductionHypothesis =>
    rw [operations?.eq_def] at read
    split at read
    · split at read
      · obtain ⟨right, -, read⟩ := Option.bind_eq_some_iff.mp read
        grind
      · grind
    · grind

/-- No expression is read from nothing. -/
theorem length_expression? (read : expression? limit tokens = some (exp, rest)) :
    rest.length < tokens.length := by
  rw [expression?] at read
  obtain ⟨operand, -, read⟩ := Option.bind_eq_some_iff.mp read
  grind [→ length_operations?]

theorem length_arguments? {arguments : List (Exp Float)}
    (read : arguments? tokens = some (arguments, rest)) : rest.length < tokens.length := by
  induction size : tokens.length using Nat.strong_induction_on generalizing arguments tokens with
  | _ _ inductionHypothesis =>
    rw [arguments?] at read
    obtain ⟨first, isFirst, read⟩ := Option.bind_eq_some_iff.mp read
    have takesFirst := length_expression? isFirst
    dsimp only at read
    split at read
    · grind
    · split at read
      · obtain ⟨others, isOthers, read⟩ := Option.bind_eq_some_iff.mp read
        grind
      · cases read
    · cases read

theorem length_suffixes? (read : suffixes? left tokens = some (exp, rest)) :
    rest.length ≤ tokens.length := by
  induction size : tokens.length using Nat.strong_induction_on generalizing left tokens with
  | _ _ inductionHypothesis =>
    rw [suffixes?.eq_def] at read
    split at read
    case h_1 | h_5 =>
      obtain ⟨inner, -, read⟩ := Option.bind_eq_some_iff.mp read
      grind
    all_goals grind

theorem length_operand? (read : operand? tokens = some (exp, rest)) :
    rest.length < tokens.length := by
  rw [operand?.eq_def] at read
  split at read
  case h_1 | h_2 | h_6 =>
    obtain ⟨inner, isInner, read⟩ := Option.bind_eq_some_iff.mp read
    grind [→ length_expression?, → length_suffixes?]
  all_goals grind [→ length_suffixes?]

theorem length_statements? {stats : List (Stat Float)}
    (read : statements? tokens = some (stats, rest)) : rest.length ≤ tokens.length := by
  induction size : tokens.length using Nat.strong_induction_on generalizing stats tokens with
  | _ _ inductionHypothesis =>
    rw [statements?.eq_def] at read
    split at read
    case h_4 =>
      simp only [Option.bind_eq_bind, Option.bind_eq_some_iff, Prod.exists] at read
      grind [Option.bind_eq_some_iff]
    all_goals grind

theorem length_statement? {stat : Stat Float} (read : statement? tokens = some (stat, rest)) :
    rest.length < tokens.length := by
  rw [statement?.eq_def] at read
  split at read
  case h_1 =>
    obtain ⟨condition, isCondition, read⟩ := Option.bind_eq_some_iff.mp read
    have takesCondition := length_expression? isCondition
    dsimp only at read
    split at read
    case h_2 => cases read
    split at read
    case isFalse => cases read
    obtain ⟨yes, isYes, read⟩ := Option.bind_eq_some_iff.mp read
    grind [Option.bind.eq_def, → length_statements?]
  case h_2 | h_3 | h_4 =>
    obtain ⟨front, isFront, read⟩ := Option.bind_eq_some_iff.mp read
    grind [Option.bind.eq_def, → length_expression?, → length_suffixes?, → length_statements?]
  case h_5 => cases read

end

/-! ### What is read -/

section

variable {α : Type}

mutual

/-- What is read where an expression was written: a choice is two operations. -/
def Exp.expanded : Exp α → Exp α
  | .numeral value => .numeral value
  | .text content => .text content
  | .name found => .name found
  | .index table key => .index table.expanded key.expanded
  | .member table field => .member table.expanded field
  | .unary op operand => .unary op operand.expanded
  | .binary op left right => .binary op left.expanded right.expanded
  | .call callee arguments => .call callee.expanded (Exp.expandedAll arguments)
  | .choose condition yes no =>
    .binary .or (.binary .and condition.expanded yes.expanded) no.expanded

def Exp.expandedAll : List (Exp α) → List (Exp α)
  | [] => []
  | exp :: rest => exp.expanded :: Exp.expandedAll rest

end

mutual

/-- What is read where a statement was written, which is nothing for a comment. -/
def Stat.expanded : Stat α → List (Stat α)
  | .assign table key value => [.assign table.expanded key.expanded value.expanded]
  | .declare name value => [.declare name value.expanded]
  | .call callee arguments => [.call callee.expanded (Exp.expandedAll arguments)]
  | .branch condition yes no =>
    [.branch condition.expanded (Stat.expandedAll yes) (Stat.expandedAll no)]
  | .scope body => [.scope (Stat.expandedAll body)]
  | .comment _ => []

def Stat.expandedAll : List (Stat α) → List (Stat α)
  | [] => []
  | stat :: rest => stat.expanded ++ Stat.expandedAll rest

end

end

/-! ### Where an expression ends -/

/-- The token goes on with the expression in front of it. -/
def Token.isSuffix : Token → Bool
  | .bracket | .dot | .opening | .text _ => true
  | _ => false

def Token.isOperator : Token → Bool
  | .operator _ => true
  | _ => false

theorem suffixes?_stop {front : Exp Float} {rest : List Token}
    (stops : ∀ token ∈ rest.head?, token.isSuffix = false) :
    suffixes? front rest = some (front, rest) := by
  rw [suffixes?.eq_def]
  cases rest with
  | nil => rfl
  | cons token rest =>
    have stop := stops token rfl
    cases token with
    | bracket | dot | opening | text => cases stop
    | _ => rfl

section

variable {limit : Nat} {left right : Exp Float} {tokens rest : List Token}

theorem priority_pos (op : BinaryOp) : 0 < priority op := by
  cases op <;> decide

theorem operations?_stop (stops : ∀ token ∈ rest.head?, token.isOperator = false) :
    operations? limit left rest = some (left, rest) := by
  rw [operations?.eq_def]
  cases rest with
  | nil => rfl
  | cons token rest =>
    have stop := stops token rfl
    cases token with
    | operator => cases stop
    | _ => rfl

/-- An operator that binds no more closely than the limit is left to what stands before. -/
theorem operations?_weak {op : BinaryOp} (weak : priority op ≤ limit) :
    operations? limit left (.operator op :: rest) = some (left, .operator op :: rest) := by
  rw [operations?.eq_def]
  exact if_neg (not_lt.mpr weak)

theorem operations?_operator {op : BinaryOp} (binds : limit < priority op)
    (read : expression? (priority op) tokens = some (right, rest)) :
    operations? limit left (.operator op :: tokens) =
      operations? limit (.binary op left right) rest := by
  rw [operations?.eq_def]
  simp [binds, read, length_expression? read]

theorem expression?_of_operand (read : operand? tokens = some (left, rest)) :
    expression? limit tokens = operations? limit left rest := by
  rw [expression?, read]
  exact if_pos (length_operand? read)

section

variable {later : List Token} (stops : ∀ token ∈ rest.head?, token.isOperator = false)

include stops

theorem expression?_stop (read : operand? tokens = some (left, rest)) :
    expression? limit tokens = some (left, rest) := by
  rw [expression?_of_operand read, operations?_stop stops]

theorem expression?_binary {op : BinaryOp}
    (first : operand? tokens = some (left, .operator op :: later))
    (second : operand? later = some (right, rest)) :
    expression? 0 tokens = some (.binary op left right, rest) := by
  rw [expression?_of_operand first,
    operations?_operator (priority_pos op) (expression?_stop stops second), operations?_stop stops]

/-- Of the two operators of a choice the first one binds more closely. -/
theorem expression?_choose {condition yes no : Exp Float} {last : List Token}
    (first : operand? tokens = some (condition, .operator .and :: later))
    (second : operand? later = some (yes, .operator .or :: last))
    (third : operand? last = some (no, rest)) :
    expression? 0 tokens = some (.binary .or (.binary .and condition yes) no, rest) := by
  have middle : expression? (priority .and) later = some (yes, .operator .or :: last) := by
    rw [expression?_of_operand second, operations?_weak (by decide)]
  rw [expression?_of_operand first, operations?_operator (by decide) middle,
    operations?_operator (by decide) (expression?_stop stops third), operations?_stop stops]

end

theorem operand?_group (read : expression? 0 tokens = some (left, .closing :: rest))
    (stops : ∀ token ∈ rest.head?, token.isSuffix = false) :
    operand? (.opening :: tokens) = some (left, rest) := by
  rw [operand?.eq_def]
  simp [read, (Nat.lt_succ_self _).trans (length_expression? read), suffixes?_stop stops]

theorem operand?_unary (op : UnaryOp)
    (read : expression? unaryPriority tokens = some (left, rest)) :
    operand? (unaryToken op :: tokens) = some (.unary op left, rest) := by
  rw [operand?.eq_def]
  cases op <;> simp only [unaryToken, read] <;> rfl

theorem suffixes?_index {front : Exp Float}
    (read : expression? 0 tokens = some (left, .unbracket :: rest)) :
    suffixes? front (.bracket :: tokens) = suffixes? (.index front left) rest := by
  rw [suffixes?.eq_def]
  simp [read, (Nat.lt_succ_self _).trans (length_expression? read)]

theorem suffixes?_member {front : Exp Float} (field : String) :
    suffixes? front (.dot :: .name field :: rest) = suffixes? (.member front field) rest := by
  rw [suffixes?.eq_def]

theorem suffixes?_call {front : Exp Float} {arguments : List (Exp Float)}
    (read : arguments? tokens = some (arguments, rest)) :
    suffixes? front (.opening :: tokens) = suffixes? (.call front arguments) rest := by
  -- A parenthesis that closes at once has no argument in front of it.
  have notClosed (later : List Token) : tokens ≠ .closing :: later := by
    rintro rfl
    rw [arguments?, expression?, operand?.eq_def] at read
    cases read
  rw [suffixes?.eq_def]
  cases tokens with
  | nil => cases length_arguments? read
  | cons token later =>
    have shorter := length_arguments? read
    cases token with
    | closing => exact absurd rfl (notClosed later)
    | _ => simp only [read, Option.bind_eq_bind, Option.bind_some, if_pos shorter]

end

/-! ### Expressions are read -/

/-- The tokens of an operand are read as the operand, whatever follows it. -/
def Exp.IsRead (exp : Exp Float) : Prop :=
  ∀ rest : List Token, (∀ token ∈ rest.head?, token.isSuffix = false) →
    operand? (exp.tokens ++ rest) = some (exp.expanded, rest)

theorem Exp.IsRead.before {exp : Exp Float} (isRead : exp.IsRead) (token : Token)
    (stops : token.isSuffix = false) (rest : List Token) :
    operand? (exp.tokens ++ token :: rest) = some (exp.expanded, token :: rest) :=
  isRead _ (head_of_cons stops rest)

theorem arguments?_tokens : {arguments : List (Exp Float)} → arguments ≠ [] →
    (∀ argument ∈ arguments, argument.IsRead) → (rest : List Token) →
      arguments? ([Token.comma].intercalate (Exp.eachTokens arguments) ++ .closing :: rest) =
        some (Exp.expandedAll arguments, rest)
  | [exp], _, reads, rest => by
    have first := (reads exp List.mem_cons_self).before .closing rfl rest
    rw [Exp.eachTokens, Exp.eachTokens, List.intercalate_singleton, arguments?,
      expression?_stop (head_of_cons rfl rest) first]
    rfl
  | exp :: other :: others, _, reads, rest => by
    have later := arguments?_tokens (List.cons_ne_nil other others)
      (fun argument member => reads argument (List.mem_cons_of_mem _ member)) rest
    have first := (reads exp List.mem_cons_self).before .comma rfl
      ([Token.comma].intercalate (Exp.eachTokens (other :: others)) ++ .closing :: rest)
    have parts : [Token.comma].intercalate (Exp.eachTokens (exp :: other :: others)) ++
        .closing :: rest = exp.tokens ++
          .comma :: ([Token.comma].intercalate (Exp.eachTokens (other :: others)) ++
            .closing :: rest) := by
      simp [Exp.eachTokens]
    rw [parts, arguments?, expression?_stop (head_of_cons rfl _) first]
    simp only [Option.bind_eq_bind, Option.bind_some, later]
    exact if_pos (by simp; omega)

theorem suffixes?_arguments {arguments : List (Exp Float)}
    (reads : ∀ argument ∈ arguments, argument.IsRead) (front : Exp Float) (rest : List Token) :
    suffixes? front (.opening :: [Token.comma].intercalate (Exp.eachTokens arguments) ++
        .closing :: rest) =
      suffixes? (.call front (Exp.expandedAll arguments)) rest := by
  cases arguments with
  | nil =>
    rw [suffixes?.eq_def]
    rfl
  | cons exp others =>
    exact suffixes?_call (arguments?_tokens (List.cons_ne_nil exp others) reads rest)

mutual

theorem Exp.IsPath.exists_read {path : Exp Float} : path.IsPath → ∃ found more,
    path.tokens = .name found :: more ∧
      ∀ rest, suffixes? (.name found) (more ++ rest) = suffixes? path.expanded rest
  | .name _ => ⟨_, [], rfl, fun _ => rfl⟩
  | .index table key => by
    obtain ⟨found, more, isTokens, read⟩ := table.exists_read
    refine ⟨found, _, by rw [Exp.tokens, isTokens]; rfl, fun rest => ?_⟩
    have inner := key.isRead.before .unbracket rfl rest
    rw [Exp.expanded, ← suffixes?_index (expression?_stop (head_of_cons rfl rest) inner), ← read]
    simp
  | .member table _ => by
    obtain ⟨found, more, isTokens, read⟩ := table.exists_read
    refine ⟨found, _, by rw [Exp.tokens, isTokens]; rfl, fun rest => ?_⟩
    rw [Exp.expanded, ← suffixes?_member, ← read]
    simp
  | .call callee arguments => by
    obtain ⟨found, more, isTokens, read⟩ := callee.exists_read
    refine ⟨found, _, by rw [Exp.tokens, isTokens]; rfl, fun rest => ?_⟩
    have called := suffixes?_arguments fun argument member => (arguments argument member).isRead
    rw [Exp.expanded, ← called, ← read]
    simp

theorem Exp.IsWritable.isRead {exp : Exp Float} : exp.IsWritable → exp.IsRead
  | .numeral _, rest, _ => by
    rw [Exp.tokens, Exp.expanded, List.singleton_append, operand?.eq_def]
  | .text content, rest, _ => by
    rw [Exp.tokens, Exp.expanded, List.singleton_append, operand?.eq_def]
  | .path path, rest, stops => by
    obtain ⟨found, more, isTokens, read⟩ := path.exists_read
    rw [isTokens, List.cons_append, operand?.eq_def]
    exact (read rest).trans (suffixes?_stop stops)
  | .unary op operand, rest, stops => by
    have inner := operand.isRead.before .closing rfl rest
    have whole := operand?_unary op (expression?_stop (head_of_cons rfl rest) inner)
    have grouped := operand?_group (expression?_stop (head_of_cons rfl rest) whole) stops
    simpa [Exp.tokens, Exp.expanded] using grouped
  | .binary op left right, rest, stops => by
    rw [Exp.tokens, Exp.expanded]
    simp only [List.cons_append, List.append_assoc, List.nil_append]
    exact operand?_group (expression?_binary (head_of_cons rfl rest) (left.isRead.before _ rfl _)
      (right.isRead.before _ rfl rest)) stops
  | .choose condition yes no, rest, stops => by
    rw [Exp.tokens, Exp.expanded]
    simp only [List.cons_append, List.append_assoc, List.nil_append]
    exact operand?_group (expression?_choose (head_of_cons rfl rest)
      (condition.isRead.before _ rfl _) (yes.isRead.before _ rfl _) (no.isRead.before _ rfl rest)) stops

end

/-- No expression goes on with the tokens. -/
def IsApart (tokens : List Token) : Prop :=
  ∀ token ∈ tokens.head?, token.isSuffix = false ∧ token.isOperator = false

theorem isApart_cons (token : Token) (isNoSuffix : token.isSuffix = false)
    (isNoOperator : token.isOperator = false) (rest : List Token) : IsApart (token :: rest) := by
  rintro _ ⟨⟩
  exact ⟨isNoSuffix, isNoOperator⟩

theorem Exp.IsWritable.expression?_tokens {exp : Exp Float} (writable : exp.IsWritable)
    (limit : Nat) {rest : List Token} (stops : IsApart rest) :
    expression? limit (exp.tokens ++ rest) = some (exp.expanded, rest) :=
  expression?_stop (fun token first => (stops token first).2)
    (writable.isRead rest fun token first => (stops token first).1)

/-! ### Statements are read -/

section

variable {tokens first second rest : List Token} {condition value : Exp Float}
  {yes no body : List (Stat Float)}

theorem statement?_branch (decided : expression? 0 tokens = some (condition, .yes :: first))
    (read : statements? first = some (yes, .finish :: rest)) :
    statement? (.branch :: tokens) = some (.branch condition yes [], rest) := by
  have takesCondition : first.length < tokens.length :=
    (Nat.lt_succ_self _).trans (length_expression? decided)
  rw [statement?.eq_def]
  simp only [decided, Option.bind_eq_bind, Option.bind_some, read, if_pos takesCondition]

theorem statement?_branch_else (decided : expression? 0 tokens = some (condition, .yes :: first))
    (read : statements? first = some (yes, .no :: second))
    (otherwise : statements? second = some (no, .finish :: rest)) :
    statement? (.branch :: tokens) = some (.branch condition yes no, rest) := by
  have takesCondition : first.length < tokens.length :=
    (Nat.lt_succ_self _).trans (length_expression? decided)
  have takesYes : second.length < tokens.length :=
    ((Nat.lt_succ_self _).trans_le (length_statements? read)).trans takesCondition
  rw [statement?.eq_def]
  simp only [decided, Option.bind_eq_bind, Option.bind_some, read, otherwise,
    if_pos takesCondition, if_pos takesYes]

theorem statement?_scope (read : statements? tokens = some (body, .finish :: rest)) :
    statement? (.scope :: tokens) = some (.scope body, rest) := by
  rw [statement?.eq_def]
  simp only [Option.bind_eq_bind, Option.bind_some, read]

theorem statement?_declare (name : String) (read : expression? 0 tokens = some (value, rest)) :
    statement? (.declare :: .name name :: .assign :: tokens) = some (.declare name value, rest) := by
  rw [statement?.eq_def]
  simp only [Option.bind_eq_bind, Option.bind_some, read]

theorem statement?_assign {table key : Exp Float} {found : String}
    (front : suffixes? (.name found) tokens = some (.index table key, .assign :: first))
    (read : expression? 0 first = some (value, rest)) :
    statement? (.name found :: tokens) = some (.assign table key value, rest) := by
  rw [statement?.eq_def]
  simp only [Option.bind_eq_bind, Option.bind_some, front, read]

theorem statement?_call {callee : Exp Float} {arguments : List (Exp Float)} {found : String}
    (front : suffixes? (.name found) tokens = some (.call callee arguments, rest)) :
    statement? (.name found :: tokens) = some (.call callee arguments, rest) := by
  rw [statement?.eq_def]
  simp only [Option.bind_eq_bind, Option.bind_some, front]

/-- The word closes a block. -/
def Token.isClosing : Token → Bool
  | .finish | .no => true
  | _ => false

theorem statements?_closing {token : Token} (closes : token.isClosing = true) :
    statements? (token :: rest) = some ([], token :: rest) := by
  rw [statements?.eq_def]
  cases token with
  | finish | no => rfl
  | _ => cases closes

theorem statements?_cons {token : Token} {stat : Stat Float} {stats : List (Stat Float)}
    (goesOn : token.isClosing = false) (read : statement? (token :: tokens) = some (stat, first))
    (later : statements? first = some (stats, rest)) :
    statements? (token :: tokens) = some (stat :: stats, rest) := by
  have takesStatement : first.length ≤ tokens.length :=
    Nat.le_of_lt_succ (length_statement? read)
  rw [statements?.eq_def]
  cases token with
  | finish | no => cases goesOn
  | _ => simp only [Option.bind_eq_bind, Option.bind_some, read, later, if_pos takesStatement]

end

/-- In front of statements that are read, the tokens of a statement are read as the statement. -/
def Stat.IsRead (stat : Stat Float) : Prop :=
  ∀ {rest left : List Token} {stats : List (Stat Float)}, IsApart rest →
    statements? rest = some (stats, left) → IsApart (stat.tokens ++ rest) ∧
      statements? (stat.tokens ++ rest) = some (stat.expanded ++ stats, left)

theorem statements?_allTokens {stats others : List (Stat Float)}
    (isRead : ∀ stat ∈ stats, stat.IsRead) {rest left : List Token} (apart : IsApart rest)
    (read : statements? rest = some (others, left)) :
    IsApart (Stat.allTokens stats ++ rest) ∧
      statements? (Stat.allTokens stats ++ rest) = some (Stat.expandedAll stats ++ others, left) := by
  induction stats with
  | nil =>
    rw [Stat.allTokens, Stat.expandedAll]
    exact ⟨apart, read⟩
  | cons stat stats inductionHypothesis =>
    obtain ⟨apartLater, readLater⟩ :=
      inductionHypothesis fun other member => isRead other (List.mem_cons_of_mem _ member)
    rw [Stat.allTokens, Stat.expandedAll, List.append_assoc, List.append_assoc]
    exact isRead stat List.mem_cons_self apartLater readLater

/-- The statements of a block are read up to the word that closes it. -/
theorem statements?_body {stats : List (Stat Float)} (isRead : ∀ stat ∈ stats, stat.IsRead)
    (token : Token) (closes : token.isClosing = true) (rest : List Token) :
    statements? (Stat.allTokens stats ++ token :: rest) =
      some (Stat.expandedAll stats, token :: rest) := by
  have apart : IsApart (token :: rest) := by
    cases token with
    | finish | no => exact isApart_cons _ rfl rfl rest
    | _ => cases closes
  have read := (statements?_allTokens isRead apart (statements?_closing closes)).2
  rwa [List.append_nil] at read

/-- A branch without statements for the other case has no word for it. -/
theorem statement?_tokens {condition : Exp Float} {yes no : List (Stat Float)}
    (isCondition : condition.IsWritable) (isYes : ∀ stat ∈ yes, stat.IsRead)
    (isNo : ∀ stat ∈ no, stat.IsRead) (rest : List Token) :
    statement? ((Stat.branch condition yes no).tokens ++ rest) =
      some (.branch condition.expanded (Stat.expandedAll yes) (Stat.expandedAll no), rest) := by
  have decided (later : List Token) :=
    isCondition.expression?_tokens 0 (isApart_cons .yes rfl rfl later)
  cases no with
  | nil =>
    have whole := statement?_branch (decided _) (statements?_body isYes .finish rfl rest)
    simpa [Stat.tokens, Stat.expandedAll] using whole
  | cons stat others =>
    have readYes (later : List Token) := statements?_body isYes .no rfl later
    have readNo := statements?_body isNo .finish rfl rest
    simpa [Stat.tokens] using statement?_branch_else (decided _) (readYes _) readNo

theorem Stat.IsWritable.isRead {stat : Stat Float} (writable : stat.IsWritable) : stat.IsRead := by
  induction writable with
  | @assign table key value isPath isKey isValue =>
    intro rest left stats apart read
    obtain ⟨found, more, isTokens, front⟩ := (Exp.IsPath.index isPath isKey).exists_read
    have parts : (Stat.assign table key value).tokens ++ rest =
        .name found :: (more ++ .assign :: (value.tokens ++ rest)) := by
      rw [← List.cons_append, ← isTokens]
      simp [Stat.tokens, Exp.tokens]
    have indexed := front (.assign :: (value.tokens ++ rest))
    rw [suffixes?_stop (head_of_cons rfl _)] at indexed
    rw [parts]
    exact ⟨isApart_cons _ rfl rfl _,
      statements?_cons rfl (statement?_assign indexed (isValue.expression?_tokens 0 apart)) read⟩
  | declare _ value =>
    intro rest left stats apart read
    refine ⟨isApart_cons _ rfl rfl _, statements?_cons rfl ?_ read⟩
    exact statement?_declare _ (value.expression?_tokens 0 apart)
  | call callee arguments =>
    intro rest left stats apart read
    obtain ⟨found, more, isTokens, front⟩ := (Exp.IsPath.call callee arguments).exists_read
    rw [Stat.tokens, isTokens]
    refine ⟨isApart_cons _ rfl rfl _, statements?_cons rfl (statement?_call ?_) read⟩
    exact (front rest).trans (suffixes?_stop fun token first => (apart token first).1)
  | branch condition _ _ isYes isNo =>
    intro rest left stats apart read
    exact ⟨isApart_cons _ rfl rfl _,
      statements?_cons rfl (statement?_tokens condition isYes isNo rest) read⟩
  | scope _ isBody =>
    intro rest left stats apart read
    have inner := statements?_body isBody .finish rfl rest
    have whole := statements?_cons rfl (statement?_scope inner) read
    refine ⟨isApart_cons _ rfl rfl _, ?_⟩
    simpa [Stat.tokens, Stat.expanded] using whole
  | comment text =>
    intro rest left stats apart read
    rw [Stat.tokens, Stat.expanded]
    exact ⟨apart, read⟩

/-- The text of a chunk that can be written is read as the chunk, however it is indented. -/
theorem Chunk.parse?_print (layout : Layout) {chunk : Chunk Float}
    (writable : ∀ stat ∈ chunk, stat.IsWritable) :
    parse? (Chunk.print layout chunk) = some (Stat.expandedAll chunk) := by
  have ended : statements? [] = some ([], []) := by rw [statements?.eq_def]
  have read := (statements?_allTokens (fun stat member => (writable stat member).isRead)
    (by simp [IsApart]) ended).2
  rw [List.append_nil, List.append_nil] at read
  rw [parse?, Chunk.lex_print layout writable]
  simp only [Option.bind_eq_bind, Option.bind_some, read]
  rfl

end Lua

end Stagecraft
