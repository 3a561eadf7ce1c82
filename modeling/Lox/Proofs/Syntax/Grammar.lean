import Lox.Proofs.Syntax.Steps
import Lox.Tree.Level

namespace Lox.Grammar

open Lox.Parser (Level Operator Spells)

/-- The operators of each level, from the loosest to the tightest. -/
inductive Joins : Level → Symbol → Operator → Prop
  | or : Joins .or .or (.logical .or)
  | and : Joins .and .and (.logical .and)
  | notEqual : Joins .equality .bangEqual (.binary .notEqual)
  | equal : Joins .equality .equalEqual (.binary .equal)
  | less : Joins .comparison .less (.binary .less)
  | lessEqual : Joins .comparison .lessEqual (.binary .lessEqual)
  | greater : Joins .comparison .greater (.binary .greater)
  | greaterEqual : Joins .comparison .greaterEqual (.binary .greaterEqual)
  | add : Joins .term .plus (.binary .add)
  | subtract : Joins .term .minus (.binary .subtract)
  | multiply : Joins .factor .star (.binary .multiply)
  | divide : Joins .factor .slash (.binary .divide)

/-- The operands of a level are the chains of the level below it. -/
inductive Below : Level → Level → Prop
  | and : Below .or .and
  | equality : Below .and .equality
  | comparison : Below .equality .comparison
  | term : Below .comparison .term
  | factor : Below .term .factor

/-- The operators that stand before their operand. -/
inductive Applies : Symbol → UnaryOp → Prop
  | not : Applies .bang .not
  | negate : Applies .minus .negate

/-- The tokens that are a literal. -/
inductive Denotes : Token → Literal → Prop
  | true : Denotes (.symbol .true) (.bool true)
  | false : Denotes (.symbol .false) (.bool false)
  | nil : Denotes (.symbol .nil) .nil
  | number (value : Float) : Denotes (.number value) (.number value)
  | string (content : String) : Denotes (.string content) (.string content)

/-- The span from the start of the first lexeme to the end of the last one. -/
def extent (lexemes : List Lexeme) : Span :=
  ⟨(lexemes.head?.map fun lexeme => lexeme.span.start).getD 0,
    (lexemes.getLast?.map fun lexeme => lexeme.span.stop).getD 0⟩

/-- The tree of two operands reaches from the left one to the right one, and its operator has a
place of its own. -/
def node (place : Span) (left right : Expr) : Operator → Expr
  | .logical op => .logical ⟨left.span.start, right.span.stop⟩ ⟨op, place⟩ left right
  | .binary op => .binary ⟨left.span.start, right.span.stop⟩ ⟨op, place⟩ left right

/-- The test of a counting loop that has none is true. -/
def loopTest (span : Span) : Option Expr → Expr
  | none => .literal span (.bool true)
  | some test => test

/-- The step of a counting loop stands behind the body, in a block around both. -/
def loopBody (span : Span) (body : Stmt) : Option Expr → Stmt
  | none => body
  | some step => .block span [body, .expression step.span step]

/-- The first statement of a counting loop stands before the loop, in a block around both. -/
def loopBlock (span : Span) (loop : Stmt) : Option Stmt → Stmt
  | none => loop
  | some first => .block span [first, loop]

/-- `for (first; test; step) body` has the tree of `{ first while (test) { body step } }`. -/
def countingLoop (span : Span) (initial : Option Stmt) (test step : Option Expr) (body : Stmt) :
    Stmt :=
  loopBlock span (.loop span (loopTest span test) (loopBody span body step)) initial

mutual

/-- `expr = IDENT '=' expr | logic_or`. The numbers before and behind the lexemes are those of
the next occurrence. -/
inductive Expression : Nat → List Lexeme → Expr → Nat → Prop
  | assign {first next : Nat} {name text : String} {span : Span} {equal : Lexeme}
      {lexemes : List Lexeme} {value : Expr}
      (sign : Spells .equal equal) (assigned : Expression (first + 1) lexemes value next) :
      Expression first (⟨.identifier name, text, span⟩ :: equal :: lexemes)
        (.assign ⟨span.start, value.span.stop⟩ ⟨first, name, span⟩ value) next
  | chain {first next : Nat} {lexemes : List Lexeme} {expr : Expr}
      (operands : Chain .or first lexemes expr next) : Expression first lexemes expr next

/-- The operands of `logic_or` are `logic_and`, and so on down to those of `factor`, which are
`unary`. -/
inductive Operand : Level → Nat → List Lexeme → Expr → Nat → Prop
  | tighter {level tighter : Level} {first next : Nat} {lexemes : List Lexeme} {expr : Expr}
      (below : Below level tighter) (operands : Chain tighter first lexemes expr next) :
      Operand level first lexemes expr next
  | unary {first next : Nat} {lexemes : List Lexeme} {expr : Expr}
      (operand : Unary first lexemes expr next) : Operand .factor first lexemes expr next

/-- `chain = operand (operator operand)*`, from left to right. -/
inductive Chain : Level → Nat → List Lexeme → Expr → Nat → Prop
  | start {level : Level} {first middle next : Nat} {lexemes rest : List Lexeme}
      {left expr : Expr} (operand : Operand level first lexemes left middle)
      (joined : ChainAfter level middle left rest expr next) :
      Chain level first (lexemes ++ rest) expr next

/-- The part of a chain behind its first operands, which form an expression already. -/
inductive ChainAfter : Level → Nat → Expr → List Lexeme → Expr → Nat → Prop
  | done {level : Level} {first : Nat} {left : Expr} : ChainAfter level first left [] left first
  | more {level : Level} {first middle next : Nat} {symbol : Symbol} {operator : Operator}
      {sign : Lexeme} {lexemes rest : List Lexeme} {left right expr : Expr}
      (joins : Joins level symbol operator) (spelled : Spells symbol sign)
      (operand : Operand level first lexemes right middle)
      (joined : ChainAfter level middle (node sign.span left right operator) rest expr next) :
      ChainAfter level first left (sign :: (lexemes ++ rest)) expr next

/-- `unary = ('!' | '-') unary | call`. -/
inductive Unary : Nat → List Lexeme → Expr → Nat → Prop
  | operator {first next : Nat} {symbol : Symbol} {op : UnaryOp} {sign : Lexeme}
      {lexemes : List Lexeme} {operand : Expr}
      (applies : Applies symbol op) (spelled : Spells symbol sign)
      (applied : Unary first lexemes operand next) :
      Unary first (sign :: lexemes)
        (.unary ⟨sign.span.start, operand.span.stop⟩ ⟨op, sign.span⟩ operand) next
  | call {first next : Nat} {lexemes : List Lexeme} {expr : Expr}
      (called : Call first lexemes expr next) : Unary first lexemes expr next

/-- `call = primary ('(' args? ')')*`, from left to right. -/
inductive Call : Nat → List Lexeme → Expr → Nat → Prop
  | start {first middle next : Nat} {lexemes rest : List Lexeme} {callee expr : Expr}
      (operand : Primary first lexemes callee middle)
      (given : CallAfter middle callee rest expr next) : Call first (lexemes ++ rest) expr next

/-- The part of a call behind a callee. -/
inductive CallAfter : Nat → Expr → List Lexeme → Expr → Nat → Prop
  | done {first : Nat} {callee : Expr} : CallAfter first callee [] callee first
  | more {first middle next : Nat} {opening closing : Lexeme} {lexemes rest : List Lexeme}
      {callee expr : Expr} {given : List Expr} (opens : Spells .leftParen opening)
      (arguments : ArgumentList first lexemes given middle) (closes : Spells .rightParen closing)
      (called : CallAfter middle
        (.call ⟨callee.span.start, closing.span.stop⟩ closing.span callee given) rest expr next) :
      CallAfter first callee (opening :: (lexemes ++ closing :: rest)) expr next

/-- `args?`, of which there are no more than 255. -/
inductive ArgumentList : Nat → List Lexeme → List Expr → Nat → Prop
  | none {first : Nat} : ArgumentList first [] [] first
  | some {first next : Nat} {lexemes : List Lexeme} {given : List Expr}
      (arguments : Arguments first lexemes given next) (short : given.length ≤ 255) :
      ArgumentList first lexemes given next

/-- `args = expr (',' expr)*`. -/
inductive Arguments : Nat → List Lexeme → List Expr → Nat → Prop
  | last {first next : Nat} {lexemes : List Lexeme} {expr : Expr}
      (argument : Expression first lexemes expr next) : Arguments first lexemes [expr] next
  | more {first middle next : Nat} {comma : Lexeme} {lexemes rest : List Lexeme} {expr : Expr}
      {given : List Expr} (argument : Expression first lexemes expr middle)
      (separated : Spells .comma comma) (arguments : Arguments middle rest given next) :
      Arguments first (lexemes ++ comma :: rest) (expr :: given) next

/-- `primary = 'true' | 'false' | 'nil' | NUMBER | STRING | IDENT | '(' expr ')'`. -/
inductive Primary : Nat → List Lexeme → Expr → Nat → Prop
  | literal {first : Nat} {token : Token} {text : String} {span : Span} {value : Literal}
      (denotes : Denotes token value) :
      Primary first [⟨token, text, span⟩] (.literal span value) first
  | variable {first : Nat} {name text : String} {span : Span} :
      Primary first [⟨.identifier name, text, span⟩] (.variable ⟨first, name, span⟩) (first + 1)
  | group {first next : Nat} {opening closing : Lexeme} {lexemes : List Lexeme} {inner : Expr}
      (opens : Spells .leftParen opening) (grouped : Expression first lexemes inner next)
      (closes : Spells .rightParen closing) :
      Primary first (opening :: (lexemes ++ [closing]))
        (.group ⟨opening.span.start, closing.span.stop⟩ inner) next

end

/-- `expr?`. -/
inductive OptionalExpression : Nat → List Lexeme → Option Expr → Nat → Prop
  | none {first : Nat} : OptionalExpression first [] none first
  | some {first next : Nat} {lexemes : List Lexeme} {expr : Expr}
      (given : Expression first lexemes expr next) :
      OptionalExpression first lexemes (some expr) next

/-- `params = IDENT (',' IDENT)*`. -/
inductive Parameters : List Lexeme → List Name → Prop
  | last {name text : String} {span : Span} :
      Parameters [⟨.identifier name, text, span⟩] [⟨name, span⟩]
  | more {name text : String} {span : Span} {comma : Lexeme} {rest : List Lexeme}
      {names : List Name} (separated : Spells .comma comma) (parameters : Parameters rest names) :
      Parameters (⟨.identifier name, text, span⟩ :: comma :: rest) (⟨name, span⟩ :: names)

/-- `params?`, of which there are no more than 255. -/
inductive ParameterList : List Lexeme → List Name → Prop
  | none : ParameterList [] []
  | some {lexemes : List Lexeme} {names : List Name} (parameters : Parameters lexemes names)
      (short : names.length ≤ 255) : ParameterList lexemes names

/-- `('=' expr)?`. -/
inductive Initializer : Nat → List Lexeme → Option Expr → Nat → Prop
  | none {first : Nat} : Initializer first [] none first
  | some {first next : Nat} {equal : Lexeme} {lexemes : List Lexeme} {expr : Expr}
      (sign : Spells .equal equal) (value : Expression first lexemes expr next) :
      Initializer first (equal :: lexemes) (some expr) next

/-- `vardecl = 'var' IDENT ('=' expr)? ';'`. -/
inductive VariableDeclaration : Nat → List Lexeme → Stmt → Nat → Prop
  | declare {first next : Nat} {keyword closing : Lexeme} {name text : String} {span : Span}
      {lexemes : List Lexeme} {value : Option Expr} (opens : Spells .var keyword)
      (initializer : Initializer first lexemes value next) (closes : Spells .semicolon closing) :
      VariableDeclaration first (keyword :: ⟨.identifier name, text, span⟩ :: (lexemes ++ [closing]))
        (.variable (extent (keyword :: ⟨.identifier name, text, span⟩ :: (lexemes ++ [closing])))
          ⟨name, span⟩ value) next

/-- `expr ';'`. -/
inductive ExpressionStatement : Nat → List Lexeme → Stmt → Nat → Prop
  | evaluate {first next : Nat} {closing : Lexeme} {lexemes : List Lexeme} {value : Expr}
      (evaluated : Expression first lexemes value next) (closes : Spells .semicolon closing) :
      ExpressionStatement first (lexemes ++ [closing])
        (.expression (extent (lexemes ++ [closing])) value) next

/-- `';' | vardecl | expr ';'`. -/
inductive LoopStart : Nat → List Lexeme → Option Stmt → Nat → Prop
  | none {first : Nat} {closing : Lexeme} (closes : Spells .semicolon closing) :
      LoopStart first [closing] none first
  | variable {first next : Nat} {lexemes : List Lexeme} {stmt : Stmt}
      (declared : VariableDeclaration first lexemes stmt next) :
      LoopStart first lexemes (some stmt) next
  | expression {first next : Nat} {lexemes : List Lexeme} {stmt : Stmt}
      (evaluated : ExpressionStatement first lexemes stmt next) :
      LoopStart first lexemes (some stmt) next

/-- An `else` belongs to any `if` before it that has none, or to the nearest one. -/
inductive Attachment where
  | any
  | nearest
  deriving DecidableEq, Repr

mutual

/-- `decl = 'fun' IDENT '(' params? ')' '{' decl* '}' | vardecl | stmt`. -/
inductive Declaration (attachment : Attachment) : Nat → List Lexeme → Stmt → Nat → Prop
  | function {first next : Nat} {keyword opening closing leftBrace rightBrace : Lexeme}
      {name text : String} {span : Span} {lexemes rest : List Lexeme} {names : List Name}
      {body : List Stmt} (opens : Spells .fun keyword) (listOpens : Spells .leftParen opening)
      (parameters : ParameterList lexemes names) (listCloses : Spells .rightParen closing)
      (bodyOpens : Spells .leftBrace leftBrace)
      (declarations : Declarations attachment first rest body next)
      (bodyCloses : Spells .rightBrace rightBrace) :
      Declaration attachment first
        (keyword :: ⟨.identifier name, text, span⟩ :: opening ::
          (lexemes ++ closing :: leftBrace :: (rest ++ [rightBrace])))
        (.function
          (extent (keyword :: ⟨.identifier name, text, span⟩ :: opening ::
            (lexemes ++ closing :: leftBrace :: (rest ++ [rightBrace]))))
          ⟨name, span⟩ names body) next
  | variable {first next : Nat} {lexemes : List Lexeme} {stmt : Stmt}
      (declared : VariableDeclaration first lexemes stmt next) :
      Declaration attachment first lexemes stmt next
  | statement {first next : Nat} {lexemes : List Lexeme} {stmt : Stmt} {dangling : Bool}
      (stated : Statement attachment first lexemes stmt dangling next) :
      Declaration attachment first lexemes stmt next

/-- `stmt = 'for' '(' (';' | vardecl | expr ';') expr? ';' expr? ')' stmt
| 'if' '(' expr ')' stmt ('else' stmt)? | 'print' expr ';' | 'return' expr? ';'
| 'while' '(' expr ')' stmt | '{' decl* '}' | expr ';'`. The truth value tells of a statement
whether it ends with an `if` that has no `else`. -/
inductive Statement (attachment : Attachment) : Nat → List Lexeme → Stmt → Bool → Nat → Prop
  | forLoop {first second third fourth next : Nat} {keyword opening separator closing : Lexeme}
      {start middle last rest : List Lexeme} {initial : Option Stmt} {test step : Option Expr}
      {body : Stmt} {dangling : Bool} (opens : Spells .for keyword)
      (partsOpen : Spells .leftParen opening) (starts : LoopStart first start initial second)
      (tests : OptionalExpression second middle test third)
      (separates : Spells .semicolon separator)
      (steps : OptionalExpression third last step fourth)
      (partsClose : Spells .rightParen closing)
      (repeated : Statement attachment fourth rest body dangling next) :
      Statement attachment first
        (keyword :: opening :: (start ++ (middle ++ separator :: (last ++ closing :: rest))))
        (countingLoop
          (extent
            (keyword :: opening :: (start ++ (middle ++ separator :: (last ++ closing :: rest)))))
          initial test step body) dangling next
  | branch {first second next : Nat} {keyword opening closing : Lexeme}
      {lexemes rest : List Lexeme} {test : Expr} {consequent : Stmt} {dangling : Bool}
      (opens : Spells .if keyword) (testOpens : Spells .leftParen opening)
      (tests : Expression first lexemes test second) (testCloses : Spells .rightParen closing)
      (chosen : Statement attachment second rest consequent dangling next) :
      Statement attachment first (keyword :: opening :: (lexemes ++ closing :: rest))
        (.branch (extent (keyword :: opening :: (lexemes ++ closing :: rest))) test consequent none)
        true next
  | alternative {first second third next : Nat} {keyword opening closing otherwise : Lexeme}
      {lexemes rest others : List Lexeme} {test : Expr} {consequent other : Stmt}
      {inner dangling : Bool} (opens : Spells .if keyword) (testOpens : Spells .leftParen opening)
      (tests : Expression first lexemes test second) (testCloses : Spells .rightParen closing)
      (chosen : Statement attachment second rest consequent inner third)
      (belongs : attachment = .nearest → inner = false) (divides : Spells .else otherwise)
      (refused : Statement attachment third others other dangling next) :
      Statement attachment first
        (keyword :: opening :: (lexemes ++ closing :: (rest ++ otherwise :: others)))
        (.branch
          (extent (keyword :: opening :: (lexemes ++ closing :: (rest ++ otherwise :: others))))
          test consequent (some other)) dangling next
  | print {first next : Nat} {keyword closing : Lexeme} {lexemes : List Lexeme} {value : Expr}
      (opens : Spells .print keyword) (printed : Expression first lexemes value next)
      (closes : Spells .semicolon closing) :
      Statement attachment first (keyword :: (lexemes ++ [closing]))
        (.print (extent (keyword :: (lexemes ++ [closing]))) value) false next
  | giveBack {first next : Nat} {keyword closing : Lexeme} {lexemes : List Lexeme}
      {value : Option Expr} (opens : Spells .return keyword)
      (given : OptionalExpression first lexemes value next) (closes : Spells .semicolon closing) :
      Statement attachment first (keyword :: (lexemes ++ [closing]))
        (.giveBack (extent (keyword :: (lexemes ++ [closing]))) keyword.span value) false next
  | loop {first second next : Nat} {keyword opening closing : Lexeme} {lexemes rest : List Lexeme}
      {test : Expr} {body : Stmt} {dangling : Bool} (opens : Spells .while keyword)
      (testOpens : Spells .leftParen opening) (tests : Expression first lexemes test second)
      (testCloses : Spells .rightParen closing)
      (repeated : Statement attachment second rest body dangling next) :
      Statement attachment first (keyword :: opening :: (lexemes ++ closing :: rest))
        (.loop (extent (keyword :: opening :: (lexemes ++ closing :: rest))) test body)
        dangling next
  | block {first next : Nat} {leftBrace rightBrace : Lexeme} {lexemes : List Lexeme}
      {body : List Stmt} (opens : Spells .leftBrace leftBrace)
      (declarations : Declarations attachment first lexemes body next)
      (closes : Spells .rightBrace rightBrace) :
      Statement attachment first (leftBrace :: (lexemes ++ [rightBrace]))
        (.block (extent (leftBrace :: (lexemes ++ [rightBrace]))) body) false next
  | expression {first next : Nat} {lexemes : List Lexeme} {stmt : Stmt}
      (evaluated : ExpressionStatement first lexemes stmt next) :
      Statement attachment first lexemes stmt false next

/-- `decl*`. -/
inductive Declarations (attachment : Attachment) : Nat → List Lexeme → List Stmt → Nat → Prop
  | none {first : Nat} : Declarations attachment first [] [] first
  | more {first middle next : Nat} {lexemes rest : List Lexeme} {stmt : Stmt} {stmts : List Stmt}
      (declared : Declaration attachment first lexemes stmt middle)
      (declarations : Declarations attachment middle rest stmts next) :
      Declarations attachment first (lexemes ++ rest) (stmt :: stmts) next

end

/-- `program = decl*`: the lexemes form a program that has a tree. -/
def Forms (attachment : Attachment) (lexemes : List Lexeme) (program : Program) : Prop :=
  ∃ occurrences, Declarations attachment 0 lexemes program occurrences

/-- The parser makes the tree of an operator that the grammar gives to it. -/
theorem apply_eq_node (operator : Operator) (place : Span) (left right : Expr) :
    operator.apply place left right = node place left right operator := by
  cases operator <;> rfl

/-- The parser makes the counting loop of the grammar. -/
theorem forLoop_eq_countingLoop (span : Span) (initial : Option Stmt) (test step : Option Expr)
    (body : Stmt) :
    .forLoop span initial test step body = countingLoop span initial test step body := by
  cases initial <;> cases test <;> cases step <;> rfl

/-- An operator never makes a variable. -/
theorem node_ne_variable (place : Span) (left right : Expr) (operator : Operator)
    (target : Occurrence) : node place left right operator ≠ .variable target := by
  cases operator <;> exact nofun

/-- A chain that gives a variable has no operators. -/
theorem ChainAfter.of_variable {level : Level} {first next : Nat} {lexemes : List Lexeme}
    {left expr : Expr} {target : Occurrence} :
    ChainAfter level first left lexemes expr next → expr = .variable target →
      lexemes = [] ∧ left = .variable target ∧ first = next
  | .done, same => ⟨rfl, same, rfl⟩
  | .more _ _ _ joined, same =>
      absurd (of_variable joined same).2.1 (node_ne_variable _ _ _ _ _)

/-- Calls that give a variable are none. -/
theorem CallAfter.of_variable {first next : Nat} {lexemes : List Lexeme} {callee expr : Expr}
    {target : Occurrence} :
    CallAfter first callee lexemes expr next → expr = .variable target →
      lexemes = [] ∧ callee = .variable target ∧ first = next
  | .done, same => ⟨rfl, same, rfl⟩
  | .more _ _ _ called, same => nomatch (of_variable called same).2.1

/-- A variable stands alone. -/
theorem Unary.of_variable {first next : Nat} {lexemes : List Lexeme} {target : Occurrence}
    (operand : Unary first lexemes (.variable target) next) :
    ∃ text, lexemes = [⟨.identifier target.name, text, target.span⟩] ∧ first = target.id ∧
      next = first + 1 := by
  obtain ⟨⟩ | ⟨⟨callee, called⟩⟩ := operand
  obtain ⟨rfl, rfl, rfl⟩ := called.of_variable rfl
  cases callee
  exact ⟨_, rfl, rfl, rfl⟩

mutual

/-- An operand that gives a variable is a unary expression. -/
theorem Operand.of_variable {level : Level} {first next : Nat} {lexemes : List Lexeme}
    {expr : Expr} {target : Occurrence} :
    Operand level first lexemes expr next → expr = .variable target →
      Unary first lexemes (.variable target) next
  | .tighter _ operands, same => operands.of_variable same
  | .unary operand, same => same ▸ operand

/-- A chain of any level that gives a variable is a unary expression. -/
theorem Chain.of_variable {level : Level} {first next : Nat} {lexemes : List Lexeme}
    {expr : Expr} {target : Occurrence} :
    Chain level first lexemes expr next → expr = .variable target →
      Unary first lexemes (.variable target) next
  | .start operand joined, same => by
      obtain ⟨rfl, left, rfl⟩ := joined.of_variable same
      rw [List.append_nil]
      exact operand.of_variable left

end

end Lox.Grammar
