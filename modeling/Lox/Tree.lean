/-
This file gives the trees of expressions and statements.
-/

import Lox.Token

namespace Lox

/-- A declared name stands where it is declared. -/
abbrev Name := Located String

/-- An occurrence reads or assigns a variable. -/
structure Occurrence where
  /-- The number tells the occurrence from all others of one program. It is a word of 32 bits, and
  `NumbersIdentify.narrow` and `NumbersIdentify.distinctWords` say when no number is too large. -/
  id : Nat
  name : String
  span : Span
  deriving DecidableEq, Repr

/-- A literal denotes its own value. -/
inductive Literal where
  | nil
  | bool (value : Bool)
  | number (value : Float)
  | string (content : String)
  deriving Repr

inductive UnaryOp where
  | negate
  | not
  deriving DecidableEq, Repr

def UnaryOp.text : UnaryOp → String
  | .negate => "-"
  | .not => "!"

inductive BinaryOp where
  | equal
  | notEqual
  | greater
  | greaterEqual
  | less
  | lessEqual
  | add
  | subtract
  | multiply
  | divide
  deriving DecidableEq, Repr

def BinaryOp.text : BinaryOp → String
  | .equal => "=="
  | .notEqual => "!="
  | .greater => ">"
  | .greaterEqual => ">="
  | .less => "<"
  | .lessEqual => "<="
  | .add => "+"
  | .subtract => "-"
  | .multiply => "*"
  | .divide => "/"

/-- A logical operator evaluates its right operand only when the left one leaves the answer
open. -/
inductive LogicalOp where
  | and
  | or
  deriving DecidableEq, Repr

def LogicalOp.text : LogicalOp → String
  | .and => "and"
  | .or => "or"

/-- Every expression carries its span, and an operator or a closing parenthesis its own. -/
inductive Expr where
  | literal (span : Span) (value : Literal)
  | variable (target : Occurrence)
  | assign (span : Span) (target : Occurrence) (value : Expr)
  | group (span : Span) (inner : Expr)
  | unary (span : Span) (op : Located UnaryOp) (operand : Expr)
  | binary (span : Span) (op : Located BinaryOp) (left right : Expr)
  | logical (span : Span) (op : Located LogicalOp) (left right : Expr)
  | call (span paren : Span) (callee : Expr) (arguments : List Expr)
  deriving Repr

def Expr.span : Expr → Span
  | .variable target => target.span
  | .literal span _ | .assign span _ _ | .group span _ | .unary span _ _ | .binary span _ _ _
  | .logical span _ _ _ | .call span _ _ _ => span

/-- Every statement carries its span, and a return the span of its keyword. -/
inductive Stmt where
  | expression (span : Span) (value : Expr)
  | print (span : Span) (value : Expr)
  | variable (span : Span) (name : Name) (initializer : Option Expr)
  | function (span : Span) (name : Name) (parameters : List Name) (body : List Stmt)
  | block (span : Span) (body : List Stmt)
  | branch (span : Span) (condition : Expr) (consequent : Stmt) (alternative : Option Stmt)
  | loop (span : Span) (condition : Expr) (body : Stmt)
  | giveBack (span keyword : Span) (value : Option Expr)
  deriving Repr

def Stmt.span : Stmt → Span
  | .expression span _ | .print span _ | .variable span _ _ | .function span _ _ _
  | .block span _ | .branch span _ _ _ | .loop span _ _ | .giveBack span _ _ => span

/-- A program is its top-level statements. -/
abbrev Program := List Stmt

/-- A counting loop is a block with its first statement and a loop whose body ends with the
step. A missing condition is true. -/
def Stmt.forLoop (span : Span) (first : Option Stmt) (condition step : Option Expr)
    (body : Stmt) : Stmt :=
  let body :=
    match step with
    | some step => .block span [body, .expression step.span step]
    | none => body
  let loop := .loop span (condition.getD (.literal span (.bool true))) body
  match first with
  | some first => .block span [first, loop]
  | none => loop

end Lox
