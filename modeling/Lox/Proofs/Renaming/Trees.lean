import Lox.Token.Lexer
import Lox.Tree

namespace Lox

/-- A renaming gives a declared variable a new name at some places. -/
structure Renaming where
  declared : Name
  places : List Span
  name : String

namespace Renaming

variable (new : Renaming)

/-- What stands at a place instead of a name. -/
def rename (place : Span) (name : String) : String :=
  if place ∈ new.places then new.name else name

def piece (given : Located Token.Piece) : Token.Piece :=
  match given.item.kind with
  | .token (.identifier _) =>
      if given.span ∈ new.places then
        ⟨.token (.identifier new.name), new.name.toList⟩
      else given.item
  | .token (.symbol _) | .token (.string _) | .token (.number _) | .token .invalid | .blank
  | .invalid | .unterminated => given.item

/-- Only identifiers are replaced in a text. -/
def text (given : String) : String :=
  String.ofList ((Token.pieces 0 given.toList).flatMap fun piece => (new.piece piece).text)

/-- The spans of lexemes and of trees stay as they are. -/
def lexeme (given : Lexeme) : Lexeme :=
  match given.token with
  | .identifier name =>
      ⟨.identifier (new.rename given.span name), new.rename given.span given.text,
        given.span⟩
  | .symbol _ | .string _ | .number _ | .invalid => given

def located (given : Name) : Name := ⟨new.rename given.span given.item, given.span⟩

def occurrence (target : Occurrence) : Occurrence :=
  ⟨target.id, new.rename target.span target.name, target.span⟩

mutual

def expr : Expr → Expr
  | .literal span value => .literal span value
  | .variable target => .variable (new.occurrence target)
  | .assign span target value => .assign span (new.occurrence target) (expr value)
  | .group span inner => .group span (expr inner)
  | .unary span op operand => .unary span op (expr operand)
  | .binary span op left right => .binary span op (expr left) (expr right)
  | .logical span op left right => .logical span op (expr left) (expr right)
  | .call span paren callee given => .call span paren (expr callee) (exprs given)

def exprs : List Expr → List Expr
  | [] => []
  | given :: rest => expr given :: exprs rest

end

mutual

def stmt : Stmt → Stmt
  | .expression span value => .expression span (new.expr value)
  | .print span value => .print span (new.expr value)
  | .variable span name initializer =>
      .variable span (new.located name) (initializer.map new.expr)
  | .function span name parameters body =>
      .function span (new.located name) (parameters.map new.located) (stmts body)
  | .block span body => .block span (stmts body)
  | .branch span condition consequent none =>
      .branch span (new.expr condition) (stmt consequent) none
  | .branch span condition consequent (some alternative) =>
      .branch span (new.expr condition) (stmt consequent) (some (stmt alternative))
  | .loop span condition body => .loop span (new.expr condition) (stmt body)
  | .giveBack span keyword value => .giveBack span keyword (value.map new.expr)

def stmts : List Stmt → List Stmt
  | [] => []
  | given :: rest => stmt given :: stmts rest

end

/-- A renamed expression has the span that it had. -/
@[simp] theorem expr_span (given : Expr) : (new.expr given).span = given.span := by
  cases given <;> rfl

@[simp] theorem exprs_length (given : List Expr) :
    (new.exprs given).length = given.length := by
  induction given with
  | nil => rfl
  | cons expr rest ih => exact congrArg Nat.succ ih

@[simp] theorem lexeme_span (given : Lexeme) : (new.lexeme given).span = given.span := by
  unfold lexeme
  split <;> rfl

end Renaming

end Lox
