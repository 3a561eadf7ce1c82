/-
This file orders the operators that stand between two operands.
-/

import Lox.Tree

namespace Lox.Parser

/-- An operator between two operands. -/
inductive Operator where
  | logical (op : LogicalOp)
  | binary (op : BinaryOp)
  deriving DecidableEq, Repr

/-- The expression that an operator at a place makes of its operands. -/
def Operator.apply (operator : Operator) (place : Span) (left right : Expr) : Expr :=
  let span := left.span.to right.span
  match operator with
  | .logical op => .logical span ⟨op, place⟩ left right
  | .binary op => .binary span ⟨op, place⟩ left right

/-- The levels from the loosest to the tightest. -/
inductive Level where
  | or
  | and
  | equality
  | comparison
  | term
  | factor
  deriving DecidableEq, Repr

/-- The operands of one level are the chains of the next. -/
def Level.tighter? : Level → Option Level
  | .or => some .and
  | .and => some .equality
  | .equality => some .comparison
  | .comparison => some .term
  | .term => some .factor
  | .factor => none

def Level.operator? : Level → Symbol → Option Operator
  | .or, .or => some (.logical .or)
  | .and, .and => some (.logical .and)
  | .equality, .bangEqual => some (.binary .notEqual)
  | .equality, .equalEqual => some (.binary .equal)
  | .comparison, .greater => some (.binary .greater)
  | .comparison, .greaterEqual => some (.binary .greaterEqual)
  | .comparison, .less => some (.binary .less)
  | .comparison, .lessEqual => some (.binary .lessEqual)
  | .term, .minus => some (.binary .subtract)
  | .term, .plus => some (.binary .add)
  | .factor, .slash => some (.binary .divide)
  | .factor, .star => some (.binary .multiply)
  | _, _ => none

/-- The operators that stand before their operand. -/
def unaryOp? : Symbol → Option UnaryOp
  | .bang => some .not
  | .minus => some .negate
  | _ => none

/-- The tokens that are a literal by themselves. -/
def literal? : Token → Option Literal
  | .symbol .false => some (.bool false)
  | .symbol .true => some (.bool true)
  | .symbol .nil => some .nil
  | .number value => some (.number value)
  | .string content => some (.string content)
  | .symbol _ | .identifier _ | .invalid => none

end Lox.Parser
