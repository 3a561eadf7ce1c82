/-
This file gives the values that expressions have.
-/

import Lox.Number
import Lox.Store
import Lox.Tree

namespace Lox

/-- A function that the host provides. -/
inductive Native where
  | clock
  deriving DecidableEq, Repr

namespace Native

def all : List Native := [.clock]

def name : Native → String
  | .clock => "clock"

def arity : Native → Nat
  | .clock => 0

end Native

/-- A closure is a declared function with the environment of its declaration, which is of a
given kind. Its number tells it from every closure made by another execution of the declaration. -/
structure ClosureIn (ε : Type) where
  id : Nat
  name : String
  parameters : List String
  body : List Stmt
  env : ε

/-- The values whose closures have environments of a given kind. -/
inductive ValueIn (ε : Type) where
  | nil
  | bool (value : Bool)
  | number (value : Float)
  | string (content : String)
  | native (provided : Native)
  | closure (declared : ClosureIn ε)

/-- The closures of a run see chains of frames. -/
abbrev Closure := ClosureIn Env

abbrev Value := ValueIn Env

namespace ValueIn

variable {ε : Type}

def ofLiteral : Literal → ValueIn ε
  | .nil => .nil
  | .bool value => .bool value
  | .number value => .number value
  | .string content => .string content

/-- Only `nil` and `false` are not true. -/
def isTrue : ValueIn ε → Bool
  | .nil => false
  | .bool value => value
  | .number _ | .string _ | .native _ | .closure _ => true

/-- The name of the type of a value. -/
def type : ValueIn ε → String
  | .nil => "nil"
  | .bool _ => "bool"
  | .number _ => "number"
  | .string _ => "string"
  | .native _ | .closure _ => "function"

/-- The text that a value is printed as. -/
def text : ValueIn ε → String
  | .nil => "nil"
  | .bool value => if value then "true" else "false"
  | .number value => Number.text value
  | .string content => content
  | .native provided => "<native " ++ provided.name ++ ">"
  | .closure declared => "<function " ++ declared.name ++ ">"

def isCallable : ValueIn ε → Bool
  | .native _ | .closure _ => true
  | .nil | .bool _ | .number _ | .string _ => false

/-- Values of different types are never equal, and closures are equal when they were made by
the same execution. -/
def equals : ValueIn ε → ValueIn ε → Bool
  | .nil, .nil => true
  | .bool left, .bool right => left = right
  | .number left, .number right => left == right
  | .string left, .string right => left = right
  | .native left, .native right => left = right
  | .closure left, .closure right => left.id = right.id
  | _, _ => false

/-- The value of a unary operator, if it applies. -/
def applyUnary? : UnaryOp → ValueIn ε → Option (ValueIn ε)
  | .not, operand => some (.bool !operand.isTrue)
  | .negate, .number operand => some (.number (-operand))
  | .negate, _ => none

/-- A sum of anything but two numbers joins the texts of its operands, and the other operators
except for equality apply to numbers only. -/
def applyBinary? : BinaryOp → ValueIn ε → ValueIn ε → Option (ValueIn ε)
  | .equal, left, right => some (.bool (left.equals right))
  | .notEqual, left, right => some (.bool !left.equals right)
  | .add, .number left, .number right => some (.number (left + right))
  | .add, left, right => some (.string (left.text ++ right.text))
  | .subtract, .number left, .number right => some (.number (left - right))
  | .multiply, .number left, .number right => some (.number (left * right))
  | .divide, .number left, .number right => some (.number (left / right))
  | .less, .number left, .number right => some (.bool (left < right))
  | .lessEqual, .number left, .number right => some (.bool (left ≤ right))
  | .greater, .number left, .number right => some (.bool (right < left))
  | .greaterEqual, .number left, .number right => some (.bool (right ≤ left))
  | _, _, _ => none

end ValueIn

/-- The left operand alone decides an operation that it makes true or false for good. -/
def LogicalOp.isDecidedBy {ε : Type} : LogicalOp → ValueIn ε → Bool
  | .and, left => !left.isTrue
  | .or, left => left.isTrue

end Lox
