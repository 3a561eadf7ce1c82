/-
This file lists everything that can be wrong with a program and gives the words for it.
-/

import Lox.Span
import Lox.Text.Quoted

namespace Lox

open Text (quoted)

/-- The two lists of a program that have a limited length. -/
inductive Listed where
  | parameters
  | arguments
  deriving DecidableEq, Repr

def Listed.text : Listed → String
  | .parameters => "parameters"
  | .arguments => "arguments"

/-- A cause says what is wrong, apart from where. -/
inductive Error where
  /-- The program printed to a file that took no more bytes. -/
  | writeFailed (file : String)
  /-- A local initializer refers to the variable that it initializes. -/
  | ownInitializer (name : String)
  /-- A local scope declares one name twice. -/
  | alreadyDefined (name : String)
  /-- A name has no value when it is read or assigned. -/
  | notDefined (name : String)
  /-- Only a variable can be assigned. -/
  | invalidAssignmentTarget
  /-- Only a function body can return. -/
  | returnOutsideFunction
  /-- A list of parameters or arguments is too long. -/
  | tooMany (listed : Listed) (limit : Nat)
  /-- Some characters form no token. -/
  | unexpectedInput (text : String)
  /-- The text ends too early. -/
  | unexpectedEnd (expected : String)
  /-- A token stands in the wrong place. -/
  | unexpectedToken (text expected : String)
  /-- A string has no closing quote. -/
  | unterminatedString
  /-- A call passes the wrong number of arguments. -/
  | arityMismatch (name : String) (expected given : Nat)
  /-- A call has a callee that is no function. -/
  | notCallable (type : String)
  /-- A binary operator has an operand that is no number. -/
  | binaryOperands (operator left right : String)
  /-- A unary operator has an operand that is no number. -/
  | unaryOperand (operator operand : String)
  deriving DecidableEq, Repr

namespace Error

/-- Every error belongs to one of four categories. -/
inductive Category where
  | output
  | name
  | grammar
  | type
  deriving DecidableEq, Repr

def Category.text : Category → String
  | .output => "IOError"
  | .name => "NameError"
  | .grammar => "SyntaxError"
  | .type => "TypeError"

def category : Error → Category
  | .writeFailed _ => .output
  | .ownInitializer _ | .alreadyDefined _ | .notDefined _ => .name
  | .invalidAssignmentTarget | .returnOutsideFunction | .tooMany .. | .unexpectedInput _
  | .unexpectedEnd _ | .unexpectedToken .. | .unterminatedString => .grammar
  | .arityMismatch .. | .notCallable _ | .binaryOperands .. | .unaryOperand .. => .type

/-- A static error is found before the program runs, and a runtime error aborts the run. -/
inductive Phase where
  | static
  | runtime
  deriving DecidableEq, Repr

/-- A name without a value is noticed when it is used, and every other name error earlier. -/
def phase (error : Error) : Phase :=
  match error, error.category with
  | .notDefined _, _ => .runtime
  | _, .output | _, .type => .runtime
  | _, .name | _, .grammar => .static

/-- The words for an error, without its category. -/
def description : Error → String
  | .writeFailed file => s!"unable to write to file: {quoted file}"
  | .ownInitializer name => s!"cannot refer to {quoted name} in its own initializer"
  | .alreadyDefined name => s!"name {quoted name} is already defined in this scope"
  | .notDefined name => s!"name {quoted name} is not defined"
  | .invalidAssignmentTarget => "invalid assignment target"
  | .returnOutsideFunction => "\"return\" outside function"
  | .tooMany listed limit => s!"cannot have more than {limit} {listed.text}"
  | .unexpectedInput text => s!"unexpected input: {quoted text}"
  | .unexpectedEnd expected => s!"unexpected end of file, expected {expected}"
  | .unexpectedToken text expected => s!"unexpected {quoted text}, expected {expected}"
  | .unterminatedString => "unterminated string"
  | .arityMismatch name expected given =>
      s!"{name}() expected {expected} arguments but got {given}"
  | .notCallable type => s!"can only call functions and classes, not {quoted type}"
  | .binaryOperands operator left right =>
      s!"operands of {operator} must be numbers, not {quoted left} and {quoted right}"
  | .unaryOperand operator operand =>
      s!"operand of {operator} must be a number, not {quoted operand}"

/-- The message opens with the category. -/
def message (error : Error) : String :=
  s!"{error.category.text}: {error.description}"

end Error

end Lox
