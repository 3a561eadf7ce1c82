/-
This file gives the steps that the productions of the grammar are made of.
-/

import Lox.Error
import Lox.Tree

namespace Lox.Parser

/-- The state holds the lexemes that are left, the end of the last lexeme taken, the number of
the next occurrence and the errors so far. -/
structure State where
  rest : List Lexeme
  lastStop : Nat
  /-- The count is a word of 32 bits, and `NumbersIdentify.narrow` says when it stays below them. -/
  nextId : Nat
  errors : Array (Located Error)

/-- A production stops at an error, or because its fuel is used up. -/
inductive Stop where
  | error (error : Located Error)
  | outOfFuel

/-- A production takes lexemes and gives a part of the tree. -/
abbrev Production := EStateM Stop State

/-- The next lexeme is taken, if there is one. -/
def State.advance (state : State) : State :=
  match state.rest with
  | [] => state
  | lexeme :: rest => { state with rest, lastStop := lexeme.span.stop }

/-- The symbol of the next lexeme. -/
def peek? : Production (Option Symbol) :=
  return (← get).rest.head?.bind Lexeme.symbol?

def isNext (symbol : Symbol) : Production Bool :=
  return (← peek?) = some symbol

def atEnd : Production Bool :=
  return (← get).rest.isEmpty

/-- The next lexeme is taken if it is the given symbol. -/
def accept (symbol : Symbol) : Production Bool := do
  if ← isNext symbol then
    modify State.advance
    return true
  else
    return false

/-- An error that does not stop the production. -/
def report (error : Located Error) : Production Unit :=
  modify fun state => { state with errors := state.errors.push error }

def freshId : Production Nat :=
  modifyGet fun state => (state.nextId, { state with nextId := state.nextId + 1 })

/-- The span from an offset to the end of the last lexeme taken. -/
def spanFrom (start : Nat) : Production Span :=
  return ⟨start, (← get).lastStop⟩

/-- A symbol that is expected is named between quotes. -/
def expectation (symbol : Symbol) : String := "\"" ++ symbol.text ++ "\""

variable (eof : Nat)

/-- The span of the next lexeme, or the empty span at the end of the text. -/
def State.here (state : State) : Span :=
  match state.rest with
  | [] => .empty eof
  | lexeme :: _ => lexeme.span

def here : Production Span :=
  return (← get).here eof

/-- The next lexeme is taken, and its span is the answer. -/
def take : Production Span := do
  let span ← here eof
  modify State.advance
  return span

/-- The error for a lexeme, or an end of the text, where something else is expected. -/
def State.unexpected (expected : String) (state : State) : Located Error :=
  match state.rest with
  | [] => ⟨.unexpectedEnd expected, .empty eof⟩
  | lexeme :: _ => ⟨.unexpectedToken lexeme.text expected, lexeme.span⟩

def refuse {α : Type} (expected : String) : Production α := do
  throw (.error ((← get).unexpected eof expected))

/-- The next lexeme has to be the given symbol. -/
def expect (symbol : Symbol) : Production Span := do
  if ← isNext symbol then take eof else refuse eof (expectation symbol)

/-- The next lexeme has to be an identifier. -/
def expectName (expected : String) : Production Name := do
  match (← get).rest with
  | ⟨.identifier name, _, _⟩ :: _ => return ⟨name, ← take eof⟩
  | _ => refuse eof expected

/-- The limit on the length of a list of parameters or arguments. -/
def listLimit : Nat := 255

/-- A list that has reached the limit is too long if anything follows. -/
def checkLength (listed : Listed) (length : Nat) : Production Unit := do
  if listLimit ≤ length then report ⟨.tooMany listed listLimit, ← here eof⟩

/-- The symbols that only a statement starts with. -/
def startsStatement : Option Symbol → Bool
  | some .fun | some .var | some .for | some .if | some .while | some .print | some .return =>
      true
  | _ => false

/-- After an error the next statement starts behind the next semicolon, or with the next symbol
that only a statement starts with. The lexeme at the error itself is left out in any case. -/
def recover : List Lexeme → List Lexeme
  | [] => []
  | [_] => []
  | lexeme :: next :: rest =>
      if lexeme.symbol? = some .semicolon || startsStatement next.symbol? then next :: rest
      else recover (next :: rest)

/-- An error inside a statement is reported, and the statement is given up. -/
def attempt (statement : Production Stmt) : Production (Option Stmt) := fun state =>
  match statement state with
  | .ok statement state => .ok (some statement) state
  | .error (.error error) state =>
      .ok none { state with rest := recover state.rest, errors := state.errors.push error }
  | .error .outOfFuel state => .error .outOfFuel state

end Lox.Parser
