/-
This file reads the statements of a text. Every production has a fuel that its parts use up,
and a text has enough of it for all of its productions.
-/

import Lox.Token.Lexer
import Lox.Tree.Cursor
import Lox.Tree.Level

namespace Lox.Parser

variable (eof : Nat)

mutual

/-- An expression assigns a variable, or it is a chain of operators. -/
def expression : Nat → Production Expr
  | 0 => throw .outOfFuel
  | fuel + 1 => do
      let target ← chain fuel .or
      if ← isNext .equal then
        let place ← take eof
        let value ← expression fuel
        match target with
        | .variable target => return .assign (target.span.to value.span) target value
        | target =>
            report ⟨.invalidAssignmentTarget, place⟩
            return target
      else
        return target

/-- The operands of a level. -/
def operand : Nat → Level → Production Expr
  | 0, _ => throw .outOfFuel
  | fuel + 1, level =>
      match level.tighter? with
      | some tighter => chain fuel tighter
      | none => unary fuel

/-- A chain joins its operands from left to right. -/
def chain : Nat → Level → Production Expr
  | 0, _ => throw .outOfFuel
  | fuel + 1, level => do
      let left ← operand fuel level
      chainAfter fuel level left

def chainAfter : Nat → Level → Expr → Production Expr
  | 0, _, _ => throw .outOfFuel
  | fuel + 1, level, left => do
      match (← peek?).bind level.operator? with
      | some operator =>
          let place ← take eof
          let right ← operand fuel level
          chainAfter fuel level (operator.apply place left right)
      | none => return left

/-- A unary operator applies to what follows. -/
def unary : Nat → Production Expr
  | 0 => throw .outOfFuel
  | fuel + 1 => do
      match (← peek?).bind unaryOp? with
      | some op =>
          let place ← take eof
          let inner ← unary fuel
          return .unary (place.to inner.span) ⟨op, place⟩ inner
      | none => call fuel

/-- A callee is followed by any number of argument lists. -/
def call : Nat → Production Expr
  | 0 => throw .outOfFuel
  | fuel + 1 => do
      let callee ← primary fuel
      callAfter fuel callee

def callAfter : Nat → Expr → Production Expr
  | 0, _ => throw .outOfFuel
  | fuel + 1, callee => do
      if ← accept .leftParen then
        let given ← if ← isNext .rightParen then pure [] else arguments fuel 0
        let paren ← expect eof .rightParen
        callAfter fuel (.call (callee.span.to paren) paren callee given)
      else
        return callee

/-- The arguments after the first ones, of which there are a number already. -/
def arguments : Nat → Nat → Production (List Expr)
  | 0, _ => throw .outOfFuel
  | fuel + 1, length => do
      checkLength eof .arguments length
      let first ← expression fuel
      if ← accept .comma then
        return first :: (← arguments fuel (length + 1))
      else
        return [first]

/-- A literal, a variable or an expression in parentheses. -/
def primary : Nat → Production Expr
  | 0 => throw .outOfFuel
  | fuel + 1 => do
      match (← get).rest with
      | [] => refuse eof "expression"
      | ⟨token, _, _⟩ :: _ =>
          match token with
          | .identifier name =>
              let id ← freshId
              return .variable ⟨id, name, ← take eof⟩
          | .symbol .leftParen =>
              let opening ← take eof
              let inner ← expression fuel
              let closing ← expect eof .rightParen
              return .group (opening.to closing) inner
          | token =>
              match literal? token with
              | some value => return .literal (← take eof) value
              | none => refuse eof "expression"

end

/-- The parameters after the first ones, of which there are a number already. -/
def parameters : Nat → Nat → Production (List Name)
  | 0, _ => throw .outOfFuel
  | fuel + 1, length => do
      checkLength eof .parameters length
      let first ← expectName eof "parameter name"
      if ← accept .comma then
        return first :: (← parameters fuel (length + 1))
      else
        return [first]

/-- A condition stands in parentheses. -/
def condition (fuel : Nat) : Production Expr := do
  discard (expect eof .leftParen)
  let condition ← expression eof fuel
  discard (expect eof .rightParen)
  return condition

/-- A variable declaration goes on behind its keyword, which starts at an offset. -/
def variableDeclaration (fuel start : Nat) : Production Stmt := do
  let name ← expectName eof "variable name"
  let initializer ← if ← accept .equal then some <$> expression eof fuel else pure none
  discard (expect eof .semicolon)
  return .variable (← spanFrom start) name initializer

/-- An expression is a statement before a semicolon. -/
def expressionStatement (fuel : Nat) : Production Stmt := do
  let start := (← here eof).start
  let value ← expression eof fuel
  discard (expect eof .semicolon)
  return .expression (← spanFrom start) value

/-- The first part of a counting loop declares a variable, evaluates an expression or is
missing. -/
def loopStart (fuel : Nat) : Production (Option Stmt) := do
  if ← accept .semicolon then
    return none
  else if ← isNext .var then
    let start := (← take eof).start
    some <$> variableDeclaration eof fuel start
  else
    some <$> expressionStatement eof fuel

/-- An expression that is missing if the given symbol comes next. -/
def expressionUnless (fuel : Nat) (closing : Symbol) : Production (Option Expr) := do
  if ← isNext closing then return none else some <$> expression eof fuel

mutual

/-- A declaration that has an error is reported and left out. -/
def declaration : Nat → Production (Option Stmt)
  | 0 => throw .outOfFuel
  | fuel + 1 => attempt do
      let start := (← here eof).start
      if ← accept .fun then
        functionDeclaration fuel start
      else if ← accept .var then
        variableDeclaration eof fuel start
      else
        statement fuel

/-- A function declaration goes on behind its keyword, which starts at an offset. -/
def functionDeclaration : Nat → Nat → Production Stmt
  | 0, _ => throw .outOfFuel
  | fuel + 1, start => do
      let name ← expectName eof "function name"
      discard (expect eof .leftParen)
      let given ← if ← isNext .rightParen then pure [] else parameters eof fuel 0
      discard (expect eof .rightParen)
      discard (expect eof .leftBrace)
      let body ← blockBody fuel
      return .function (← spanFrom start) name given body

/-- The first symbol of a statement tells its kind. -/
def statement : Nat → Production Stmt
  | 0 => throw .outOfFuel
  | fuel + 1 => do
      let start := (← here eof).start
      match ← peek? with
      | some .for =>
          discard (take eof)
          forStatement fuel start
      | some .if =>
          discard (take eof)
          let test ← condition eof fuel
          let consequent ← statement fuel
          let alternative ← if ← accept .else then some <$> statement fuel else pure none
          return .branch (← spanFrom start) test consequent alternative
      | some .print =>
          discard (take eof)
          let value ← expression eof fuel
          discard (expect eof .semicolon)
          return .print (← spanFrom start) value
      | some .return =>
          let keyword ← take eof
          let value ← expressionUnless eof fuel .semicolon
          discard (expect eof .semicolon)
          return .giveBack (← spanFrom start) keyword value
      | some .while =>
          discard (take eof)
          let test ← condition eof fuel
          let body ← statement fuel
          return .loop (← spanFrom start) test body
      | some .leftBrace =>
          discard (take eof)
          let body ← blockBody fuel
          return .block (← spanFrom start) body
      | _ => expressionStatement eof fuel

/-- A counting loop goes on behind its keyword, which starts at an offset. -/
def forStatement : Nat → Nat → Production Stmt
  | 0, _ => throw .outOfFuel
  | fuel + 1, start => do
      discard (expect eof .leftParen)
      let first ← loopStart eof fuel
      let test ← expressionUnless eof fuel .semicolon
      discard (expect eof .semicolon)
      let step ← expressionUnless eof fuel .rightParen
      discard (expect eof .rightParen)
      let body ← statement fuel
      return .forLoop (← spanFrom start) first test step body

/-- The declarations up to the closing brace, which is taken. -/
def blockBody : Nat → Production (List Stmt)
  | 0 => throw .outOfFuel
  | fuel + 1 => do
      if (← isNext .rightBrace) || (← atEnd) then
        discard (expect eof .rightBrace)
        return []
      else
        let first ← declaration fuel
        return first.toList ++ (← blockBody fuel)

end

/-- The declarations up to the end of the text. -/
def program : Nat → Production Program
  | 0 => throw .outOfFuel
  | fuel + 1 => do
      if ← atEnd then
        return []
      else
        let first ← declaration eof fuel
        return first.toList ++ (← program fuel)

/-- No more than this number of productions are open between two lexemes that are taken. -/
def fuelPerLexeme : Nat := 20

def enoughFuel (lexemes : List Lexeme) : Nat := fuelPerLexeme * (lexemes.length + 1)

/-- A parse is the statements of a text and its errors. -/
structure Parse where
  program : Program
  errors : List (Located Error)

/-- The lexemes of a text that ends at an offset are read after the errors of its lexer. -/
def parseLexemes (lexemes : List Lexeme) (errors : List (Located Error)) : Parse :=
  match (program eof (enoughFuel lexemes)).run ⟨lexemes, 0, 0, errors.toArray⟩ with
  | .ok program state => ⟨program, state.errors.toList⟩
  | .error _ state => ⟨[], state.errors.toList⟩

end Parser

/-- The statements of a text, and the errors of the lexer before those of the parser. -/
def parse (text : String) : Parser.Parse :=
  let items := Token.lex text
  Parser.parseLexemes text.utf8ByteSize (items.filterMap Token.Item.lexeme?)
    (items.filterMap Token.Item.error?)

end Lox
