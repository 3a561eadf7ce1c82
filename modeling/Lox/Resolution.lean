/-
This file finds, for every occurrence of a local variable, the distance in frames to its
declaration, and reports the errors in the use of scopes.
-/

import Std.Data.TreeMap
import Lox.Bindings
import Lox.Error
import Lox.Tree

namespace Lox

/-- The distance of every occurrence that refers to a local variable. An occurrence without a
distance refers to a global one. -/
abbrev Distances := Std.TreeMap Nat Nat

/-- Later distances replace earlier ones of the same occurrence. -/
def Distances.merge (old : Distances) (found : List (Nat × Nat)) : Distances :=
  found.foldl (fun distances entry => distances.insert entry.1 entry.2) old

namespace Resolution

/-- A scope tells of each declared name whether its initializer has been passed. -/
abbrev Scope := Bindings Bool

/-- The state holds the open local scopes from the innermost outwards, whether a function body
is open, and what has been found so far. -/
structure State where
  scopes : List Scope
  inFunction : Bool
  distances : Array (Nat × Nat)
  errors : Array (Located Error)

namespace State

def initial : State := ⟨[], false, #[], #[]⟩

def report (state : State) (error : Located Error) : State :=
  { state with errors := state.errors.push error }

def record (state : State) (id distance : Nat) : State :=
  { state with distances := state.distances.push (id, distance) }

def openScope (state : State) : State := { state with scopes := [] :: state.scopes }

def closeScope (state : State) : State := { state with scopes := state.scopes.tail }

/-- A name is declared once in a local scope, and globals can be declared at will. -/
def declare (state : State) (name : Name) : State :=
  match state.scopes with
  | [] => state
  | scope :: outer =>
      let state :=
        if scope.binds name.item then state.report ⟨.alreadyDefined name.item, name.span⟩
        else state
      { state with scopes := scope.put name.item false :: outer }

/-- The initializer of a name has been passed. -/
def define (state : State) (name : Name) : State :=
  match state.scopes with
  | [] => state
  | scope :: outer => { state with scopes := scope.put name.item true :: outer }

/-- A name that has no initializer is defined where it is declared. -/
def introduce (state : State) (name : Name) : State := (state.declare name).define name

/-- The innermost scope is between the declaration of a name and the end of its initializer. -/
def isInitializing (state : State) (name : String) : Bool :=
  match state.scopes with
  | [] => false
  | scope :: _ => scope.value? name = some false

/-- The distance to the innermost scope that declares a name, without the first scopes. -/
def distance? (state : State) (skipped : Nat) (name : String) : Option Nat :=
  ((state.scopes.drop skipped).findIdx? fun scope => scope.binds name).map (· + skipped)

/-- An occurrence refers to the innermost scope that declares its name. In an initializer of
the same name it refers to a scope further outwards, and there has to be one. -/
def refer (state : State) (target : Occurrence) : State :=
  let initializing := state.isInitializing target.name
  match state.distance? (if initializing then 1 else 0) target.name with
  | some distance => state.record target.id distance
  | none =>
      if initializing then state.report ⟨.ownInitializer target.name, target.span⟩ else state

end State

mutual

def resolveExpr (state : State) : Expr → State
  | .literal _ _ => state
  | .variable target => state.refer target
  | .assign _ target value => (resolveExpr state value).refer target
  | .group _ inner => resolveExpr state inner
  | .unary _ _ operand => resolveExpr state operand
  | .binary _ _ left right => resolveExpr (resolveExpr state left) right
  | .logical _ _ left right => resolveExpr (resolveExpr state left) right
  | .call _ _ callee given => resolveExprs (resolveExpr state callee) given

def resolveExprs (state : State) : List Expr → State
  | [] => state
  | expr :: rest => resolveExprs (resolveExpr state expr) rest

end

def resolveOption (state : State) : Option Expr → State
  | none => state
  | some expr => resolveExpr state expr

mutual

def resolveStmt (state : State) : Stmt → State
  | .expression _ value => resolveExpr state value
  | .print _ value => resolveExpr state value
  | .variable _ name initializer =>
      (resolveOption (state.declare name) initializer).define name
  | .function _ name parameters body =>
      let inside := { (state.introduce name).openScope with inFunction := true }
      let after := resolveStmts (parameters.foldl State.introduce inside) body
      { after.closeScope with inFunction := state.inFunction }
  | .block _ body => (resolveStmts state.openScope body).closeScope
  | .branch _ condition consequent none => resolveStmt (resolveExpr state condition) consequent
  | .branch _ condition consequent (some alternative) =>
      resolveStmt (resolveStmt (resolveExpr state condition) consequent) alternative
  | .loop _ condition body => resolveStmt (resolveExpr state condition) body
  | .giveBack _ keyword value =>
      let state :=
        if state.inFunction then state else state.report ⟨.returnOutsideFunction, keyword⟩
      resolveOption state value

def resolveStmts (state : State) : List Stmt → State
  | [] => state
  | stmt :: rest => resolveStmts (resolveStmt state stmt) rest

end

end Resolution

/-- A resolution is the distances of a program, in the order in which they are found, and the
errors in the use of scopes. -/
structure Resolution where
  distances : List (Nat × Nat)
  errors : List (Located Error)

/-- The distances by occurrence. -/
def Resolution.table (resolution : Resolution) : Distances :=
  Distances.merge ∅ resolution.distances

def resolve (program : Program) : Resolution :=
  let state := Resolution.resolveStmts .initial program
  ⟨state.distances.toList, state.errors.toList⟩

end Lox
