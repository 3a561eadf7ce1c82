/-
This file runs statements. Every step uses up fuel, and a run that has enough of it ends as it
would with any more.
-/

import Lox.Error
import Lox.Resolution
import Lox.Sink
import Lox.Value

namespace Lox.Evaluation

/-- A run looks at the global environment, at the distances of local variables and at the
readings of the clock. -/
structure Context where
  globals : Env
  distances : Distances
  clock : Nat → Float

/-- A run changes what is stored and the output, and counts the closures made and the readings of
the clock. -/
structure StateOf (μ : Type) where
  store : μ
  output : Sink
  closures : Nat
  readings : Nat

/-- The state of a run that stores the values of variables in frames. -/
abbrev State := StateOf (Store Value)

/-- A run halts at an error, or at an access beyond the last frame of an environment, or because
its fuel is used up. -/
inductive Halt where
  | error (error : Located Error)
  | lostScope (name : String)
  | outOfFuel

abbrev EvalOf (μ : Type) := EStateM Halt (StateOf μ)

abbrev Eval := EvalOf (Store Value)

/-- A statement completes, or it gives back a value from the function around it. -/
inductive Flow where
  | completed
  | returned (value : Value)

section
variable {μ ε α : Type}

def fail (error : Error) (span : Span) : EvalOf μ α :=
  throw (.error ⟨error, span⟩)

/-- A new closure has a number that no earlier one has. -/
def makeClosure (env : ε) (name : Name) (parameters : List Name) (body : List Stmt) :
    EvalOf μ (ValueIn ε) :=
  modifyGet fun state =>
    (.closure ⟨state.closures, name.item, parameters.map Located.item, body, env⟩,
      { state with closures := state.closures + 1 })

/-- A text is written, and the answer tells whether it is written completely. -/
def write (text : String) : EvalOf μ Bool :=
  modifyGet fun state =>
    let (complete, output) := state.output.write text
    (complete, { state with output })

/-- A value is printed on a line of its own. -/
def printLine (value : ValueIn ε) (span : Span) : EvalOf μ Unit := do
  unless ← write (value.text ++ "\n") do fail (.writeFailed "stdout") span

/-- A function takes as many arguments as it has parameters. -/
def checkArity (name : String) (expected given : Nat) (span : Span) : EvalOf μ Unit := do
  unless expected = given do fail (.arityMismatch name expected given) span

def notCallable (callee : ValueIn ε) (span : Span) : EvalOf μ α :=
  fail (.notCallable callee.type) span

def applyUnary (op : Located UnaryOp) (operand : ValueIn ε) : EvalOf μ (ValueIn ε) :=
  match ValueIn.applyUnary? op.item operand with
  | some value => return value
  | none => fail (.unaryOperand op.item.text operand.type) op.span

def applyBinary (op : Located BinaryOp) (left right : ValueIn ε) : EvalOf μ (ValueIn ε) :=
  match ValueIn.applyBinary? op.item left right with
  | some value => return value
  | none => fail (.binaryOperands op.item.text left.type right.type) op.span

/-- The clock is read once more. -/
def readClock (clock : Nat → Float) : EvalOf μ (ValueIn ε) :=
  modifyGet fun state =>
    (.number (clock state.readings), { state with readings := state.readings + 1 })

end

/-- The way to halt at a failed access. -/
def halt (target : Occurrence) : Store.Fault → Halt
  | .unbound => .error ⟨.notDefined target.name, target.span⟩
  | .lostScope => .lostScope target.name

/-- A new frame in front of an environment. -/
def nest (env : Env) : Eval Env :=
  modifyGet fun state =>
    let (inner, store) := state.store.child env
    (inner, { state with store })

def define (env : Env) (name : String) (value : Value) : Eval Unit :=
  modify fun state => { state with store := state.store.define env name value }

/-- A call has a frame of its own, in front of the environment of the declaration. -/
def enter (closure : Closure) (given : List Value) : Eval Env := do
  let env ← nest closure.env
  (closure.parameters.zip given).forM fun (name, value) => define env name value
  return env

variable (context : Context)

/-- The frame of an occurrence is the one at its distance, or the global one. -/
def locate (env : Env) (target : Occurrence) : Eval FrameId := do
  let store := (← get).store
  let found :=
    match context.distances[target.id]? with
    | some distance => store.frameAt env target.name distance
    | none => store.frameOf context.globals target.name
  match found with
  | .ok frame => return frame
  | .error fault => throw (halt target fault)

def read (env : Env) (target : Occurrence) : Eval Value := do
  let frame ← locate context env target
  match (← get).store.readIn frame target.name with
  | .ok value => return value
  | .error fault => throw (halt target fault)

def assign (env : Env) (target : Occurrence) (value : Value) : Eval Unit := do
  let frame ← locate context env target
  modify fun state => { state with store := state.store.write frame target.name value }

mutual

def evalExpr : Nat → Env → Expr → Eval Value
  | 0, _, _ => throw .outOfFuel
  | fuel + 1, env, expr => do
      match expr with
      | .literal _ value => return .ofLiteral value
      | .variable target => read context env target
      | .assign _ target value =>
          let value ← evalExpr fuel env value
          assign context env target value
          return value
      | .group _ inner => evalExpr fuel env inner
      | .unary _ op operand => applyUnary op (← evalExpr fuel env operand)
      | .binary _ op left right =>
          let left ← evalExpr fuel env left
          let right ← evalExpr fuel env right
          applyBinary op left right
      | .logical _ op left right =>
          let left ← evalExpr fuel env left
          if op.item.isDecidedBy left then return left else evalExpr fuel env right
      | .call _ paren callee given =>
          let callee ← evalExpr fuel env callee
          if callee.isCallable then
            let given ← evalExprs fuel env given
            call fuel callee given paren
          else
            notCallable callee paren

/-- Expressions are evaluated in order. -/
def evalExprs : Nat → Env → List Expr → Eval (List Value)
  | 0, _, _ => throw .outOfFuel
  | _ + 1, _, [] => return []
  | fuel + 1, env, expr :: rest => do
      let value ← evalExpr fuel env expr
      return value :: (← evalExprs fuel env rest)

/-- A call whose body gives nothing back has the value `nil`. -/
def call : Nat → Value → List Value → Span → Eval Value
  | 0, _, _, _ => throw .outOfFuel
  | fuel + 1, callee, given, span => do
      match callee with
      | .native .clock =>
          checkArity Native.clock.name Native.clock.arity given.length span
          readClock context.clock
      | .closure closure =>
          checkArity closure.name closure.parameters.length given.length span
          match ← runStmts fuel (← enter closure given) closure.body with
          | .returned value => return value
          | .completed => return .nil
      | _ => notCallable callee span

def runStmt : Nat → Env → Stmt → Eval Flow
  | 0, _, _ => throw .outOfFuel
  | fuel + 1, env, stmt => do
      match stmt with
      | .expression _ value =>
          discard (evalExpr fuel env value)
          return .completed
      | .print span value =>
          printLine (← evalExpr fuel env value) span
          return .completed
      | .variable _ name initializer =>
          define env name.item (← evalOption fuel env initializer)
          return .completed
      | .function _ name parameters body =>
          define env name.item (← makeClosure env name parameters body)
          return .completed
      | .block _ body => runStmts fuel (← nest env) body
      | .branch _ condition consequent alternative =>
          if (← evalExpr fuel env condition).isTrue then
            runStmt fuel env consequent
          else
            match alternative with
            | some alternative => runStmt fuel env alternative
            | none => return .completed
      | .loop _ condition body => runLoop fuel env condition body
      | .giveBack _ _ value => return .returned (← evalOption fuel env value)

/-- A missing expression has the value `nil`. -/
def evalOption : Nat → Env → Option Expr → Eval Value
  | 0, _, _ => throw .outOfFuel
  | _ + 1, _, none => return .nil
  | fuel + 1, env, some expr => evalExpr fuel env expr

/-- The body runs as long as the condition is true and nothing is given back. -/
def runLoop : Nat → Env → Expr → Stmt → Eval Flow
  | 0, _, _, _ => throw .outOfFuel
  | fuel + 1, env, condition, body => do
      if (← evalExpr fuel env condition).isTrue then
        match ← runStmt fuel env body with
        | .returned value => return .returned value
        | .completed => runLoop fuel env condition body
      else
        return .completed

/-- Statements run in order until one gives back a value. -/
def runStmts : Nat → Env → List Stmt → Eval Flow
  | 0, _, _ => throw .outOfFuel
  | _ + 1, _, [] => return .completed
  | fuel + 1, env, stmt :: rest => do
      match ← runStmt fuel env stmt with
      | .returned value => return .returned value
      | .completed => runStmts fuel env rest

end

end Lox.Evaluation
