import Lox.Interpreter

namespace Lox.Lexical

open Evaluation (Halt StateOf EvalOf fail makeClosure printLine checkArity notCallable applyUnary
  applyBinary readClock)

/-- A location holds the value of one variable. -/
abbrev Location := Nat

/-- The local variables that code sees. -/
abbrev Locals := Bindings Location

/-- A closure sees the local variables of its declaration. -/
abbrev Value := ValueIn Locals

/-- Code stands at the top level, where it sees no local variable, or inside of a block. -/
inductive Env where
  | top
  | inner (locals : Locals)

namespace Env

def locals : Env → Locals
  | .top => []
  | .inner locals => locals

/-- Only a block gets local variables. -/
def extend (name : String) (location : Location) : Env → Env
  | .top => .top
  | .inner locals => .inner (locals.put name location)

end Env

/-- The memory holds the value of each location and the values of the globals. -/
structure Memory where
  cells : Array Value
  globals : Bindings Value

namespace Memory

/-- A name that is no local variable is that of a global. -/
def read? (memory : Memory) (locals : Locals) (name : String) : Option Value :=
  match locals.value? name with
  | some location => memory.cells[location]?
  | none => memory.globals.value? name

/-- A variable gets a new value if it has one. -/
def assign? (memory : Memory) (locals : Locals) (name : String) (value : Value) :
    Option Memory :=
  match locals.value? name with
  | some location => some { memory with cells := memory.cells.setIfInBounds location value }
  | none =>
      if memory.globals.binds name then
        some { memory with globals := memory.globals.put name value }
      else none

/-- A declaration at the top level defines a global, and any other one takes a new location. -/
def declare (memory : Memory) (name : String) (value : Value) : Env → Memory
  | .top => { memory with globals := memory.globals.put name value }
  | .inner _ => { memory with cells := memory.cells.push value }

end Memory

abbrev State := StateOf Memory

abbrev Eval := EvalOf Memory

/-- A statement completes with the environment of the next one, or it gives back a value. -/
inductive Flow where
  | completed (env : Env)
  | returned (value : Value)

/-- What is declared inside of a statement is not seen behind it. -/
def Flow.leave (env : Env) : Flow → Flow
  | .completed _ => .completed env
  | .returned value => .returned value

def declare (env : Env) (name : String) (value : Value) : Eval Env :=
  modifyGet fun state =>
    (env.extend name state.store.cells.size,
      { state with store := state.store.declare name value env })

/-- A function sees itself. -/
def declareFunction (env : Env) (name : Name) (parameters : List Name) (body : List Stmt) :
    Eval Env := do
  let seen := env.extend name.item (← get).store.cells.size
  declare env name.item (← makeClosure seen.locals name parameters body)

/-- The body of a function sees its parameters and what the declaration sees. -/
def enter (closure : ClosureIn Locals) (given : List Value) : Eval Env :=
  (closure.parameters.zip given).foldlM (fun env (name, value) => declare env name value)
    (.inner closure.env)

def read (locals : Locals) (target : Occurrence) : Eval Value := do
  match (← get).store.read? locals target.name with
  | some value => return value
  | none => fail (.notDefined target.name) target.span

def assign (locals : Locals) (target : Occurrence) (value : Value) : Eval Unit := do
  let state ← get
  match state.store.assign? locals target.name value with
  | some store => set { state with store }
  | none => fail (.notDefined target.name) target.span

variable (clock : Nat → Float)

mutual

def evalExpr : Nat → Locals → Expr → Eval Value
  | 0, _, _ => throw .outOfFuel
  | fuel + 1, locals, expr => do
      match expr with
      | .literal _ value => return .ofLiteral value
      | .variable target => read locals target
      | .assign _ target value =>
          let value ← evalExpr fuel locals value
          assign locals target value
          return value
      | .group _ inner => evalExpr fuel locals inner
      | .unary _ op operand => applyUnary op (← evalExpr fuel locals operand)
      | .binary _ op left right =>
          let left ← evalExpr fuel locals left
          let right ← evalExpr fuel locals right
          applyBinary op left right
      | .logical _ op left right =>
          let left ← evalExpr fuel locals left
          if op.item.isDecidedBy left then return left else evalExpr fuel locals right
      | .call _ paren callee given =>
          let callee ← evalExpr fuel locals callee
          if callee.isCallable then
            let given ← evalExprs fuel locals given
            call fuel callee given paren
          else
            notCallable callee paren

def evalExprs : Nat → Locals → List Expr → Eval (List Value)
  | 0, _, _ => throw .outOfFuel
  | _ + 1, _, [] => return []
  | fuel + 1, locals, expr :: rest => do
      let value ← evalExpr fuel locals expr
      return value :: (← evalExprs fuel locals rest)

def call : Nat → Value → List Value → Span → Eval Value
  | 0, _, _, _ => throw .outOfFuel
  | fuel + 1, callee, given, span => do
      match callee with
      | .native .clock =>
          checkArity Native.clock.name Native.clock.arity given.length span
          readClock clock
      | .closure closure =>
          checkArity closure.name closure.parameters.length given.length span
          match ← runStmts fuel (← enter closure given) closure.body with
          | .returned value => return value
          | .completed _ => return .nil
      | _ => notCallable callee span

def runStmt : Nat → Env → Stmt → Eval Flow
  | 0, _, _ => throw .outOfFuel
  | fuel + 1, env, stmt => do
      match stmt with
      | .expression _ value =>
          discard (evalExpr fuel env.locals value)
          return .completed env
      | .print span value =>
          printLine (← evalExpr fuel env.locals value) span
          return .completed env
      | .variable _ name initializer =>
          return .completed (← declare env name.item (← evalOption fuel env.locals initializer))
      | .function _ name parameters body =>
          return .completed (← declareFunction env name parameters body)
      | .block _ body => return (← runStmts fuel (.inner env.locals) body).leave env
      | .branch _ condition consequent alternative =>
          if (← evalExpr fuel env.locals condition).isTrue then
            return (← runStmt fuel env consequent).leave env
          else
            match alternative with
            | some alternative => return (← runStmt fuel env alternative).leave env
            | none => return .completed env
      | .loop _ condition body => runLoop fuel env condition body
      | .giveBack _ _ value => return .returned (← evalOption fuel env.locals value)

def evalOption : Nat → Locals → Option Expr → Eval Value
  | 0, _, _ => throw .outOfFuel
  | _ + 1, _, none => return .nil
  | fuel + 1, locals, some expr => evalExpr fuel locals expr

def runLoop : Nat → Env → Expr → Stmt → Eval Flow
  | 0, _, _, _ => throw .outOfFuel
  | fuel + 1, env, condition, body => do
      if (← evalExpr fuel env.locals condition).isTrue then
        match ← runStmt fuel env body with
        | .returned value => return .returned value
        | .completed _ => runLoop fuel env condition body
      else
        return .completed env

/-- Each statement hands its environment on to the next one. -/
def runStmts : Nat → Env → List Stmt → Eval Flow
  | 0, _, _ => throw .outOfFuel
  | _ + 1, env, [] => return .completed env
  | fuel + 1, env, stmt :: rest => do
      match ← runStmt fuel env stmt with
      | .returned value => return .returned value
      | .completed env => runStmts fuel env rest

end

/-- Before a program runs, the globals are the native functions. -/
def Memory.initial : Memory :=
  ⟨#[], Native.all.foldl (fun globals native => globals.put native.name (.native native)) []⟩

/-- A program runs at the top level. -/
def run (fuel : Nat) (clock : Nat → Float) (output : Sink) (program : Program) : Run :=
  match (runStmts clock fuel .top program).run ⟨.initial, output, 0, 0⟩ with
  | .ok _ state => ⟨[], state.output, .finished⟩
  | .error halt state => ⟨(Ending.halted halt).error?.toList, state.output, .halted halt⟩

end Lox.Lexical
