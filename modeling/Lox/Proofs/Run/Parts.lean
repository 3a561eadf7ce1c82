import Mathlib.Logic.Relation
import Lox.Evaluation
import Lox.Proofs.Computation

namespace Lox.Evaluation

open Lox.Computation

/-- A branch runs one of its statements, or none. -/
theorem runStmt_branch {context : Context} {fuel : Nat} {env : Env} (span : Span)
    (condition : Expr) (consequent : Stmt) (alternative : Option Stmt) :
    runStmt context (fuel + 1) env (.branch span condition consequent alternative) = do
      if (← evalExpr context fuel env condition).isTrue then
        runStmt context fuel env consequent
      else
        match alternative with
        | some alternative => runStmt context fuel env alternative
        | none => return .completed := by
  cases alternative <;> rw [runStmt]

/-- What a run works on. An access is a read or an assignment of a variable. -/
inductive Task where
  | expr (env : Env) (expr : Expr)
  | exprs (env : Env) (exprs : List Expr)
  | option (env : Env) (given : Option Expr)
  | call (callee : Value) (given : List Value) (span : Span)
  | stmt (env : Env) (stmt : Stmt)
  | loop (env : Env) (condition : Expr) (body : Stmt)
  | stmts (env : Env) (stmts : List Stmt)
  | access (env : Env) (target : Occurrence)

/-- A moment of a run is the fuel that is left, the work and the state. -/
structure Moment where
  fuel : Nat
  task : Task
  state : State

section
variable (context : Context)

/-- The work at one moment leads to a part of it. A later part starts in the state that the earlier
ones end in. -/
inductive Part : Moment → Moment → Prop
  | variable {fuel : Nat} {env : Env} {target : Occurrence} {state : State} :
      Part ⟨fuel + 1, .expr env (.variable target), state⟩ ⟨fuel, .access env target, state⟩
  | assignValue {fuel : Nat} {env : Env} {span : Span} {target : Occurrence} {value : Expr}
      {state : State} :
      Part ⟨fuel + 1, .expr env (.assign span target value), state⟩ ⟨fuel, .expr env value, state⟩
  | assign {fuel : Nat} {env : Env} {span : Span} {target : Occurrence} {value : Expr}
      {given : Value} {state after : State}
      (valued : Gives (evalExpr context fuel env value) state given after) :
      Part ⟨fuel + 1, .expr env (.assign span target value), state⟩
        ⟨fuel, .access env target, after⟩
  | group {fuel : Nat} {env : Env} {span : Span} {inner : Expr} {state : State} :
      Part ⟨fuel + 1, .expr env (.group span inner), state⟩ ⟨fuel, .expr env inner, state⟩
  | unary {fuel : Nat} {env : Env} {span : Span} {op : Located UnaryOp} {operand : Expr}
      {state : State} :
      Part ⟨fuel + 1, .expr env (.unary span op operand), state⟩ ⟨fuel, .expr env operand, state⟩
  | binaryLeft {fuel : Nat} {env : Env} {span : Span} {op : Located BinaryOp} {left right : Expr}
      {state : State} :
      Part ⟨fuel + 1, .expr env (.binary span op left right), state⟩ ⟨fuel, .expr env left, state⟩
  | binaryRight {fuel : Nat} {env : Env} {span : Span} {op : Located BinaryOp}
      {left right : Expr} {given : Value} {state after : State}
      (first : Gives (evalExpr context fuel env left) state given after) :
      Part ⟨fuel + 1, .expr env (.binary span op left right), state⟩ ⟨fuel, .expr env right, after⟩
  | logicalLeft {fuel : Nat} {env : Env} {span : Span} {op : Located LogicalOp}
      {left right : Expr} {state : State} :
      Part ⟨fuel + 1, .expr env (.logical span op left right), state⟩ ⟨fuel, .expr env left, state⟩
  | logicalRight {fuel : Nat} {env : Env} {span : Span} {op : Located LogicalOp}
      {left right : Expr} {given : Value} {state after : State}
      (first : Gives (evalExpr context fuel env left) state given after)
      (open_ : op.item.isDecidedBy given = false) :
      Part ⟨fuel + 1, .expr env (.logical span op left right), state⟩
        ⟨fuel, .expr env right, after⟩
  | callee {fuel : Nat} {env : Env} {span paren : Span} {callee : Expr} {given : List Expr}
      {state : State} :
      Part ⟨fuel + 1, .expr env (.call span paren callee given), state⟩
        ⟨fuel, .expr env callee, state⟩
  | arguments {fuel : Nat} {env : Env} {span paren : Span} {callee : Expr} {given : List Expr}
      {function : Value} {state after : State}
      (first : Gives (evalExpr context fuel env callee) state function after)
      (callable : function.isCallable = true) :
      Part ⟨fuel + 1, .expr env (.call span paren callee given), state⟩
        ⟨fuel, .exprs env given, after⟩
  | call {fuel : Nat} {env : Env} {span paren : Span} {callee : Expr} {given : List Expr}
      {function : Value} {values : List Value} {state after last : State}
      (first : Gives (evalExpr context fuel env callee) state function after)
      (callable : function.isCallable = true)
      (passed : Gives (evalExprs context fuel env given) after values last) :
      Part ⟨fuel + 1, .expr env (.call span paren callee given), state⟩
        ⟨fuel, .call function values paren, last⟩
  | first {fuel : Nat} {env : Env} {expr : Expr} {rest : List Expr} {state : State} :
      Part ⟨fuel + 1, .exprs env (expr :: rest), state⟩ ⟨fuel, .expr env expr, state⟩
  | rest {fuel : Nat} {env : Env} {expr : Expr} {rest : List Expr} {given : Value}
      {state after : State} (first : Gives (evalExpr context fuel env expr) state given after) :
      Part ⟨fuel + 1, .exprs env (expr :: rest), state⟩ ⟨fuel, .exprs env rest, after⟩
  | some {fuel : Nat} {env : Env} {expr : Expr} {state : State} :
      Part ⟨fuel + 1, .option env (some expr), state⟩ ⟨fuel, .expr env expr, state⟩
  | body {fuel : Nat} {closure : Closure} {given : List Value} {span : Span} {env : Env}
      {state after : State} (fits : closure.parameters.length = given.length)
      (entered : Gives (enter closure given) state env after) :
      Part ⟨fuel + 1, .call (.closure closure) given span, state⟩
        ⟨fuel, .stmts env closure.body, after⟩
  | expression {fuel : Nat} {env : Env} {span : Span} {value : Expr} {state : State} :
      Part ⟨fuel + 1, .stmt env (.expression span value), state⟩ ⟨fuel, .expr env value, state⟩
  | print {fuel : Nat} {env : Env} {span : Span} {value : Expr} {state : State} :
      Part ⟨fuel + 1, .stmt env (.print span value), state⟩ ⟨fuel, .expr env value, state⟩
  | initializer {fuel : Nat} {env : Env} {span : Span} {name : Name} {value : Option Expr}
      {state : State} :
      Part ⟨fuel + 1, .stmt env (.variable span name value), state⟩
        ⟨fuel, .option env value, state⟩
  | block {fuel : Nat} {env inner : Env} {span : Span} {body : List Stmt} {state after : State}
      (opened : Gives (nest env) state inner after) :
      Part ⟨fuel + 1, .stmt env (.block span body), state⟩ ⟨fuel, .stmts inner body, after⟩
  | condition {fuel : Nat} {env : Env} {span : Span} {condition : Expr} {consequent : Stmt}
      {alternative : Option Stmt} {state : State} :
      Part ⟨fuel + 1, .stmt env (.branch span condition consequent alternative), state⟩
        ⟨fuel, .expr env condition, state⟩
  | consequent {fuel : Nat} {env : Env} {span : Span} {condition : Expr} {consequent : Stmt}
      {alternative : Option Stmt} {given : Value} {state after : State}
      (first : Gives (evalExpr context fuel env condition) state given after)
      (holds : given.isTrue = true) :
      Part ⟨fuel + 1, .stmt env (.branch span condition consequent alternative), state⟩
        ⟨fuel, .stmt env consequent, after⟩
  | alternative {fuel : Nat} {env : Env} {span : Span} {condition : Expr} {consequent : Stmt}
      {alternative : Stmt} {given : Value} {state after : State}
      (first : Gives (evalExpr context fuel env condition) state given after)
      (fails : given.isTrue = false) :
      Part ⟨fuel + 1, .stmt env (.branch span condition consequent (some alternative)), state⟩
        ⟨fuel, .stmt env alternative, after⟩
  | loop {fuel : Nat} {env : Env} {span : Span} {condition : Expr} {body : Stmt} {state : State} :
      Part ⟨fuel + 1, .stmt env (.loop span condition body), state⟩
        ⟨fuel, .loop env condition body, state⟩
  | giveBack {fuel : Nat} {env : Env} {span keyword : Span} {value : Option Expr}
      {state : State} :
      Part ⟨fuel + 1, .stmt env (.giveBack span keyword value), state⟩
        ⟨fuel, .option env value, state⟩
  | test {fuel : Nat} {env : Env} {condition : Expr} {body : Stmt} {state : State} :
      Part ⟨fuel + 1, .loop env condition body, state⟩ ⟨fuel, .expr env condition, state⟩
  | turn {fuel : Nat} {env : Env} {condition : Expr} {body : Stmt} {given : Value}
      {state after : State} (first : Gives (evalExpr context fuel env condition) state given after)
      (holds : given.isTrue = true) :
      Part ⟨fuel + 1, .loop env condition body, state⟩ ⟨fuel, .stmt env body, after⟩
  | again {fuel : Nat} {env : Env} {condition : Expr} {body : Stmt} {given : Value}
      {state after last : State}
      (first : Gives (evalExpr context fuel env condition) state given after)
      (holds : given.isTrue = true)
      (turned : Gives (runStmt context fuel env body) after .completed last) :
      Part ⟨fuel + 1, .loop env condition body, state⟩ ⟨fuel, .loop env condition body, last⟩
  | head {fuel : Nat} {env : Env} {stmt : Stmt} {rest : List Stmt} {state : State} :
      Part ⟨fuel + 1, .stmts env (stmt :: rest), state⟩ ⟨fuel, .stmt env stmt, state⟩
  | tail {fuel : Nat} {env : Env} {stmt : Stmt} {rest : List Stmt} {state after : State}
      (first : Gives (runStmt context fuel env stmt) state .completed after) :
      Part ⟨fuel + 1, .stmts env (stmt :: rest), state⟩ ⟨fuel, .stmts env rest, after⟩

/-- One moment of a run leads to another. -/
abbrev Reaches : Moment → Moment → Prop := Relation.ReflTransGen (Part context)

/-- The moments on a way from the start of a run to a later moment, the last one first. -/
inductive Way (start : Moment) : List Moment → Prop
  | start : Way start [start]
  | part {moment part : Moment} {above : List Moment} (way : Way start (moment :: above))
      (leads : Part context moment part) : Way start (part :: moment :: above)

/-- A reached moment is reached on some way. -/
theorem exists_way {start moment : Moment} (reached : Reaches context start moment) :
    ∃ above, Way context start (moment :: above) := by
  induction reached with
  | refl => exact ⟨[], .start⟩
  | tail _ leads ih =>
      obtain ⟨above, way⟩ := ih
      exact ⟨_, .part way leads⟩

end

end Lox.Evaluation
