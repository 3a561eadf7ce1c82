import Lox.Proofs.Run.Halting

namespace Lox.Evaluation

open Lox.Computation

/-- Work on statements ends with a flow and not with a value. -/
def Task.Executes : Task → Prop
  | .stmt .. | .loop .. | .stmts .. => True
  | .expr .. | .exprs .. | .option .. | .call .. | .access .. => False

section
variable (context : Context)

/-- The statements at a moment end with a flow. -/
def Flows (moment : Moment) (flow : Flow) (after : State) : Prop :=
  match moment.task with
  | .stmt env stmt => Gives (runStmt context moment.fuel env stmt) moment.state flow after
  | .loop env condition body =>
      Gives (runLoop context moment.fuel env condition body) moment.state flow after
  | .stmts env stmts => Gives (runStmts context moment.fuel env stmts) moment.state flow after
  | .expr .. | .exprs .. | .option .. | .call .. | .access .. => False

/-- A return statement gives back a value, which is `nil` without an expression. -/
inductive GivesBack : Moment → Value → State → Prop
  | bare {fuel : Nat} {env : Env} {span keyword : Span} {state : State} :
      GivesBack ⟨fuel + 2, .stmt env (.giveBack span keyword none), state⟩ .nil state
  | valued {fuel : Nat} {env : Env} {span keyword : Span} {expr : Expr} {value : Value}
      {state after : State} (given : Gives (evalExpr context fuel env expr) state value after) :
      GivesBack ⟨fuel + 2, .stmt env (.giveBack span keyword (some expr)), state⟩ value after

/-- The statements at one moment execute those at another one, without a call between. -/
abbrev Within : Moment → Moment → Prop :=
  Relation.ReflTransGen fun moment part =>
    Part context moment part ∧ moment.task.Executes ∧ part.task.Executes

end

section
variable {context : Context} {moment part last : Moment} {value : Value} {after : State}

/-- What gives a value back is a statement being executed. -/
theorem GivesBack.executes (gives : GivesBack context moment value after) :
    moment.task.Executes := by
  cases gives <;> trivial

/-- What gives a value back ends with that return. -/
theorem GivesBack.flows (gives : GivesBack context moment value after) :
    Flows context moment (.returned value) after := by
  cases gives with
  | bare => exact rfl
  | valued given =>
      change Gives _ _ _ _
      rw [runStmt, gives_bind]
      refine ⟨_, _, ?_, gives_pure.2 ⟨rfl, rfl⟩⟩
      rwa [evalOption]

/-- A value that is given back inside of a statement is given back by the statement. -/
theorem Part.flows (leads : Part context moment part) (executes : moment.task.Executes)
    (flows : Flows context part (.returned value) after) :
    Flows context moment (.returned value) after := by
  cases leads with
  | «variable» | assignValue | assign | group | unary | binaryLeft | binaryRight | logicalLeft
  | logicalRight | callee | arguments | call | first | rest | some | body => exact executes.elim
  | expression | print | initializer | condition | giveBack | test => exact flows.elim
  | block opened =>
      change Gives _ _ _ _
      rw [runStmt, gives_step opened]
      exact flows
  | consequent first holds =>
      change Gives _ _ _ _
      rw [runStmt_branch, gives_step first]
      simp only [holds, ↓reduceIte]
      exact flows
  | alternative first fails =>
      change Gives _ _ _ _
      rw [runStmt_branch, gives_step first]
      simp only [fails, Bool.false_eq_true, ↓reduceIte]
      exact flows
  | loop =>
      change Gives _ _ _ _
      rw [runStmt]
      exact flows
  | turn first holds =>
      change Gives _ _ _ _
      rw [runLoop, gives_step first]
      simp only [holds, ↓reduceIte]
      rw [gives_bind]
      exact ⟨_, _, flows, rfl⟩
  | again first holds turned =>
      change Gives _ _ _ _
      rw [runLoop, gives_step first]
      simp only [holds, ↓reduceIte]
      rw [gives_step turned]
      exact flows
  | head =>
      change Gives _ _ _ _
      rw [runStmts, gives_bind]
      exact ⟨_, _, flows, rfl⟩
  | tail first =>
      change Gives _ _ _ _
      rw [runStmts, gives_step first]
      exact flows

/-- A return within a moment is the return of the moment. -/
theorem Within.flows (within : Within context moment last)
    (flows : Flows context last (.returned value) after) :
    Flows context moment (.returned value) after := by
  induction within using Relation.ReflTransGen.head_induction_on with
  | refl => exact flows
  | head step _ ih => exact step.1.flows step.2.1 ih

/-- A halt within a moment is the halt of the moment. -/
theorem Within.halts {halt : Halt} (within : Within context moment last)
    (halted : Halts context last halt after) : Halts context moment halt after := by
  induction within using Relation.ReflTransGen.head_induction_on with
  | refl => exact halted
  | head step _ ih => exact step.1.halts ih

end

section
variable (context : Context)

/-- Statements are a return that gives back a value, or a part of them gives it back. -/
def ReturnsInPart (moment : Moment) (value : Value) (after : State) : Prop :=
  GivesBack context moment value after ∨
    ∃ part, Part context moment part ∧ part.task.Executes ∧
      Flows context part (.returned value) after

end

section
variable {context : Context} {fuel : Nat} {env : Env} {state after : State} {value : Value}

/-- A statement that returns does so in one of its parts or is the `return` itself. -/
theorem stmt_returns {stmt : Stmt}
    (flows : Gives (runStmt context (fuel + 1) env stmt) state (.returned value) after) :
    ReturnsInPart context ⟨fuel + 1, .stmt env stmt, state⟩ value after := by
  cases stmt with
  | expression span value =>
      rw [runStmt, discard_bind, gives_bind] at flows
      obtain ⟨_, _, -, ended⟩ := flows
      cases ended
  | print span value =>
      rw [runStmt, gives_bind] at flows
      obtain ⟨_, _, -, rest⟩ := flows
      obtain ⟨_, _, -, ended⟩ := gives_bind.1 rest
      cases ended
  | «variable» span name initializer =>
      rw [runStmt, gives_bind] at flows
      obtain ⟨_, _, -, rest⟩ := flows
      obtain ⟨_, _, -, ended⟩ := gives_bind.1 rest
      cases ended
  | function span name parameters body =>
      rw [runStmt, gives_bind] at flows
      obtain ⟨_, _, -, rest⟩ := flows
      obtain ⟨_, _, -, ended⟩ := gives_bind.1 rest
      cases ended
  | block span body =>
      rw [runStmt, gives_bind] at flows
      obtain ⟨inner, opened, first, rest⟩ := flows
      exact .inr ⟨_, .block first, trivial, rest⟩
  | branch span condition consequent alternative =>
      rw [runStmt_branch, gives_bind] at flows
      obtain ⟨given, middle, first, rest⟩ := flows
      split at rest
      next holds => exact .inr ⟨_, .consequent first holds, trivial, rest⟩
      next fails =>
        rw [Bool.not_eq_true] at fails
        cases alternative with
        | some other => exact .inr ⟨_, .alternative first fails, trivial, rest⟩
        | none => cases rest
  | loop span condition body => exact .inr ⟨_, .loop, trivial, flows⟩
  | giveBack span keyword given =>
      rw [runStmt, gives_bind] at flows
      obtain ⟨result, middle, first, ended⟩ := flows
      cases ended
      cases fuel with
      | zero => cases first
      | succ fuel =>
          cases given with
          | none =>
              cases first
              exact .inl .bare
          | some expr => exact .inl (.valued first)

/-- A loop that returns does so in one of its turns. -/
theorem loop_returns {condition : Expr} {body : Stmt}
    (flows : Gives (runLoop context (fuel + 1) env condition body) state (.returned value) after) :
    ReturnsInPart context ⟨fuel + 1, .loop env condition body, state⟩ value after := by
  rw [runLoop, gives_bind] at flows
  obtain ⟨given, middle, first, rest⟩ := flows
  split at rest
  next holds =>
    obtain ⟨flow, turned, second, further⟩ := gives_bind.1 rest
    cases flow with
    | completed => exact .inr ⟨_, .again first holds second, trivial, further⟩
    | returned result =>
        cases further
        exact .inr ⟨_, .turn first holds, trivial, second⟩
  next => cases rest

/-- Statements that return do so in one of them. -/
theorem stmts_returns {stmts : List Stmt}
    (flows : Gives (runStmts context (fuel + 1) env stmts) state (.returned value) after) :
    ReturnsInPart context ⟨fuel + 1, .stmts env stmts, state⟩ value after := by
  cases stmts with
  | nil => cases flows
  | cons stmt others =>
      rw [runStmts, gives_bind] at flows
      obtain ⟨flow, middle, first, rest⟩ := flows
      cases flow with
      | completed => exact .inr ⟨_, .tail first, trivial, rest⟩
      | returned result =>
          cases rest
          exact .inr ⟨_, .head, trivial, first⟩

end

section
variable {context : Context} {moment last : Moment} {value : Value} {after : State}

/-- Whatever returns does so in one of its parts or is the `return` itself. -/
theorem Flows.returnsInPart (flows : Flows context moment (.returned value) after) :
    ReturnsInPart context moment value after := by
  obtain ⟨fuel, task, state⟩ := moment
  cases task with
  | expr | exprs | option | call | access => exact flows.elim
  | stmt env stmt =>
      cases fuel with
      | zero => cases flows
      | succ fuel => exact stmt_returns flows
  | loop env condition body =>
      cases fuel with
      | zero => cases flows
      | succ fuel => exact loop_returns flows
  | stmts env stmts =>
      cases fuel with
      | zero => cases flows
      | succ fuel => exact stmts_returns flows

/-- Statements give back a value exactly if they execute a return that gives it back. -/
theorem returned_iff (executes : moment.task.Executes) :
    Flows context moment (.returned value) after ↔
      ∃ last, Within context moment last ∧ GivesBack context last value after := by
  constructor
  · intro flows
    induction fuel : moment.fuel using Nat.strongRecOn generalizing moment with
    | ind fuel ih =>
        rcases flows.returnsInPart with gives | ⟨part, leads, inside, further⟩
        · exact ⟨moment, .refl, gives⟩
        · obtain ⟨last, within, gives⟩ := ih part.fuel (fuel ▸ leads.fuel_lt) inside further rfl
          exact ⟨last, .head ⟨leads, executes, inside⟩ within, gives⟩
  · rintro ⟨last, within, gives⟩
    exact within.flows gives.flows

/-- The value of a call is the one that its body gives back, or `nil` if the body completes. -/
theorem call_gives_iff {fuel : Nat} {closure : Closure} {given : List Value} {span : Span}
    {state : State} :
    Gives (call context (fuel + 1) (.closure closure) given span) state value after ↔
      closure.parameters.length = given.length ∧
        ∃ env entered, Gives (enter closure given) state env entered ∧
          (Flows context ⟨fuel, .stmts env closure.body, entered⟩ .completed after ∧
              value = .nil ∨
            ∃ last, Within context ⟨fuel, .stmts env closure.body, entered⟩ last ∧
              GivesBack context last value after) := by
  rw [call]
  by_cases fits : closure.parameters.length = given.length
  · rw [gives_step (checkArity_of_eq fits), gives_bind]
    refine Iff.trans ?_ (and_iff_right fits).symm
    refine exists_congr fun env => exists_congr fun entered => and_congr_right fun entering => ?_
    have returned : Flows context ⟨fuel, .stmts env closure.body, entered⟩ (.returned value)
        after ↔ _ := returned_iff trivial
    rw [← returned, gives_bind]
    constructor
    · rintro ⟨flow, ended, ran, result⟩
      cases flow with
      | completed =>
          obtain ⟨rfl, rfl⟩ := gives_pure.1 result
          exact .inl ⟨ran, rfl⟩
      | returned given =>
          obtain ⟨rfl, rfl⟩ := gives_pure.1 result
          exact .inr ran
    · rintro (⟨ran, rfl⟩ | ran)
      · exact ⟨_, _, ran, rfl⟩
      · exact ⟨_, _, ran, rfl⟩
  · refine iff_of_false ?_ fun both => fits both.1
    rw [gives_bind]
    rintro ⟨_, _, checked, -⟩
    cases (checkArity_of_ne fits).symm.trans checked

/-- Statements are executed by other statements, or they are the body of a call. -/
theorem Part.executes_of {part : Moment} (leads : Part context moment part)
    (inside : part.task.Executes) :
    moment.task.Executes ∨ ∃ fuel closure given span state env entered,
      moment = ⟨fuel + 1, .call (.closure closure) given span, state⟩ ∧
        closure.parameters.length = given.length ∧ Gives (enter closure given) state env entered ∧
        part = ⟨fuel, .stmts env closure.body, entered⟩ := by
  cases leads with
  | «variable» | assignValue | assign | group | unary | binaryLeft | binaryRight | logicalLeft
  | logicalRight | callee | arguments | call | first | rest | some | expression | print
  | initializer | condition | giveBack | test => exact inside.elim
  | body fits entered => exact .inr ⟨_, _, _, _, _, _, _, rfl, fits, entered, rfl⟩
  | block | consequent | alternative | loop | turn | again | head | tail => exact .inl trivial

/-- The innermost call around some statements, and those between, or all statements around them if
there is no call. -/
theorem Way.innermost {start : Moment} {above : List Moment}
    (way : Way context start (last :: above)) (inside : last.task.Executes) :
    (∀ moment ∈ above, Within context moment last) ∨
      ∃ inner outer fuel closure given span state env entered,
        above = inner ++ ⟨fuel + 1, .call (.closure closure) given span, state⟩ :: outer ∧
          closure.parameters.length = given.length ∧
          Gives (enter closure given) state env entered ∧
          (∀ moment ∈ inner, Within context moment last) ∧
          Within context ⟨fuel, .stmts env closure.body, entered⟩ last := by
  generalize whole : last :: above = moments at way
  induction way generalizing last above with
  | start =>
      cases whole
      exact .inl nofun
  | @part moment part above _ leads ih =>
      cases whole
      rcases leads.executes_of inside with executes | called
      · have further : Within context moment part := .single ⟨leads, executes, inside⟩
        rcases ih executes rfl with outside | ⟨inner, outer, fuel, closure, given, span, state, env,
            entered, split, fits, entering, between, within⟩
        · refine .inl (List.forall_mem_cons.2 ⟨further, fun other among => ?_⟩)
          exact (outside other among).trans further
        · refine .inr ⟨moment :: inner, outer, fuel, closure, given, span, state, env, entered,
            by rw [split]; rfl, fits, entering, List.forall_mem_cons.2 ⟨further, ?_⟩,
            within.trans further⟩
          exact fun other among => (between other among).trans further
      · obtain ⟨fuel, closure, given, span, state, env, entered, rfl, fits, entering, rfl⟩ := called
        exact .inr ⟨[], above, fuel, closure, given, span, state, env, entered, rfl, fits,
          entering, nofun, .refl⟩

end

end Lox.Evaluation
