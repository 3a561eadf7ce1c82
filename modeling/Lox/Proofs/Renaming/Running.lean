import Lox.Proofs.Renaming.Memory

namespace Lox.Lexical

open Lox.Computation
open Evaluation (Coupled Parallel checkArity_parallel notCallable_parallel applyUnary_parallel
  applyBinary_parallel readClock_parallel printLine_parallel)

/-- The renaming fits all mentions of some code. -/
abbrev AllFit (new : Renaming) (mentions : List Mention) : Prop :=
  ∀ mention ∈ mentions, new.Fits mention

/-- Statements end alike when both complete and the code behind them stands alike, or both give back
like values. -/
inductive Ends (new : Renaming) (view : View) (size : Nat) : Flow → Flow → Prop
  | completed {env inner : Env} (standing : Standing new size view env inner) :
      Ends new view size (.completed env) (.completed inner)
  | returned {value held : Value} (alike : Renamed new size value held) :
      Ends new view size (.returned value) (.returned held)

/-- All work with an amount of fuel goes on in parallel. -/
structure InParallel (new : Renaming) (clock : Nat → Float) (fuel : Nat) : Prop where
  expr : ∀ ⦃size seen locals others expr⦄, Likewise new size seen locals others →
    AllFit new (mentionsExpr seen expr) →
      Parallel (renamed new) size (evalExpr clock fuel locals expr)
        (evalExpr clock fuel others (new.expr expr)) (Renamed new)
  exprs : ∀ ⦃size seen locals others exprs⦄, Likewise new size seen locals others →
    AllFit new (mentionsExprs seen exprs) →
      Parallel (renamed new) size (evalExprs clock fuel locals exprs)
        (evalExprs clock fuel others (new.exprs exprs))
        (fun grown => List.Forall₂ (Renamed new grown))
  option : ∀ ⦃size seen locals others given⦄, Likewise new size seen locals others →
    AllFit new (mentionsOption seen given) →
      Parallel (renamed new) size (evalOption clock fuel locals given)
        (evalOption clock fuel others (given.map new.expr)) (Renamed new)
  call : ∀ ⦃size callee held given same⦄, Renamed new size callee held →
    List.Forall₂ (Renamed new size) given same → ∀ span,
      Parallel (renamed new) size (call clock fuel callee given span)
        (call clock fuel held same span) (Renamed new)
  stmt : ∀ ⦃size view env inner stmt⦄, Standing new size view env inner →
    AllFit new (mentionsStmt view stmt) →
      Parallel (renamed new) size (runStmt clock fuel env stmt)
        (runStmt clock fuel inner (new.stmt stmt)) (Ends new (view.after stmt))
  loop : ∀ ⦃size view env inner condition body⦄, Standing new size view env inner →
    AllFit new (mentionsExpr view.seen condition) → AllFit new (mentionsStmt view body) →
      Parallel (renamed new) size (runLoop clock fuel env condition body)
        (runLoop clock fuel inner (new.expr condition) (new.stmt body)) (Ends new view)
  stmts : ∀ ⦃size view env inner stmts⦄, Standing new size view env inner →
    AllFit new (mentionsStmts view stmts) →
      Parallel (renamed new) size (runStmts clock fuel env stmts)
        (runStmts clock fuel inner (new.stmts stmts)) (Ends new (stmts.foldl View.after view))

variable {new : Renaming} {clock : Nat → Float} {fuel size : Nat}

section
variable (parts : InParallel new clock fuel) {seen : Seen} {locals others : Locals}
  (likewise : Likewise new size seen locals others)
include parts likewise

/-- One more unit of fuel keeps an expression and the renamed one together. -/
theorem expr_parallel {expr : Expr} (fits : AllFit new (mentionsExpr seen expr)) :
    Parallel (renamed new) size (evalExpr clock (fuel + 1) locals expr)
      (evalExpr clock (fuel + 1) others (new.expr expr)) (Renamed new) := by
  cases expr with
  | literal span value => exact .pure (.ofLiteral value)
  | «variable» target => exact read_parallel likewise (fits _ List.mem_cons_self)
  | assign span target value =>
      obtain ⟨here, inside⟩ := List.forall_mem_cons.1 fits
      rw [Renaming.expr, evalExpr, evalExpr]
      refine (parts.expr likewise inside).bind fun grown value same grows alike => ?_
      exact (assign_parallel (likewise.grow grows) here alike).map
        fun final _ _ more _ => alike.grow more
  | group span inner => exact parts.expr likewise fits
  | unary span op operand =>
      have inside : AllFit new (mentionsExpr seen operand) := fits
      rw [Renaming.expr, evalExpr, evalExpr]
      refine (parts.expr likewise inside).bind fun grown value same grows alike => ?_
      exact applyUnary_parallel alike op
  | binary span op left right =>
      obtain ⟨first, second⟩ := List.forall_mem_append.1 fits
      rw [Renaming.expr, evalExpr, evalExpr]
      refine (parts.expr likewise first).bind fun grown value same grows alike => ?_
      refine (parts.expr (likewise.grow grows) second).bind ?_
      intro final other another more also
      exact applyBinary_parallel RenamedClosure.keeps (alike.grow more) also op
  | logical span op left right =>
      obtain ⟨first, second⟩ := List.forall_mem_append.1 fits
      rw [Renaming.expr, evalExpr, evalExpr]
      refine (parts.expr likewise first).bind fun grown value same grows alike => ?_
      rw [alike.isDecidedBy]
      split
      next => exact .pure alike
      next => exact parts.expr (likewise.grow grows) second
  | call span paren callee given =>
      obtain ⟨first, second⟩ := List.forall_mem_append.1 fits
      rw [Renaming.expr, evalExpr, evalExpr]
      refine (parts.expr likewise first).bind fun grown value same grows alike => ?_
      rw [alike.isCallable]
      split
      next =>
        refine (parts.exprs (likewise.grow grows) second).bind ?_
        intro final values others more passed
        exact parts.call (alike.grow more) passed paren
      next => exact notCallable_parallel alike paren

/-- One more unit of fuel keeps expressions and the renamed ones together. -/
theorem exprs_parallel {exprs : List Expr} (fits : AllFit new (mentionsExprs seen exprs)) :
    Parallel (renamed new) size (evalExprs clock (fuel + 1) locals exprs)
      (evalExprs clock (fuel + 1) others (new.exprs exprs))
      (fun grown => List.Forall₂ (Renamed new grown)) := by
  cases exprs with
  | nil => exact .pure .nil
  | cons expr rest =>
      obtain ⟨first, second⟩ := List.forall_mem_append.1 fits
      rw [Renaming.exprs, evalExprs, evalExprs]
      refine (parts.expr likewise first).bind fun grown value same grows alike => ?_
      exact (parts.exprs (likewise.grow grows) second).map
        fun final values others more passed => .cons (alike.grow more) passed

theorem option_parallel {given : Option Expr} (fits : AllFit new (mentionsOption seen given)) :
    Parallel (renamed new) size (evalOption clock (fuel + 1) locals given)
      (evalOption clock (fuel + 1) others (given.map new.expr)) (Renamed new) := by
  cases given with
  | none => exact .pure .nil
  | some expr => exact parts.expr likewise fits

end

/-- The parameters are declared one after the other. -/
theorem parameters_parallel {seen : Seen} {env inner : Env} {parameters : List Name}
    {given same : List Value} (standing : Standing new size (.inner seen) env inner)
    (fits : AllFit new (mentionsParameters parameters))
    (many : parameters.length = given.length)
    (passed : List.Forall₂ (Renamed new size) given same) :
    Parallel (renamed new) size
      (((parameters.map Located.item).zip given).foldlM
        (fun env (name, value) => declare env name value) env)
      ((((parameters.map new.located).map Located.item).zip same).foldlM
        (fun env (name, value) => declare env name value) inner)
      (fun grown => Standing new grown (.within seen parameters)) := by
  induction parameters generalizing size seen env inner given same with
  | nil => exact .pure standing
  | cons name rest ih =>
      cases passed with
      | nil => cases many
      | cons first others =>
          obtain ⟨here, fits⟩ := List.forall_mem_cons.1 fits
          refine (declare_parallel standing here first).bind ?_
          intro grown _ _ more behind
          have passed := others.imp fun _ _ given => given.grow more
          exact ih behind fits (Nat.succ.inj many) passed

section
variable {view after : View} {env inner : Env} {flow held : Flow}

/-- Behind a statement that declares nothing stands what stood before. -/
theorem Ends.leave {grown : Nat} (standing : Standing new size view env inner)
    (more : size ≤ grown) (ends : Ends new after grown flow held) :
    Ends new view grown (flow.leave env) (held.leave inner) := by
  cases ends with
  | completed => exact .completed (standing.grow more)
  | returned alike => exact .returned alike

end

section
variable (parts : InParallel new clock fuel)
include parts

/-- A function and the renamed one are called alike. -/
theorem call_parallel {callee held : Value} {given same : List Value}
    (alike : Renamed new size callee held) (passed : List.Forall₂ (Renamed new size) given same)
    (span : Span) :
    Parallel (renamed new) size (call clock (fuel + 1) callee given span)
      (call clock (fuel + 1) held same span) (Renamed new) := by
  have many := passed.length_eq
  have refused : Parallel (renamed new) size (Evaluation.notCallable callee span)
      (Evaluation.notCallable held span) (Renamed new) := notCallable_parallel alike span
  cases alike with
  | nil | bool | number | string => exact refused
  | native provided =>
      cases provided
      rw [call, call, many]
      exact (checkArity_parallel _ _ _ span).bind fun _ _ _ _ _ => readClock_parallel clock
  | @closure closure other alike =>
      obtain ⟨parameters, seen, names, renamedNames, body, likewise, outside, inside⟩ :=
        alike.declared
      have length : other.parameters.length = closure.parameters.length := by
        simp only [names, renamedNames, List.length_map]
      rw [call, call, ← many, ← alike.name, length, body]
      refine (checkArity_parallel _ _ _ span).bind fun _ _ _ grown arity => ?_
      have passed := passed.imp fun _ _ given => given.grow grown
      unfold enter
      rw [names, List.length_map] at arity
      rw [names, renamedNames]
      refine (parameters_parallel (.inner (likewise.grow grown)) outside arity passed).bind ?_
      intro grown env inner _ standing
      refine (parts.stmts standing inside).bind fun _ flow held _ ended => ?_
      cases ended with
      | completed => exact .pure .nil
      | returned alike => exact .pure alike

section
variable {view : View} {env inner : Env} (standing : Standing new size view env inner)
include standing

/-- A statement under an `if` leaves what it has found. -/
theorem silent_parallel {stmt : Stmt} (fits : AllFit new (mentionsStmt view stmt)) :
    Parallel (renamed new) size (runStmt clock fuel env stmt >>= fun flow => pure (flow.leave env))
      (runStmt clock fuel inner (new.stmt stmt) >>= fun held => pure (held.leave inner))
      (Ends new view) :=
  (parts.stmt standing fits).map fun _ _ _ more ended => ended.leave standing more

/-- One more unit of fuel keeps a statement and the renamed one together. -/
theorem stmt_parallel {stmt : Stmt} (fits : AllFit new (mentionsStmt view stmt)) :
    Parallel (renamed new) size (runStmt clock (fuel + 1) env stmt)
      (runStmt clock (fuel + 1) inner (new.stmt stmt)) (Ends new (view.after stmt)) := by
  cases stmt with
  | expression span value =>
      rw [Renaming.stmt, runStmt, runStmt, discard_bind, discard_bind]
      exact (parts.expr standing.likewise fits).map
        fun _ _ _ more _ => .completed (standing.grow more)
  | print span value =>
      rw [Renaming.stmt, runStmt, runStmt]
      refine (parts.expr standing.likewise fits).bind fun _ _ _ more alike => ?_
      exact (printLine_parallel RenamedClosure.keeps alike span).map
        fun _ _ _ further _ => .completed ((standing.grow more).grow further)
  | «variable» span name initializer =>
      obtain ⟨here, inside⟩ := List.forall_mem_cons.1 fits
      rw [Renaming.stmt, runStmt, runStmt]
      refine (parts.option standing.likewise inside).bind fun _ _ _ more alike => ?_
      exact (declare_parallel (standing.grow more) here alike).map
        fun _ _ _ _ behind => .completed behind
  | function span name parameters body =>
      obtain ⟨here, fits⟩ := List.forall_mem_cons.1 fits
      obtain ⟨outside, inside⟩ := List.forall_mem_append.1 fits
      rw [Renaming.stmt, runStmt, runStmt]
      exact (declareFunction_parallel standing here outside inside).map
        fun _ _ _ _ behind => .completed behind
  | block span body =>
      rw [Renaming.stmt, runStmt, runStmt]
      exact (parts.stmts (.inner standing.likewise) fits).map
        fun _ _ _ more ended => ended.leave standing more
  | branch span condition consequent alternative =>
      cases alternative with
      | none =>
          obtain ⟨tested, fits⟩ := List.forall_mem_append.1 fits
          rw [Renaming.stmt, runStmt, runStmt]
          refine (parts.expr standing.likewise tested).bind fun _ _ _ more alike => ?_
          rw [alike.isTrue]
          split
          next => exact silent_parallel parts (standing.grow more) fits
          next => exact .pure (.completed (standing.grow more))
      | some other =>
          obtain ⟨tested, fits⟩ := List.forall_mem_append.1 fits
          obtain ⟨fits, refused⟩ := List.forall_mem_append.1 fits
          rw [Renaming.stmt, runStmt, runStmt]
          refine (parts.expr standing.likewise tested).bind fun _ _ _ more alike => ?_
          rw [alike.isTrue]
          split
          next => exact silent_parallel parts (standing.grow more) fits
          next => exact silent_parallel parts (standing.grow more) refused
  | loop span condition body =>
      obtain ⟨tested, fits⟩ := List.forall_mem_append.1 fits
      exact parts.loop standing tested fits
  | giveBack span keyword value =>
      rw [Renaming.stmt, runStmt, runStmt]
      exact (parts.option standing.likewise fits).map fun _ _ _ _ alike => .returned alike

/-- A loop and the renamed one turn equally often. -/
theorem loop_parallel {condition : Expr} {body : Stmt}
    (tested : AllFit new (mentionsExpr view.seen condition))
    (fits : AllFit new (mentionsStmt view body)) :
    Parallel (renamed new) size (runLoop clock (fuel + 1) env condition body)
      (runLoop clock (fuel + 1) inner (new.expr condition) (new.stmt body)) (Ends new view) := by
  rw [runLoop, runLoop]
  refine (parts.expr standing.likewise tested).bind fun grown _ _ more alike => ?_
  have standing := standing.grow more
  rw [alike.isTrue]
  split
  next =>
    refine (parts.stmt standing fits).bind fun _ _ _ further ended => ?_
    cases ended with
    | completed => exact parts.loop (standing.grow further) tested fits
    | returned alike => exact .pure (.returned alike)
  next => exact .pure (.completed standing)

/-- One more unit of fuel keeps statements and the renamed ones together. -/
theorem stmts_parallel {stmts : List Stmt} (fits : AllFit new (mentionsStmts view stmts)) :
    Parallel (renamed new) size (runStmts clock (fuel + 1) env stmts)
      (runStmts clock (fuel + 1) inner (new.stmts stmts))
      (Ends new (stmts.foldl View.after view)) := by
  cases stmts with
  | nil => exact .pure (.completed standing)
  | cons stmt rest =>
      obtain ⟨first, second⟩ := List.forall_mem_append.1 fits
      rw [Renaming.stmts, runStmts, runStmts]
      refine (parts.stmt standing first).bind fun _ _ _ _ ended => ?_
      cases ended with
      | completed behind => exact parts.stmts behind second
      | returned alike => exact .pure (.returned alike)

end

end

/-- All work goes on in parallel, with any amount of fuel. -/
theorem inParallel (new : Renaming) (clock : Nat → Float) (fuel : Nat) :
    InParallel new clock fuel := by
  induction fuel with
  | zero =>
      exact ⟨fun _ _ _ _ _ _ _ => .throw _, fun _ _ _ _ _ _ _ => .throw _,
        fun _ _ _ _ _ _ _ => .throw _, fun _ _ _ _ _ _ _ _ => .throw _,
        fun _ _ _ _ _ _ _ => .throw _, fun _ _ _ _ _ _ _ _ _ => .throw _,
        fun _ _ _ _ _ _ _ => .throw _⟩
  | succ fuel parts =>
      constructor
      case expr => exact fun _ _ _ _ _ likewise fits => expr_parallel parts likewise fits
      case exprs => exact fun _ _ _ _ _ likewise fits => exprs_parallel parts likewise fits
      case option => exact fun _ _ _ _ _ likewise fits => option_parallel parts likewise fits
      case call => exact fun _ _ _ _ _ alike passed span => call_parallel parts alike passed span
      case stmt => exact fun _ _ _ _ _ standing fits => stmt_parallel parts standing fits
      case loop =>
        exact fun _ _ _ _ _ _ standing tested fits => loop_parallel parts standing tested fits
      case stmts => exact fun _ _ _ _ _ standing fits => stmts_parallel parts standing fits

/-- Before a program runs there is no local variable, and the globals are native functions. -/
theorem initial_coupled (new : Renaming) (output : Sink) :
    Coupled (renamed new) 0 ⟨.initial, output, 0, 0⟩ ⟨.initial, output, 0, 0⟩ := by
  refine ⟨⟨rfl, rfl, fun _ => .none, fun name => ?_⟩, rfl, rfl, rfl⟩
  have globals : Memory.initial.globals = Bindings.put [] "clock" (.native .clock) := rfl
  rw [globals, Bindings.value?_put]
  split
  next => exact .some (.native .clock)
  next => exact .none

/-- A renamed program runs like the program itself. -/
theorem run_renamed {program : Program} (fits : AllFit new (mentionsOf program))
    (output : Sink) :
    run fuel clock output (new.stmts program) = run fuel clock output program := by
  have whole := (inParallel new clock fuel).stmts .top fits (initial_coupled new output)
  unfold run EStateM.run
  split at whole
  next value after same stored ended finished =>
    obtain ⟨_, _, coupled, _⟩ := whole
    rw [ended, finished]
    simp only [coupled.output]
  next halt after stop stored ended finished =>
    obtain ⟨rfl, same⟩ := whole
    rw [ended, finished]
    simp only [same]
  next => exact whole.elim

end Lox.Lexical
