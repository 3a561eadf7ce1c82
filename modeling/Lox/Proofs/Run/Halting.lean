import Lox.Proofs.Run.Parts

namespace Lox.Evaluation

open Lox.Computation

section
variable {context : Context} {env : Env} {target : Occurrence} {state after : State}

/-- The frame that an access finds in a store. -/
def frameFor (context : Context) (env : Env) (target : Occurrence) (store : Store Value) :
    Except Store.Fault FrameId :=
  match context.distances[target.id]? with
  | some distance => store.frameAt env target.name distance
  | none => store.frameOf context.globals target.name

/-- A variable is located by its frame, and the state is left as it is. -/
theorem locate_eq (context : Context) (env : Env) (target : Occurrence) (state : State) :
    locate context env target state =
      match frameFor context env target state.store with
      | .ok frame => .ok frame state
      | .error fault => .error (halt target fault) state := by
  unfold locate frameFor
  rw [bind_of_ok (get_apply state)]
  cases context.distances[target.id]? with
  | none => cases state.store.frameOf context.globals target.name <;> rfl
  | some distance =>
      cases found : state.store.frameAt env target.name distance <;> simp only [found] <;> rfl

/-- The frame that an access finds binds the name. -/
theorem bound_of_frameFor {store : Store Value} {frame : FrameId}
    (found : frameFor context env target store = .ok frame) :
    (store.read? frame target.name).isSome = true := by
  unfold frameFor at found
  split at found
  · unfold Store.frameAt at found
    split at found
    · cases found
    · split at found
      next bound =>
        cases found
        exact bound
      next => cases found
  · unfold Store.frameOf at found
    split at found
    next => cases found
    next search =>
      cases found
      have bound := List.find?_some search
      exact bound

/-- An access that finds a frame leaves the state as it is, and the frame binds the name. -/
theorem locate_eq_ok {frame : FrameId}
    (located : locate context env target state = .ok frame after) :
    after = state ∧ (state.store.read? frame target.name).isSome = true := by
  rw [locate_eq] at located
  split at located
  next found =>
    cases located
    exact ⟨rfl, bound_of_frameFor found⟩
  next => cases located

/-- An access that finds no frame leaves the state as it is. -/
theorem locate_eq_error {halt : Halt}
    (missed : locate context env target state = .error halt after) : after = state := by
  rw [locate_eq] at missed
  split at missed <;> cases missed
  rfl

/-- A read halts exactly if it finds no frame. -/
theorem read_eq_error {halt : Halt} :
    read context env target state = .error halt after ↔
      locate context env target state = .error halt after := by
  unfold read
  rw [bind_eq_error]
  constructor
  · rintro (missed | ⟨frame, middle, located, rest⟩)
    · exact missed
    · obtain ⟨rfl, bound⟩ := locate_eq_ok located
      obtain ⟨value, found⟩ := Option.isSome_iff_exists.1 bound
      rw [bind_of_ok (get_apply _)] at rest
      simp only [Store.readIn, found] at rest
      cases rest
  · exact .inl

/-- An assignment halts exactly if it finds no frame. -/
theorem assign_eq_error {value : Value} {halt : Halt} :
    assign context env target value state = .error halt after ↔
      locate context env target state = .error halt after := by
  unfold assign
  rw [bind_eq_error]
  constructor
  · rintro (missed | ⟨frame, middle, -, rest⟩)
    · exact missed
    · cases rest
  · exact .inl

end

/-- As many arguments as parameters pass the check. -/
theorem checkArity_of_eq {name : String} {expected given : Nat} {span : Span} {state : State}
    (same : expected = given) : checkArity name expected given span state = .ok () state := by
  unfold checkArity
  rw [if_pos same]
  rfl

/-- Another number of arguments fails at the call. -/
theorem checkArity_of_ne {name : String} {expected given : Nat} {span : Span} {state : State}
    (differs : expected ≠ given) :
    checkArity name expected given span state =
      .error (.error ⟨.arityMismatch name expected given, span⟩) state := by
  unfold checkArity
  rw [if_neg differs]
  rfl

/-- A unary operator halts only where it does not apply. -/
theorem applyUnary_eq_error {op : Located UnaryOp} {operand : Value} {state after : State}
    {halt : Halt} (failed : applyUnary op operand state = .error halt after) :
    ValueIn.applyUnary? op.item operand = none ∧
      halt = .error ⟨.unaryOperand op.item.text operand.type, op.span⟩ ∧ after = state := by
  unfold applyUnary at failed
  cases applied : ValueIn.applyUnary? op.item operand with
  | some value =>
      rw [applied] at failed
      cases failed
  | none =>
      rw [applied] at failed
      cases failed
      exact ⟨rfl, rfl, rfl⟩

/-- A binary operator halts only where it does not apply. -/
theorem applyBinary_eq_error {op : Located BinaryOp} {left right : Value} {state after : State}
    {halt : Halt} (failed : applyBinary op left right state = .error halt after) :
    ValueIn.applyBinary? op.item left right = none ∧
      halt = .error ⟨.binaryOperands op.item.text left.type right.type, op.span⟩ ∧
      after = state := by
  unfold applyBinary at failed
  cases applied : ValueIn.applyBinary? op.item left right with
  | some value =>
      rw [applied] at failed
      cases failed
  | none =>
      rw [applied] at failed
      cases failed
      exact ⟨rfl, rfl, rfl⟩

/-- Names are defined without an error. -/
theorem forM_define_ne_error (env : Env) (given : List (String × Value)) (state : State)
    {halt : Halt} {after : State} :
    (given.forM fun (name, value) => define env name value : Eval Unit) state ≠
      .error halt after := by
  induction given generalizing state with
  | nil => exact nofun
  | cons binding rest ih =>
      intro failed
      rcases bind_eq_error.1 failed with first | ⟨_, middle, -, later⟩
      · cases first
      · exact ih middle later

/-- A closure can be entered in any state. -/
theorem enter_ne_error {closure : Closure} {given : List Value} (state : State) {halt : Halt}
    {after : State} : enter closure given state ≠ .error halt after := by
  intro failed
  unfold enter at failed
  rcases bind_eq_error.1 failed with first | ⟨inner, middle, -, later⟩
  · cases first
  · rcases bind_eq_error.1 later with bound | ⟨_, _, -, ended⟩
    · exact forM_define_ne_error inner _ middle bound
    · cases ended

section
variable (context : Context)

/-- The work at a moment halts in a state. -/
def Halts (moment : Moment) (halt : Halt) (after : State) : Prop :=
  match moment.task with
  | .expr env expr => evalExpr context moment.fuel env expr moment.state = .error halt after
  | .exprs env exprs => evalExprs context moment.fuel env exprs moment.state = .error halt after
  | .option env given => evalOption context moment.fuel env given moment.state = .error halt after
  | .call callee given span =>
      call context moment.fuel callee given span moment.state = .error halt after
  | .stmt env stmt => runStmt context moment.fuel env stmt moment.state = .error halt after
  | .loop env condition body =>
      runLoop context moment.fuel env condition body moment.state = .error halt after
  | .stmts env stmts => runStmts context moment.fuel env stmts moment.state = .error halt after
  | .access env target => locate context env target moment.state = .error halt after

/-- Work halts in one way only. -/
theorem Halts.unique {context : Context} {moment : Moment} {halt other : Halt}
    {after last : State} (halted : Halts context moment halt after)
    (again : Halts context moment other last) : halt = other ∧ after = last := by
  obtain ⟨fuel, task, state⟩ := moment
  cases task <;>
    · cases halted.symm.trans again
      exact ⟨rfl, rfl⟩

/-- The work at a moment halts by itself and not in a part of it. -/
inductive Raises : Moment → Halt → State → Prop
  | outOfFuel {task : Task} {state : State} (busy : ∀ env target, task ≠ .access env target) :
      Raises ⟨0, task, state⟩ .outOfFuel state
  | access {fuel : Nat} {env : Env} {target : Occurrence} {state : State} {halt : Halt}
      (missed : locate context env target state = .error halt state) :
      Raises ⟨fuel, .access env target, state⟩ halt state
  | unary {fuel : Nat} {env : Env} {span : Span} {op : Located UnaryOp} {operand : Expr}
      {given : Value} {state after : State}
      (first : Gives (evalExpr context fuel env operand) state given after)
      (unfit : ValueIn.applyUnary? op.item given = none) :
      Raises ⟨fuel + 1, .expr env (.unary span op operand), state⟩
        (.error ⟨.unaryOperand op.item.text given.type, op.span⟩) after
  | binary {fuel : Nat} {env : Env} {span : Span} {op : Located BinaryOp} {left right : Expr}
      {given other : Value} {state middle after : State}
      (first : Gives (evalExpr context fuel env left) state given middle)
      (second : Gives (evalExpr context fuel env right) middle other after)
      (unfit : ValueIn.applyBinary? op.item given other = none) :
      Raises ⟨fuel + 1, .expr env (.binary span op left right), state⟩
        (.error ⟨.binaryOperands op.item.text given.type other.type, op.span⟩) after
  | callee {fuel : Nat} {env : Env} {span paren : Span} {callee : Expr} {given : List Expr}
      {value : Value} {state after : State}
      (first : Gives (evalExpr context fuel env callee) state value after)
      (unfit : value.isCallable = false) :
      Raises ⟨fuel + 1, .expr env (.call span paren callee given), state⟩
        (.error ⟨.notCallable value.type, paren⟩) after
  | called {fuel : Nat} {callee : Value} {given : List Value} {span : Span} {state : State}
      (unfit : callee.isCallable = false) :
      Raises ⟨fuel + 1, .call callee given span, state⟩
        (.error ⟨.notCallable callee.type, span⟩) state
  | arity {fuel : Nat} {callee : Value} {given : List Value} {span : Span} {state : State}
      {name : String} {expected : Nat} (differs : expected ≠ given.length)
      (declared : callee = .native .clock ∧ name = Native.clock.name ∧
          expected = Native.clock.arity ∨
        ∃ closure, callee = .closure closure ∧ name = closure.name ∧
          expected = closure.parameters.length) :
      Raises ⟨fuel + 1, .call callee given span, state⟩
        (.error ⟨.arityMismatch name expected given.length, span⟩) state
  | print {fuel : Nat} {env : Env} {span : Span} {value : Expr} {given : Value}
      {state after : State} (first : Gives (evalExpr context fuel env value) state given after)
      (full : (after.output.write (given.text ++ "\n")).1 = false) :
      Raises ⟨fuel + 1, .stmt env (.print span value), state⟩ (.error ⟨.writeFailed "stdout", span⟩)
        { after with output := (after.output.write (given.text ++ "\n")).2 }

end

/-- A line for which there is no room fails at its statement. -/
theorem printLine_of_full {value : Value} {span : Span} {state : State}
    (full : (state.output.write (value.text ++ "\n")).1 = false) :
    printLine value span state = .error (.error ⟨.writeFailed "stdout", span⟩)
      { state with output := (state.output.write (value.text ++ "\n")).2 } := by
  unfold printLine write
  rw [bind_of_ok (modifyGet_apply _ _)]
  simp only [full]
  rfl

/-- A line for which there is room is written. -/
theorem printLine_of_room {value : Value} {span : Span} {state : State}
    (room : (state.output.write (value.text ++ "\n")).1 = true) :
    printLine value span state =
      .ok () { state with output := (state.output.write (value.text ++ "\n")).2 } := by
  unfold printLine write
  rw [bind_of_ok (modifyGet_apply _ _)]
  simp only [room]
  rfl

/-- A value is not printed only if the output is full. -/
theorem printLine_eq_error {value : Value} {span : Span} {state after : State} {halt : Halt}
    (failed : printLine value span state = .error halt after) :
    (state.output.write (value.text ++ "\n")).1 = false ∧
      halt = .error ⟨.writeFailed "stdout", span⟩ ∧
      after = { state with output := (state.output.write (value.text ++ "\n")).2 } := by
  cases full : (state.output.write (value.text ++ "\n")).1 with
  | false =>
      cases (printLine_of_full full).symm.trans failed
      exact ⟨rfl, rfl, rfl⟩
  | true => cases (printLine_of_room full).symm.trans failed

section
variable {context : Context} {moment part last : Moment} {halt : Halt} {after : State}

/-- What makes a part halt makes the whole halt. -/
theorem Part.halts (leads : Part context moment part) (halted : Halts context part halt after) :
    Halts context moment halt after := by
  cases leads with
  | «variable» =>
      simp only [Halts, evalExpr]
      exact read_eq_error.2 halted
  | assignValue | unary | binaryLeft | logicalLeft | callee =>
      simp only [Halts, evalExpr]
      exact bind_of_error halted _
  | assign valued =>
      simp only [Halts, evalExpr]
      rw [bind_of_ok valued]
      exact bind_of_error (assign_eq_error.2 halted) _
  | group => exact halted
  | binaryRight first =>
      simp only [Halts, evalExpr]
      rw [bind_of_ok first]
      exact bind_of_error halted _
  | logicalRight first open_ =>
      simp only [Halts, evalExpr]
      rw [bind_of_ok first, open_]
      exact halted
  | arguments first callable =>
      simp only [Halts, evalExpr]
      rw [bind_of_ok first, if_pos callable]
      exact bind_of_error halted _
  | call first callable passed =>
      simp only [Halts, evalExpr]
      rw [bind_of_ok first, if_pos callable, bind_of_ok passed]
      exact halted
  | first =>
      simp only [Halts, evalExprs]
      exact bind_of_error halted _
  | rest first =>
      simp only [Halts, evalExprs]
      rw [bind_of_ok first]
      exact bind_of_error halted _
  | some => exact halted
  | body fits entered =>
      simp only [Halts, Evaluation.call]
      rw [bind_of_ok (checkArity_of_eq fits), bind_of_ok entered]
      exact bind_of_error halted _
  | expression =>
      simp only [Halts, runStmt, discard_bind]
      exact bind_of_error halted _
  | print | initializer | giveBack =>
      simp only [Halts, runStmt]
      exact bind_of_error halted _
  | block opened =>
      simp only [Halts, runStmt]
      rw [bind_of_ok opened]
      exact halted
  | condition =>
      simp only [Halts]
      rw [runStmt_branch]
      exact bind_of_error halted _
  | consequent first holds =>
      simp only [Halts]
      rw [runStmt_branch, bind_of_ok first, if_pos holds]
      exact halted
  | alternative first fails =>
      simp only [Halts]
      rw [runStmt_branch, bind_of_ok first, fails]
      exact halted
  | loop => exact halted
  | test =>
      simp only [Halts, runLoop]
      exact bind_of_error halted _
  | turn first holds =>
      simp only [Halts, runLoop]
      rw [bind_of_ok first, if_pos holds]
      exact bind_of_error halted _
  | again first holds turned =>
      simp only [Halts, runLoop]
      rw [bind_of_ok first, if_pos holds, bind_of_ok turned]
      exact halted
  | head =>
      simp only [Halts, runStmts]
      exact bind_of_error halted _
  | tail first =>
      simp only [Halts, runStmts]
      rw [bind_of_ok first]
      exact halted

/-- Work at a moment that raises a halt ends with it. -/
theorem Raises.halts (raised : Raises context moment halt after) :
    Halts context moment halt after := by
  cases raised with
  | @outOfFuel task state busy =>
      cases task with
      | access env target => exact absurd rfl (busy env target)
      | _ => rfl
  | access missed => exact missed
  | unary first unfit =>
      simp only [Halts, evalExpr]
      rw [bind_of_ok first, applyUnary, unfit]
      rfl
  | binary first second unfit =>
      simp only [Halts, evalExpr]
      rw [bind_of_ok first, bind_of_ok second, applyBinary, unfit]
      rfl
  | callee first unfit =>
      simp only [Halts, evalExpr]
      rw [bind_of_ok first, unfit]
      rfl
  | @called fuel callee given span state unfit =>
      cases callee with
      | native | closure => cases unfit
      | _ => rfl
  | arity differs declared =>
      simp only [Halts]
      rcases declared with ⟨rfl, rfl, rfl⟩ | ⟨closure, rfl, rfl, rfl⟩
      · simp only [Evaluation.call]
        exact bind_of_error (checkArity_of_ne differs) _
      · simp only [Evaluation.call]
        exact bind_of_error (checkArity_of_ne differs) _
  | print first full =>
      simp only [Halts, runStmt]
      rw [bind_of_ok first]
      exact bind_of_error (printLine_of_full full) _

section
variable {fuel : Nat} {env : Env} {state : State}

/-- The work at a moment halts by itself, or one of its parts halts. -/
def HaltsInPart (context : Context) (moment : Moment) (halt : Halt) (after : State) : Prop :=
  Raises context moment halt after ∨
    ∃ part, Part context moment part ∧ Halts context part halt after

/-- What halts a part halts the moment in that part. -/
theorem HaltsInPart.of_part (leads : Part context moment part)
    (halted : Halts context part halt after) : HaltsInPart context moment halt after :=
  .inr ⟨part, leads, halted⟩

/-- An expression that halts does so in one of its parts or in its own step. -/
theorem expr_halts {expr : Expr} (halted : Halts context ⟨fuel, .expr env expr, state⟩ halt after) :
    HaltsInPart context ⟨fuel, .expr env expr, state⟩ halt after := by
  cases fuel with
  | zero =>
      cases halted
      exact .inl (.outOfFuel nofun)
  | succ fuel =>
      cases expr with
      | literal span value => cases halted
      | «variable» target => exact .of_part .variable (read_eq_error.1 halted)
      | assign span target value =>
          simp only [Halts, evalExpr] at halted
          rcases bind_eq_error.1 halted with first | ⟨given, middle, valued, rest⟩
          · exact .of_part .assignValue first
          · rcases bind_eq_error.1 rest with missed | ⟨_, _, -, ended⟩
            · exact .of_part (.assign valued) (assign_eq_error.1 missed)
            · cases ended
      | group span inner => exact .of_part .group halted
      | unary span op operand =>
          simp only [Halts, evalExpr] at halted
          rcases bind_eq_error.1 halted with first | ⟨given, middle, valued, rest⟩
          · exact .of_part .unary first
          · obtain ⟨unfit, rfl, rfl⟩ := applyUnary_eq_error rest
            exact .inl (.unary valued unfit)
      | binary span op left right =>
          simp only [Halts, evalExpr] at halted
          rcases bind_eq_error.1 halted with first | ⟨given, middle, valued, rest⟩
          · exact .of_part .binaryLeft first
          · rcases bind_eq_error.1 rest with second | ⟨other, last, valuedOther, ended⟩
            · exact .of_part (.binaryRight valued) second
            · obtain ⟨unfit, rfl, rfl⟩ := applyBinary_eq_error ended
              exact .inl (.binary valued valuedOther unfit)
      | logical span op left right =>
          simp only [Halts, evalExpr] at halted
          rcases bind_eq_error.1 halted with first | ⟨given, middle, valued, rest⟩
          · exact .of_part .logicalLeft first
          · split at rest
            next => cases rest
            next open_ => exact .of_part (.logicalRight valued (Bool.not_eq_true _ ▸ open_)) rest
      | call span paren callee given =>
          simp only [Halts, evalExpr] at halted
          rcases bind_eq_error.1 halted with first | ⟨function, middle, valued, rest⟩
          · exact .of_part .callee first
          · split at rest
            next callable =>
              rcases bind_eq_error.1 rest with second | ⟨values, last, passed, ended⟩
              · exact .of_part (.arguments valued callable) second
              · exact .of_part (.call valued callable passed) ended
            next unfit =>
              cases rest
              exact .inl (.callee valued (Bool.not_eq_true _ ▸ unfit))

/-- Expressions that halt do so in one of them. -/
theorem exprs_halts {exprs : List Expr}
    (halted : Halts context ⟨fuel, .exprs env exprs, state⟩ halt after) :
    HaltsInPart context ⟨fuel, .exprs env exprs, state⟩ halt after := by
  cases fuel with
  | zero =>
      cases halted
      exact .inl (.outOfFuel nofun)
  | succ fuel =>
      cases exprs with
      | nil => cases halted
      | cons expr rest =>
          simp only [Halts, evalExprs] at halted
          rcases bind_eq_error.1 halted with first | ⟨given, middle, valued, others⟩
          · exact .of_part .first first
          · rcases bind_eq_error.1 others with later | ⟨_, _, -, ended⟩
            · exact .of_part (.rest valued) later
            · cases ended

theorem option_halts {given : Option Expr}
    (halted : Halts context ⟨fuel, .option env given, state⟩ halt after) :
    HaltsInPart context ⟨fuel, .option env given, state⟩ halt after := by
  cases fuel with
  | zero =>
      cases halted
      exact .inl (.outOfFuel nofun)
  | succ fuel =>
      cases given with
      | none => cases halted
      | some expr => exact .of_part .some halted

/-- A call that halts does so in its body or before it enters. -/
theorem call_halts {callee : Value} {given : List Value} {span : Span}
    (halted : Halts context ⟨fuel, .call callee given span, state⟩ halt after) :
    HaltsInPart context ⟨fuel, .call callee given span, state⟩ halt after := by
  cases fuel with
  | zero =>
      cases halted
      exact .inl (.outOfFuel nofun)
  | succ fuel =>
      cases callee with
      | nil | bool | number | string =>
          cases halted
          exact .inl (.called rfl)
      | native provided =>
          cases provided
          simp only [Halts, Evaluation.call] at halted
          by_cases fits : Native.clock.arity = given.length
          · rw [bind_of_ok (checkArity_of_eq fits)] at halted
            cases halted
          · rw [bind_of_error (checkArity_of_ne fits)] at halted
            cases halted
            exact .inl (.arity fits (.inl ⟨rfl, rfl, rfl⟩))
      | closure closure =>
          simp only [Halts, Evaluation.call] at halted
          by_cases fits : closure.parameters.length = given.length
          · rw [bind_of_ok (checkArity_of_eq fits)] at halted
            rcases bind_eq_error.1 halted with stuck | ⟨inner, middle, entered, rest⟩
            · exact absurd stuck (enter_ne_error _)
            · rcases bind_eq_error.1 rest with inside | ⟨flow, last, -, ended⟩
              · exact .of_part (.body fits entered) inside
              · cases flow <;> cases ended
          · rw [bind_of_error (checkArity_of_ne fits)] at halted
            cases halted
            exact .inl (.arity fits (.inr ⟨closure, rfl, rfl, rfl⟩))

/-- A statement that halts does so in one of its parts or in its own step. -/
theorem stmt_halts {stmt : Stmt} (halted : Halts context ⟨fuel, .stmt env stmt, state⟩ halt after) :
    HaltsInPart context ⟨fuel, .stmt env stmt, state⟩ halt after := by
  cases fuel with
  | zero =>
      cases halted
      exact .inl (.outOfFuel nofun)
  | succ fuel =>
      cases stmt with
      | expression span value =>
          simp only [Halts, runStmt, discard_bind] at halted
          rcases bind_eq_error.1 halted with first | ⟨_, _, -, ended⟩
          · exact .of_part .expression first
          · cases ended
      | print span value =>
          simp only [Halts, runStmt] at halted
          rcases bind_eq_error.1 halted with first | ⟨given, middle, valued, rest⟩
          · exact .of_part .print first
          · rcases bind_eq_error.1 rest with failed | ⟨_, _, -, ended⟩
            · obtain ⟨full, rfl, rfl⟩ := printLine_eq_error failed
              exact .inl (.print valued full)
            · cases ended
      | «variable» span name initializer =>
          simp only [Halts, runStmt] at halted
          rcases bind_eq_error.1 halted with first | ⟨_, _, -, ended⟩
          · exact .of_part .initializer first
          · cases ended
      | function span name parameters body => cases halted
      | block span body =>
          simp only [Halts, runStmt] at halted
          rcases bind_eq_error.1 halted with stuck | ⟨inner, middle, opened, inside⟩
          · cases stuck
          · exact .of_part (.block opened) inside
      | branch span condition consequent alternative =>
          simp only [Halts] at halted
          rw [runStmt_branch] at halted
          rcases bind_eq_error.1 halted with first | ⟨given, middle, valued, rest⟩
          · exact .of_part .condition first
          · split at rest
            next holds => exact .of_part (.consequent valued holds) rest
            next fails =>
              split at rest
              next => exact .of_part (.alternative valued (Bool.not_eq_true _ ▸ fails)) rest
              next => cases rest
      | loop span condition body => exact .of_part .loop halted
      | giveBack span keyword value =>
          simp only [Halts, runStmt] at halted
          rcases bind_eq_error.1 halted with first | ⟨_, _, -, ended⟩
          · exact .of_part .giveBack first
          · cases ended

/-- A loop that halts does so in its condition or in one of its turns. -/
theorem loop_halts {condition : Expr} {body : Stmt}
    (halted : Halts context ⟨fuel, .loop env condition body, state⟩ halt after) :
    HaltsInPart context ⟨fuel, .loop env condition body, state⟩ halt after := by
  cases fuel with
  | zero =>
      cases halted
      exact .inl (.outOfFuel nofun)
  | succ fuel =>
      simp only [Halts, runLoop] at halted
      rcases bind_eq_error.1 halted with first | ⟨given, middle, valued, rest⟩
      · exact .of_part .test first
      · split at rest
        next holds =>
          rcases bind_eq_error.1 rest with inside | ⟨flow, last, turned, later⟩
          · exact .of_part (.turn valued holds) inside
          · cases flow with
            | completed => exact .of_part (.again valued holds turned) later
            | returned value => cases later
        next => cases rest

/-- Statements that halt do so in one of them. -/
theorem stmts_halts {stmts : List Stmt}
    (halted : Halts context ⟨fuel, .stmts env stmts, state⟩ halt after) :
    HaltsInPart context ⟨fuel, .stmts env stmts, state⟩ halt after := by
  cases fuel with
  | zero =>
      cases halted
      exact .inl (.outOfFuel nofun)
  | succ fuel =>
      cases stmts with
      | nil => cases halted
      | cons stmt rest =>
          simp only [Halts, runStmts] at halted
          rcases bind_eq_error.1 halted with first | ⟨flow, middle, ran, later⟩
          · exact .of_part .head first
          · cases flow with
            | completed => exact .of_part (.tail ran) later
            | returned value => cases later

end

/-- Work halts by itself, or one of its parts halts. -/
theorem Halts.cases (halted : Halts context moment halt after) :
    HaltsInPart context moment halt after := by
  obtain ⟨fuel, task, state⟩ := moment
  cases task with
  | access env target =>
      have missed : locate context env target state = .error halt after := halted
      cases locate_eq_error missed
      exact .inl (.access missed)
  | expr env expr => exact expr_halts halted
  | exprs env exprs => exact exprs_halts halted
  | option env given => exact option_halts halted
  | call callee given span => exact call_halts halted
  | stmt env stmt => exact stmt_halts halted
  | loop env condition body => exact loop_halts halted
  | stmts env stmts => exact stmts_halts halted

/-- A part has less fuel than the whole. -/
theorem Part.fuel_lt (leads : Part context moment part) : part.fuel < moment.fuel := by
  cases leads <;> exact Nat.lt_succ_self _

/-- Work halts exactly if it leads to a moment that raises the halt. -/
theorem halts_iff : Halts context moment halt after ↔
    ∃ last, Reaches context moment last ∧ Raises context last halt after := by
  constructor
  · intro halted
    induction fuel : moment.fuel using Nat.strongRecOn generalizing moment with
    | ind fuel ih =>
        rcases halted.cases with raised | ⟨part, leads, inside⟩
        · exact ⟨moment, .refl, raised⟩
        · obtain ⟨last, reached, raised⟩ := ih part.fuel (fuel ▸ leads.fuel_lt) inside rfl
          exact ⟨last, .head leads reached, raised⟩
  · rintro ⟨last, reached, raised⟩
    induction reached using Relation.ReflTransGen.head_induction_on with
    | refl => exact raised.halts
    | head leads _ ih => exact leads.halts ih

end

end Lox.Evaluation
