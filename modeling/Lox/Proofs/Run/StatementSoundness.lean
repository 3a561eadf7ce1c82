import Lox.Proofs.Run.ExpressionSoundness

namespace Lox.Evaluation

open Lox.Computation Resolution

section
variable {context : Context} {scopes : List Scope} {env : Env} {state middle after : State}
  {moment : Moment} {fuel : Nat}

/-- A step that leaves the store alone preserves its validity. -/
theorem Preserves.of_store_eq (valid : ValidStore context state.store)
    (same : after.store = state.store) : Preserves context state after :=
  ⟨same ▸ .refl _, same ▸ valid⟩

theorem checkArity_meets {name : String} {expected given : Nat} {span : Span} :
    Meets (checkArity name expected given span) state
      (fun _ after => after = state ∧ expected = given) (Explained context moment) := by
  unfold checkArity
  split
  next same => exact .pure ⟨rfl, same⟩
  next => exact .throw (.type rfl)

/-- A step that changes the state. -/
theorem meets_modifyGet {α : Type} {change : State → α × State} {halts : Halt → Prop}
    (given : α → State → Prop) (holds : given (change state).1 (change state).2) :
    Meets (modifyGet change) state given halts := by
  unfold Meets
  rw [modifyGet_apply]
  exact holds

/-- A printed line leaves the store alone, or its failure is explained. -/
theorem printLine_meets {value : Value} {span : Span} :
    Meets (printLine value span) state (fun _ after => after.store = state.store)
      (Explained context moment) := by
  refine (meets_modifyGet (fun _ after => after.store = state.store) rfl).bind ?_
  intro complete after _ same
  split
  next => exact .pure same
  next => exact .throw .output

/-- A name that is defined is passed by the innermost scope, and the store stays valid. -/
theorem define_preserves {value : Value} (placed : Placed context state env scopes) (name : String)
    (valid : Valid context (state.store.define env name value) value) :
    Preserves context state { state with store := state.store.define env name value } ∧
      Fits context.globals.frame (state.store.define env name value) env.frames
        (introduced scopes name) :=
  ⟨⟨.write .., placed.store.write _ _ valid⟩, placed.fits.define name value⟩

/-- The parameters of a function are defined one after the other. -/
theorem parameters_define {names : List String} {values : List Value}
    (placed : Placed context state env scopes) (settled : ∀ scope ∈ scopes, Settled scope)
    (same : names.length = values.length) (valid : ∀ value ∈ values, Valid context state.store value) :
    ∃ after,
      ((names.zip values).forM (fun (name, value) => define env name value) : Eval Unit) state =
          .ok () after ∧
        Preserves context state after ∧
        Fits context.globals.frame after.store env.frames (names.foldl introduced scopes) ∧
        ∀ scope ∈ names.foldl introduced scopes, Settled scope := by
  induction names generalizing state values scopes with
  | nil => exact ⟨state, rfl, .refl placed.store, placed.fits, settled⟩
  | cons name rest ih =>
      obtain ⟨value, others, rfl⟩ := List.exists_cons_of_length_eq_add_one same.symm
      have keeps := Keeps.write state.store env.frame name value
      obtain ⟨preserves, fits⟩ :=
        define_preserves placed name ((valid value List.mem_cons_self).keep keeps)
      have further : Placed context { state with store := state.store.define env name value } env
          (introduced scopes name) := ⟨preserves.store, fits⟩
      obtain ⟨after, defined, preservesRest, fitsRest, settledRest⟩ :=
        ih further (settled_introduced settled name) (Nat.succ.inj same)
          fun given among => (valid given (List.mem_cons_of_mem _ among)).keep keeps
      refine ⟨after, ?_, preserves.trans preservesRest, fitsRest, settledRest⟩
      exact defined

/-- A new frame fits a new scope. -/
theorem nest_of_placed (placed : Placed context state env scopes)
    (settled : ∀ scope ∈ scopes, Settled scope) :
    ∃ inner after, nest env state = .ok inner after ∧ Preserves context state after ∧
      Placed context after inner ([] :: scopes) ∧ ∀ scope ∈ [] :: scopes, Settled scope := by
  refine ⟨(state.store.child env).1, { state with store := state.store.push }, rfl,
    ⟨.push _, placed.store.push⟩,
    ⟨placed.store.push, placed.fits.child settled placed.store.present⟩, ?_⟩
  intro scope among
  rcases List.mem_cons.1 among with rfl | among
  · exact settled_nil
  · exact settled scope among

/-- A call of a valid closure enters a frame that fits the scopes of its body. -/
theorem enter_of_valid (fuel : Nat) {closure : Closure} {given : List Value}
    (valid : ValidStore context state.store)
    (declared : ValidClosure context state.store closure)
    (same : closure.parameters.length = given.length)
    (values : ∀ value ∈ given, Valid context state.store value) :
    ∃ inner after, enter closure given state = .ok inner after ∧
      Preserves context state after ∧
      ∃ scopes, Ready context scopes ⟨fuel, .stmts inner closure.body, after⟩ := by
  obtain ⟨outer, fits, settled, agrees, proper⟩ := declared
  obtain ⟨inner, middle, nested, pushed, placed, open_⟩ := nest_of_placed ⟨valid, fits⟩ settled
  obtain ⟨after, defined, preserves, fitsBody, settledBody⟩ :=
    parameters_define placed open_ same fun value among => (values value among).keep pushed.keeps
  refine ⟨inner, after, ?_, pushed.trans preserves, _,
    ⟨preserves.store, fitsBody⟩, settledBody, proper, true, agrees⟩
  unfold enter
  rw [bind_of_ok nested]
  exact bind_of_ok defined _

/-- The scopes behind a statement are settled if those before it are. -/
theorem settled_scopesAfter {scopes : List Scope} (settled : ∀ scope ∈ scopes, Settled scope) :
    ∀ stmt, ∀ scope ∈ scopesAfter scopes stmt, Settled scope
  | .variable _ name _ | .function _ name _ _ => settled_introduced settled name.item
  | .branch _ _ consequent none => settled_scopesAfter settled consequent
  | .branch _ _ consequent (some alternative) =>
      settled_scopesAfter (settled_scopesAfter settled consequent) alternative
  | .loop _ _ body => settled_scopesAfter settled body
  | .expression .. | .print .. | .block .. | .giveBack .. => settled

/-- Both statements under an `if` are visited with the scopes before it, which are also those behind
it. -/
theorem branch_parts {distances : Distances} {scopes : List Scope} {span : Span}
    {condition : Expr} {consequent : Stmt} {alternative : Option Stmt} {inFunction : Bool}
    (proper : (Stmt.branch span condition consequent alternative).Proper)
    (agrees : Agrees distances
      (visitStmt scopes inFunction (.branch span condition consequent alternative))) :
    Agrees distances (visitExpr scopes condition) ∧
      (consequent.declares = false ∧ consequent.Proper) ∧
      Agrees distances (visitStmt scopes inFunction consequent) ∧
      (∀ other, alternative = some other → (other.declares = false ∧ other.Proper) ∧
        Agrees distances (visitStmt scopes inFunction other)) ∧
      scopesAfter scopes (.branch span condition consequent alternative) = scopes := by
  have same := scopesAfter_of_proper scopes _ proper rfl
  cases alternative with
  | none =>
      rw [visitStmt, agrees_append] at agrees
      exact ⟨agrees.1, proper, agrees.2, nofun, same⟩
  | some other =>
      rw [visitStmt, agrees_append, agrees_append,
        scopesAfter_of_proper scopes consequent proper.1.2 proper.1.1] at agrees
      refine ⟨agrees.1, proper.1, agrees.2.1, ?_, same⟩
      rintro _ ⟨⟩
      exact ⟨proper.2, agrees.2.2⟩

end

section
variable {context : Context} {scopes : List Scope} {env : Env} {state : State} {fuel : Nat}
  (holds : HoldsAt context fuel)
include holds

/-- A call is sound, since the body runs in frames for the scopes that it was resolved in. -/
theorem call_sound {callee : Value} {given : List Value} {span : Span}
    (ready : Ready context scopes ⟨fuel + 1, .call callee given span, state⟩) :
    Sound context scopes ⟨fuel + 1, .call callee given span, state⟩ := by
  obtain ⟨valid, function, values⟩ := ready
  cases callee with
  | nil | bool | number | string =>
      refine ⟨?_, fun _ leads => by cases leads⟩
      unfold Holds
      simp only [call]
      exact .throw (.type rfl)
  | native provided =>
      refine ⟨?_, fun _ leads => by cases leads⟩
      cases provided
      unfold Holds
      simp only [call]
      refine Meets.bind checkArity_meets fun _ after _ same => ?_
      refine meets_modifyGet _ ⟨?_, valid_of_not_closure nofun⟩
      rw [same.1]
      exact .of_store_eq valid rfl
  | closure closure =>
      have body {inner : Env} {after : State}
          (same : closure.parameters.length = given.length)
          (entered : Gives (enter closure given) state inner after) :
          Preserves context state after ∧
            ∃ scopes, Ready context scopes ⟨fuel, .stmts inner closure.body, after⟩ := by
        obtain ⟨env, last, again, preserves, ready⟩ :=
          enter_of_valid fuel valid (function rfl) same values
        cases again.symm.trans entered
        exact ⟨preserves, ready⟩
      constructor
      · unfold Holds
        simp only [call]
        refine Meets.bind checkArity_meets fun _ middle _ checked => ?_
        obtain ⟨rfl, same⟩ := checked
        obtain ⟨inner, after, entered, -⟩ := enter_of_valid fuel valid
          (function rfl) same values
        unfold Meets
        rw [bind_of_ok entered]
        obtain ⟨preserves, scopes, ready⟩ := body same entered
        refine (Meets.of_part (holds ready) (.body same entered)).bind fun flow last _ leaves => ?_
        cases flow with
        | completed => exact .pure ⟨preserves.trans leaves.1, valid_of_not_closure nofun⟩
        | returned value => exact .pure ⟨preserves.trans leaves.1, leaves.2⟩
      · intro part leads
        cases leads with
        | body same entered =>
            obtain ⟨-, scopes, ready⟩ := body same entered
            exact ⟨scopes, ready⟩

theorem expression_sound {span : Span} {value : Expr}
    (ready : Ready context scopes ⟨fuel + 1, .stmt env (.expression span value), state⟩) :
    Sound context scopes ⟨fuel + 1, .stmt env (.expression span value), state⟩ := by
  obtain ⟨placed, settled, proper, inFunction, agrees⟩ := ready
  have first : Ready context scopes ⟨fuel, .expr env value, state⟩ := ⟨placed, agrees⟩
  have valued : Meets (evalExpr context fuel env value) state (GivesValid context state) _ :=
    holds first
  constructor
  · rw [holds_stmt]
    simp only [runStmt, discard_bind]
    refine (valued.of_part .expression).bind fun given after _ valid => ?_
    exact .pure ⟨valid.1, placed.fits.keep valid.1.keeps⟩
  · intro part leads
    cases leads
    exact ⟨scopes, first⟩

theorem print_sound {span : Span} {value : Expr}
    (ready : Ready context scopes ⟨fuel + 1, .stmt env (.print span value), state⟩) :
    Sound context scopes ⟨fuel + 1, .stmt env (.print span value), state⟩ := by
  obtain ⟨placed, settled, proper, inFunction, agrees⟩ := ready
  have first : Ready context scopes ⟨fuel, .expr env value, state⟩ := ⟨placed, agrees⟩
  have valued : Meets (evalExpr context fuel env value) state (GivesValid context state) _ :=
    holds first
  constructor
  · rw [holds_stmt, runStmt]
    refine (valued.of_part .print).bind fun given middle _ valid => ?_
    refine printLine_meets.bind fun _ after _ same => ?_
    have printed : Preserves context state after :=
      valid.1.trans (.of_store_eq valid.1.store same)
    exact .pure ⟨printed, placed.fits.keep printed.keeps⟩
  · intro part leads
    cases leads
    exact ⟨scopes, first⟩

/-- A variable's declaration is sound, since it binds the name that its scope gains. -/
theorem variable_statement_sound {span : Span} {name : Name} {value : Option Expr}
    (ready : Ready context scopes ⟨fuel + 1, .stmt env (.variable span name value), state⟩) :
    Sound context scopes ⟨fuel + 1, .stmt env (.variable span name value), state⟩ := by
  obtain ⟨placed, settled, proper, inFunction, agrees⟩ := ready
  have first : Ready context (put scopes name.item false) ⟨fuel, .option env value, state⟩ :=
    ⟨⟨placed.store, placed.fits.declare name.item⟩, agrees.tail⟩
  have valued : Meets (evalOption context fuel env value) state (GivesValid context state) _ :=
    holds first
  constructor
  · rw [holds_stmt, runStmt]
    refine (valued.of_part .initializer).bind fun given middle _ valid => ?_
    obtain ⟨preserves, fits⟩ := define_preserves (placed.keep valid.1) name.item
      (valid.2.keep (.write _ _ _ given))
    exact ⟨valid.1.trans preserves, fits⟩
  · intro part leads
    cases leads
    exact ⟨_, first⟩

omit holds in
/-- A function's declaration is sound, since its name is bound before its body can run. -/
theorem function_sound {span : Span} {name : Name} {parameters : List Name} {body : List Stmt}
    (ready : Ready context scopes ⟨fuel + 1, .stmt env (.function span name parameters body), state⟩) :
    Sound context scopes ⟨fuel + 1, .stmt env (.function span name parameters body), state⟩ := by
  obtain ⟨placed, settled, proper, inFunction, agrees⟩ := ready
  refine ⟨?_, fun _ leads => by cases leads⟩
  let closure : Closure :=
    ⟨state.closures, name.item, parameters.map Located.item, body, env⟩
  have fits := placed.fits.define name.item (.closure closure)
  -- The closure sees its own name, which is bound only now.
  have valid : Valid context (state.store.define env name.item (.closure closure))
      (.closure closure) := by
    intro declared same
    cases same
    rw [visitStmt] at agrees
    exact ⟨_, fits, settled_introduced settled name.item, (agrees_append.1 agrees.tail).2, proper⟩
  obtain ⟨preserves, fits⟩ := define_preserves placed name.item valid
  exact ⟨⟨preserves.keeps, preserves.store⟩, fits⟩

/-- A block is sound, since its statements run in a new frame for the new scope. -/
theorem block_sound {span : Span} {body : List Stmt}
    (ready : Ready context scopes ⟨fuel + 1, .stmt env (.block span body), state⟩) :
    Sound context scopes ⟨fuel + 1, .stmt env (.block span body), state⟩ := by
  obtain ⟨placed, settled, proper, inFunction, agrees⟩ := ready
  obtain ⟨inner, middle, nested, pushed, opened, open_⟩ := nest_of_placed placed settled
  have inside : Ready context ([] :: scopes) ⟨fuel, .stmts inner body, middle⟩ :=
    ⟨opened, open_, proper, inFunction, agrees⟩
  constructor
  · rw [holds_stmt, runStmt]
    unfold Meets
    rw [bind_of_ok nested]
    refine (Meets.of_part (holds inside) (.block nested)).weaken (fun flow after leaves => ?_)
      fun _ => id
    have preserves := pushed.trans leaves.1
    cases flow with
    | completed => exact ⟨preserves, placed.fits.keep preserves.keeps⟩
    | returned value => exact ⟨preserves, leaves.2⟩
  · intro part leads
    cases leads with
    | block opened =>
        cases nested.symm.trans opened
        exact ⟨_, inside⟩

/-- A statement that declares nothing leaves the scopes as they are. -/
theorem silent_holds {stmt : Stmt} {state : State} (silent : stmt.declares = false)
    (ready : Ready context scopes ⟨fuel, .stmt env stmt, state⟩) :
    Meets (runStmt context fuel env stmt) state (Leaves context state env scopes)
      (Explained context ⟨fuel, .stmt env stmt, state⟩) := by
  have ran := holds_stmt.1 (holds ready)
  rwa [scopesAfter_of_proper scopes stmt ready.2.2.1 silent] at ran

/-- A branch is sound whichever way it takes. -/
theorem branch_sound {span : Span} {condition : Expr} {consequent : Stmt}
    {alternative : Option Stmt}
    (ready : Ready context scopes
      ⟨fuel + 1, .stmt env (.branch span condition consequent alternative), state⟩) :
    Sound context scopes
      ⟨fuel + 1, .stmt env (.branch span condition consequent alternative), state⟩ := by
  obtain ⟨placed, settled, proper, inFunction, agrees⟩ := ready
  obtain ⟨agreesTest, ⟨silent, properThen⟩, agreesThen, otherwise, same⟩ :=
    branch_parts proper agrees
  have first : Ready context scopes ⟨fuel, .expr env condition, state⟩ := ⟨placed, agreesTest⟩
  have tested : Meets (evalExpr context fuel env condition) state (GivesValid context state) _ :=
    holds first
  have second {given : Value} {after : State}
      (ended : Gives (evalExpr context fuel env condition) state given after) :
      Ready context scopes ⟨fuel, .stmt env consequent, after⟩ :=
    ⟨placed.keep (tested.of_gives ended).1, settled, properThen, inFunction, agreesThen⟩
  have third {given : Value} {after : State} {other : Stmt} (chosen : alternative = some other)
      (ended : Gives (evalExpr context fuel env condition) state given after) :
      Ready context scopes ⟨fuel, .stmt env other, after⟩ :=
    ⟨placed.keep (tested.of_gives ended).1, settled, (otherwise other chosen).1.2, inFunction,
      (otherwise other chosen).2⟩
  constructor
  · rw [holds_stmt, same, runStmt_branch]
    refine (tested.of_part .condition).bind fun given middle ended valid => ?_
    split
    next true_ =>
      exact (silent_holds holds silent (second ended)).leaves_behind (.consequent ended true_)
        valid.1
    next false_ =>
      rw [Bool.not_eq_true] at false_
      cases alternative with
      | none => exact .pure ⟨valid.1, placed.fits.keep valid.1.keeps⟩
      | some other =>
          exact (silent_holds holds (otherwise other rfl).1.1 (third rfl ended)).leaves_behind
            (.alternative ended false_) valid.1
  · intro part leads
    cases leads with
    | condition => exact ⟨scopes, first⟩
    | consequent ended => exact ⟨scopes, second ended⟩
    | alternative ended => exact ⟨scopes, third rfl ended⟩

/-- A loop is sound in every one of its turns. -/
theorem loop_statement_sound {span : Span} {condition : Expr} {body : Stmt}
    (ready : Ready context scopes ⟨fuel + 1, .stmt env (.loop span condition body), state⟩) :
    Sound context scopes ⟨fuel + 1, .stmt env (.loop span condition body), state⟩ := by
  obtain ⟨placed, settled, proper, inFunction, agrees⟩ := ready
  rw [visitStmt, agrees_append] at agrees
  have first : Ready context scopes ⟨fuel, .loop env condition body, state⟩ :=
    ⟨placed, settled, proper, agrees.1, inFunction, agrees.2⟩
  constructor
  · rw [holds_stmt, runStmt, scopesAfter, scopesAfter_of_proper scopes body proper.2 proper.1]
    exact Meets.of_part (holds first) .loop
  · intro part leads
    cases leads
    exact ⟨scopes, first⟩

/-- A `return` is sound if its value is. -/
theorem giveBack_sound {span keyword : Span} {value : Option Expr}
    (ready : Ready context scopes ⟨fuel + 1, .stmt env (.giveBack span keyword value), state⟩) :
    Sound context scopes ⟨fuel + 1, .stmt env (.giveBack span keyword value), state⟩ := by
  obtain ⟨placed, settled, proper, inFunction, agrees⟩ := ready
  have first : Ready context scopes ⟨fuel, .option env value, state⟩ := ⟨placed, agrees.tail⟩
  have valued : Meets (evalOption context fuel env value) state (GivesValid context state) _ :=
    holds first
  constructor
  · rw [holds_stmt, runStmt]
    refine (valued.of_part .giveBack).bind fun given after _ valid => ?_
    exact .pure ⟨valid.1, valid.2⟩
  · intro part leads
    cases leads
    exact ⟨scopes, first⟩

/-- The execution of a statement. -/
theorem stmt_sound {stmt : Stmt} (ready : Ready context scopes ⟨fuel + 1, .stmt env stmt, state⟩) :
    Sound context scopes ⟨fuel + 1, .stmt env stmt, state⟩ := by
  cases stmt with
  | expression => exact expression_sound holds ready
  | print => exact print_sound holds ready
  | «variable» => exact variable_statement_sound holds ready
  | function => exact function_sound ready
  | block => exact block_sound holds ready
  | branch => exact branch_sound holds ready
  | loop => exact loop_statement_sound holds ready
  | giveBack => exact giveBack_sound holds ready

/-- The turns of a loop leave the scopes as they are. -/
theorem loop_sound {condition : Expr} {body : Stmt}
    (ready : Ready context scopes ⟨fuel + 1, .loop env condition body, state⟩) :
    Sound context scopes ⟨fuel + 1, .loop env condition body, state⟩ := by
  obtain ⟨placed, settled, proper, agreesTest, agreesBody⟩ := ready
  have first : Ready context scopes ⟨fuel, .expr env condition, state⟩ := ⟨placed, agreesTest⟩
  have tested : Meets (evalExpr context fuel env condition) state (GivesValid context state) _ :=
    holds first
  have second {given : Value} {after : State}
      (ended : Gives (evalExpr context fuel env condition) state given after) :
      Ready context scopes ⟨fuel, .stmt env body, after⟩ :=
    ⟨placed.keep (tested.of_gives ended).1, settled, proper.2, agreesBody⟩
  have turned {given : Value} {after : State}
      (ended : Gives (evalExpr context fuel env condition) state given after) :
      Meets (runStmt context fuel env body) after (Leaves context after env scopes)
        (Explained context ⟨fuel, .stmt env body, after⟩) :=
    silent_holds holds proper.1 (second ended)
  have third {given : Value} {after last : State}
      (ended : Gives (evalExpr context fuel env condition) state given after)
      (ran : Gives (runStmt context fuel env body) after .completed last) :
      Ready context scopes ⟨fuel, .loop env condition body, last⟩ := by
    obtain ⟨preserves, fits⟩ := (turned ended).of_gives ran
    exact ⟨⟨preserves.store, fits⟩, settled, proper, agreesTest, agreesBody⟩
  constructor
  · show Meets (runLoop context (fuel + 1) env condition body) state _ _
    rw [runLoop]
    refine (tested.of_part .test).bind fun given middle ended valid => ?_
    split
    next true_ =>
      refine ((turned ended).of_part (.turn ended true_)).bind fun flow last ran leaves => ?_
      cases flow with
      | returned value => exact .pure (leaves.behind valid.1)
      | completed =>
          exact Meets.leaves_behind (holds (third ended ran)) (.again ended true_ ran)
            (valid.1.trans leaves.1)
    next => exact .pure ⟨valid.1, placed.fits.keep valid.1.keeps⟩
  · intro part leads
    cases leads with
    | test => exact ⟨scopes, first⟩
    | turn ended => exact ⟨scopes, second ended⟩
    | again ended _ ran => exact ⟨scopes, third ended ran⟩

/-- Statements are sound one behind the other. -/
theorem stmts_sound {stmts : List Stmt}
    (ready : Ready context scopes ⟨fuel + 1, .stmts env stmts, state⟩) :
    Sound context scopes ⟨fuel + 1, .stmts env stmts, state⟩ := by
  obtain ⟨placed, settled, proper, inFunction, agrees⟩ := ready
  cases stmts with
  | nil =>
      have left : Leaves context state env scopes .completed state :=
        ⟨.refl placed.store, placed.fits⟩
      exact ⟨left, fun _ leads => by cases leads⟩
  | cons stmt rest =>
      rw [visitStmts, agrees_append] at agrees
      have first : Ready context scopes ⟨fuel, .stmt env stmt, state⟩ :=
        ⟨placed, settled, proper.1, inFunction, agrees.1⟩
      have ran : Meets (runStmt context fuel env stmt) state
          (Leaves context state env (scopesAfter scopes stmt)) _ := holds first
      have second {after : State} (ended : Gives (runStmt context fuel env stmt) state .completed
          after) : Ready context (scopesAfter scopes stmt) ⟨fuel, .stmts env rest, after⟩ := by
        obtain ⟨preserves, fits⟩ := ran.of_gives ended
        exact ⟨⟨preserves.store, fits⟩, settled_scopesAfter settled stmt, proper.2, inFunction,
          agrees.2⟩
      constructor
      · show Meets (runStmts context (fuel + 1) env (stmt :: rest)) state _ _
        rw [runStmts]
        refine (ran.of_part .head).bind fun flow middle ended leaves => ?_
        cases flow with
        | returned value => exact .pure leaves
        | completed =>
            exact Meets.leaves_behind (holds (second ended)) (.tail ended) leaves.1
      · intro part leads
        cases leads with
        | head => exact ⟨scopes, first⟩
        | tail ended => exact ⟨_, second ended⟩

end

/-- Work that is ready ends as expected, and it leads to parts that are ready. -/
theorem sound (context : Context) {fuel : Nat} {task : Task} {state : State} {scopes : List Scope}
    (ready : Ready context scopes ⟨fuel, task, state⟩) :
    Sound context scopes ⟨fuel, task, state⟩ := by
  induction fuel generalizing scopes task state with
  | zero =>
      refine ⟨?_, fun _ leads => by cases leads⟩
      cases task with
      | access => trivial
      | _ => exact Explained.outOfFuel
  | succ fuel ih =>
      have holds : HoldsAt context fuel := fun _ _ _ ready => (ih ready).holds
      cases task with
      | expr => exact expr_sound holds ready
      | exprs => exact exprs_sound holds ready
      | option => exact option_sound holds ready
      | call => exact call_sound holds ready
      | stmt => exact stmt_sound holds ready
      | loop => exact loop_sound holds ready
      | stmts => exact stmts_sound holds ready
      | access => exact ⟨trivial, fun _ leads => by cases leads⟩

/-- Every moment that work leads to is ready if the work is. -/
theorem ready_of_reaches (context : Context) {scopes : List Scope} {first last : Moment}
    (ready : Ready context scopes first) (reached : Reaches context first last) :
    ∃ inner, Ready context inner last := by
  induction reached with
  | refl => exact ⟨scopes, ready⟩
  | tail _ leads ih =>
      obtain ⟨inner, ready⟩ := ih
      exact (sound context ready).parts _ leads

end Lox.Evaluation
