import Lox.Proofs.Run.Executions
import Lox.Proofs.Run.Initializers
import Lox.Proofs.Run.Returning
import Lox.Proofs.Store.Lookup

namespace Lox

namespace Evaluation

open Lox.Computation

/-- A closure is stored in a frame, or it is one of some values. -/
def IsThere (state : State) (values : List Value) (closure : Closure) : Prop :=
  (∃ frame name, state.store.read? frame name = some (.closure closure)) ∨
    .closure closure ∈ values

/-- The steps of a run that hand on a value hand on the value itself. -/
structure HandsOn (context : Context) (start : Moment) : Prop where
  /-- A variable is declared with the value of its initializer. -/
  declared : ∀ ⦃fuel env span name initializer state flow after⦄,
    Reaches context start ⟨fuel + 1, .stmt env (.variable span name initializer), state⟩ →
      Gives (runStmt context (fuel + 1) env (.variable span name initializer)) state flow after →
        ∃ value middle, Gives (evalOption context fuel env initializer) state value middle ∧
          after.store.read? env.frame name.item = some value
  /-- An assignment stores the value of its expression in the frame that its target finds, and it
  has this value itself. -/
  assigned : ∀ ⦃fuel env span target expr state value after⦄,
    Reaches context start ⟨fuel + 1, .expr env (.assign span target expr), state⟩ →
      Gives (evalExpr context (fuel + 1) env (.assign span target expr)) state value after →
        ∃ middle frame, Gives (evalExpr context fuel env expr) state value middle ∧
          Gives (locate context env target) middle frame middle ∧
          after.store.read? frame target.name = some value
  /-- A read gives the value that is stored in the frame that its target finds. -/
  read : ∀ ⦃fuel env target state value after⦄,
    Reaches context start ⟨fuel, .access env target, state⟩ →
      Gives (Evaluation.read context env target) state value after →
        ∃ frame, Gives (locate context env target) state frame state ∧
          state.store.read? frame target.name = some value ∧ after = state
  /-- The arguments of a call are the values of their expressions, in order. -/
  listed : ∀ ⦃fuel env expr rest state values after⦄,
    Reaches context start ⟨fuel + 1, .exprs env (expr :: rest), state⟩ →
      Gives (evalExprs context (fuel + 1) env (expr :: rest)) state values after →
        ∃ value middle others, Gives (evalExpr context fuel env expr) state value middle ∧
          Gives (evalExprs context fuel env rest) middle others after ∧ values = value :: others
  /-- The value of a callee is called with the values of the arguments, and the value of this call
  is that of the expression. -/
  called : ∀ ⦃fuel env span paren callee args state function middle given after⦄,
    Reaches context start ⟨fuel + 1, .expr env (.call span paren callee args), state⟩ →
      Gives (evalExpr context fuel env callee) state function middle →
        function.isCallable = true → Gives (evalExprs context fuel env args) middle given after →
          ∀ value last,
            Gives (evalExpr context (fuel + 1) env (.call span paren callee args)) state value
              last ↔ Gives (call context fuel function given paren) after value last
  /-- The frame of a call has each argument under the name of its parameter, unless a later
  parameter has the name too. -/
  passed : ∀ ⦃fuel closure given span state env entered⦄,
    Reaches context start ⟨fuel, .call (.closure closure) given span, state⟩ →
      Gives (enter closure given) state env entered →
        ∀ ⦃before name behind values value others⦄, closure.parameters = before ++ name :: behind →
          given = values ++ value :: others → before.length = values.length → name ∉ behind →
            entered.store.read? env.frame name = some value
  /-- A call goes on in the frames that its closure has captured, and these keep their values. -/
  captured : ∀ ⦃fuel closure given span state env entered⦄,
    Reaches context start ⟨fuel, .call (.closure closure) given span, state⟩ →
      Gives (enter closure given) state env entered →
        env.outer = closure.env.frames ∧ ∀ frame ≠ env.frame, ∀ name,
          entered.store.read? frame name = state.store.read? frame name
  /-- A call has the value that a return in its body gives back. -/
  returned : ∀ ⦃fuel closure given span state env entered last value after⦄,
    Reaches context start ⟨fuel + 1, .call (.closure closure) given span, state⟩ →
      closure.parameters.length = given.length → Gives (enter closure given) state env entered →
        Within context ⟨fuel, .stmts env closure.body, entered⟩ last →
          GivesBack context last value after →
            Gives (call context (fuel + 1) (.closure closure) given span) state value after

/-- What a run from some moment on says about the identity of functions. -/
structure IdentifiesFunctions (context : Context) (start : Moment) : Prop where
  /-- The execution of a function declaration makes a closure and stores it. -/
  made : ∀ ⦃fuel env span name parameters body state⦄,
    Reaches context start ⟨fuel + 1, .stmt env (.function span name parameters body), state⟩ →
      ∃ closure after,
        Makes ⟨fuel + 1, .stmt env (.function span name parameters body), state⟩ closure ∧
        Gives (runStmt context (fuel + 1) env (.function span name parameters body)) state
          .completed after ∧
        after.store.read? env.frame name.item = some (.closure closure)
  /-- No closure that is there when another one is made is equal to it. -/
  fresh : ∀ ⦃moment closure other⦄, Reaches context start moment → Makes moment closure →
    IsThere moment.state moment.task.values other →
      (ValueIn.closure closure).equals (.closure other) = false
  /-- Every closure that is there at a moment comes from one execution, which precedes it. -/
  there : ∀ ⦃moment closure⦄, Reaches context start moment →
    IsThere moment.state moment.task.values closure →
      (∃! way, ComesFrom context start closure way) ∧
        ∀ last above, ComesFrom context start closure (last :: above) → Precedes context last moment
  /-- Every closure that is there at the end of some work or in its result comes from one
  execution. -/
  given : ∀ ⦃moment result after closure⦄, Reaches context start moment →
    Gives (moment.task.perform context moment.fuel) moment.state result after →
      IsThere after (moment.task.given result) closure → ∃! way, ComesFrom context start closure way
  /-- Whatever else happens, closures are equal exactly if they come from the same execution. -/
  equal : ∀ ⦃first second way other⦄, ComesFrom context start first way →
    ComesFrom context start second other →
      ((ValueIn.closure first).equals (.closure second) = true ↔ way = other)
  /-- Two executions are the same, or one precedes the other. -/
  ordered : ∀ ⦃first second closure other above beyond⦄,
    ComesFrom context start closure (first :: above) →
      ComesFrom context start other (second :: beyond) →
        first :: above = second :: beyond ∨ Precedes context first second ∨
          Precedes context second first
  /-- An execution that precedes another one makes a closure that is not equal. -/
  apart : ∀ ⦃first second closure other above beyond⦄,
    ComesFrom context start closure (first :: above) →
      ComesFrom context start other (second :: beyond) → Precedes context first second →
        (ValueIn.closure closure).equals (.closure other) = false
  /-- Only a closure equals a closure. -/
  alone : ∀ ⦃closure : Closure⦄ ⦃value : Value⦄, (ValueIn.closure closure).equals value = true →
    ∃ other, value = .closure other
  /-- A comparison of two closures tells whether they come from the same execution. -/
  compared : ∀ ⦃fuel env span op left right state first middle second after⦄,
    Reaches context start ⟨fuel + 1, .expr env (.binary span op left right), state⟩ →
      Gives (evalExpr context fuel env left) state (.closure first) middle →
        Gives (evalExpr context fuel env right) middle (.closure second) after →
          ∃ way other same, ComesFrom context start first way ∧
            ComesFrom context start second other ∧ (same = true ↔ way = other) ∧
            (op.item = .equal → Gives (evalExpr context (fuel + 1) env
              (.binary span op left right)) state (.bool same) after) ∧
            (op.item = .notEqual → Gives (evalExpr context (fuel + 1) env
              (.binary span op left right)) state (.bool !same) after)
  /-- Copies of a closure are the closure itself. -/
  copied : HandsOn context start

section
variable {store : Store Value} {env : Env} {frame : FrameId}

/-- A frame that binds a name is in the store. -/
theorem present_of_bound {name : String} (bound : (store.read? frame name).isSome) :
    frame < store.frames.size := by
  by_contra absent
  rw [Store.read?, Array.getElem?_eq_none (Nat.le_of_not_lt absent)] at bound
  cases bound

/-- A definition changes no other name and no other frame. -/
theorem read?_define_of_apart {name query : String} {value : Value}
    (apart : frame = env.frame → query ≠ name) :
    (store.define env name value).read? frame query = store.read? frame query := by
  by_cases present : env.frame < store.frames.size
  · rw [Store.define, Store.read?_write _ _ _ _ _ _ present, if_neg]
    exact fun both => apart both.1.symm both.2.symm
  · rw [Store.define, Store.write_of_absent _ _ _ _ present]

theorem size_define {name : String} {value : Value} :
    (store.define env name value).frames.size = store.frames.size := by
  simp [Store.define, Store.write]

/-- Names are defined one after another. -/
def defineAll (store : Store Value) (env : Env) (bindings : List (String × Value)) : Store Value :=
  bindings.foldl (fun store binding => store.define env binding.1 binding.2) store

/-- Definitions add no frames. -/
theorem size_defineAll {bindings : List (String × Value)} :
    (defineAll store env bindings).frames.size = store.frames.size := by
  induction bindings generalizing store with
  | nil => rfl
  | cons binding rest ih => exact ih.trans size_define

/-- Definitions change no other name and no other frame. -/
theorem read?_defineAll_of_apart {bindings : List (String × Value)} {query : String}
    (apart : frame = env.frame → query ∉ bindings.map Prod.fst) :
    (defineAll store env bindings).read? frame query = store.read? frame query := by
  induction bindings generalizing store with
  | nil => rfl
  | cons binding rest ih =>
      have apart (same : frame = env.frame) : query ≠ binding.1 ∧ query ∉ rest.map Prod.fst :=
        not_or.1 (List.mem_cons.not.1 (apart same))
      exact (ih fun same => (apart same).2).trans (read?_define_of_apart fun same => (apart same).1)

/-- A name has the value that it is defined with last. -/
theorem read?_defineAll {before behind : List (String × Value)} {name : String} {value : Value}
    (present : env.frame < store.frames.size) (last : name ∉ behind.map Prod.fst) :
    (defineAll store env (before ++ (name, value) :: behind)).read? env.frame name =
      some value := by
  rw [defineAll, List.foldl_append, List.foldl_cons]
  refine (read?_defineAll_of_apart fun _ => last).trans (Forest.read?_write_self ?_)
  rwa [← defineAll, size_defineAll]

/-- A call has a new frame in front of the captured ones, with its parameters. -/
theorem enter_gives {closure : Closure} {given : List Value} {state after : State} {inner : Env}
    (entered : Gives (enter closure given) state inner after) :
    inner = ⟨state.store.frames.size, closure.env.frames⟩ ∧
      after.store = defineAll state.store.push inner (closure.parameters.zip given) := by
  rw [enter, gives_bind] at entered
  obtain ⟨env, middle, nested, rest⟩ := entered
  obtain ⟨_, last, defined, ended⟩ := gives_bind.1 rest
  obtain ⟨rfl, rfl⟩ := gives_pure.1 ended
  have stored : last.store = defineAll middle.store env (closure.parameters.zip given) := by
    clear nested rest
    generalize closure.parameters.zip given = bindings at defined
    induction bindings generalizing middle with
    | nil =>
        cases defined
        rfl
    | cons binding rest ih =>
        obtain ⟨_, next, first, others⟩ := gives_bind.1 defined
        cases first
        exact ih _ others
  cases nested
  exact ⟨rfl, stored⟩

end

section
variable {context : Context} {start : Moment} {program : Program} {env : Env} {fuel : Nat}
  {state : State}

/-- The frame that a statement runs in is there. -/
theorem ConfinesBindings.present {stmt : Stmt} (bindings : ConfinesBindings context start program)
    (reached : Reaches context start ⟨fuel, .stmt env stmt, state⟩) :
    env.frame < state.store.frames.size := by
  obtain ⟨above, way⟩ := exists_way context reached
  obtain ⟨parents, later, charts, -⟩ := bindings.statement way
  exact charts.size ▸ (charts.seen _ List.mem_cons_self).present _ List.mem_cons_self

/-- A variable's declaration stores the value of its initializer, or nil. -/
theorem variable_stores {span : Span} {name : Name} {initializer : Option Expr} {flow : Flow}
    {after : State} (bindings : ConfinesBindings context start program)
    (reached : Reaches context start ⟨fuel + 1, .stmt env (.variable span name initializer), state⟩)
    (ended : Gives (runStmt context (fuel + 1) env (.variable span name initializer)) state flow
      after) :
    ∃ value middle, Gives (evalOption context fuel env initializer) state value middle ∧
      after.store.read? env.frame name.item = some value := by
  obtain ⟨above, way⟩ := exists_way context reached
  obtain ⟨_, _, -, -, -, -, keeps, -⟩ := bindings.statement way
  rw [show runStmt _ _ _ _ _ = _ from ended] at keeps
  have present := Nat.lt_of_lt_of_le (bindings.present reached) keeps.frames
  rw [runStmt, gives_bind] at ended
  obtain ⟨value, middle, valued, rest⟩ := ended
  cases rest
  refine ⟨value, middle, valued, Forest.read?_write_self ?_⟩
  rwa [lastState, size_define] at present

/-- An assignment stores its value and gives it. -/
theorem assign_stores {span : Span} {target : Occurrence} {expr : Expr} {value : Value}
    {after : State}
    (ended : Gives (evalExpr context (fuel + 1) env (.assign span target expr)) state value after) :
    ∃ middle frame, Gives (evalExpr context fuel env expr) state value middle ∧
      Gives (locate context env target) middle frame middle ∧
      after.store.read? frame target.name = some value := by
  rw [evalExpr, gives_bind] at ended
  obtain ⟨given, middle, valued, rest⟩ := ended
  obtain ⟨_, last, assigned, same⟩ := gives_bind.1 rest
  obtain ⟨rfl, rfl⟩ := gives_pure.1 same
  obtain ⟨frame, _, located, wrote⟩ := gives_bind.1 assigned
  obtain ⟨rfl, bound⟩ := locate_eq_ok located
  cases wrote
  exact ⟨_, frame, valued, located, Forest.read?_write_self (present_of_bound bound)⟩

/-- A read gives the value that is stored where the variable is located. -/
theorem read_finds {target : Occurrence} {value : Value} {after : State}
    (ended : Gives (read context env target) state value after) :
    ∃ frame, Gives (locate context env target) state frame state ∧
      state.store.read? frame target.name = some value ∧ after = state := by
  obtain ⟨frame, _, located, rest⟩ := gives_bind.1 ended
  obtain ⟨rfl, bound⟩ := locate_eq_ok located
  obtain ⟨given, found⟩ := Option.isSome_iff_exists.1 bound
  cases (read_of_located located found).symm.trans ended
  exact ⟨frame, located, found, rfl⟩

/-- The values of expressions are listed in the order of the expressions. -/
theorem exprs_list {expr : Expr} {rest : List Expr} {values : List Value} {after : State}
    (ended : Gives (evalExprs context (fuel + 1) env (expr :: rest)) state values after) :
    ∃ value middle others, Gives (evalExpr context fuel env expr) state value middle ∧
      Gives (evalExprs context fuel env rest) middle others after ∧ values = value :: others := by
  rw [evalExprs, gives_bind] at ended
  obtain ⟨value, middle, first, further⟩ := ended
  obtain ⟨others, last, second, same⟩ := gives_bind.1 further
  obtain ⟨rfl, rfl⟩ := gives_pure.1 same
  exact ⟨value, middle, others, first, second, rfl⟩

/-- A call hands the values of its callee and its arguments on. -/
theorem call_calls {span paren : Span} {callee : Expr} {args : List Expr} {function : Value}
    {given : List Value} {middle after : State}
    (first : Gives (evalExpr context fuel env callee) state function middle)
    (callable : function.isCallable = true)
    (passed : Gives (evalExprs context fuel env args) middle given after) (value : Value)
    (last : State) :
    Gives (evalExpr context (fuel + 1) env (.call span paren callee args)) state value last ↔
      Gives (call context fuel function given paren) after value last := by
  rw [evalExpr, gives_step first, if_pos callable, gives_step passed]

/-- Every way to hand a value on hands on the value itself. -/
theorem handsOn (bindings : ConfinesBindings context start program) : HandsOn context start where
  declared _ _ _ _ _ _ _ _ reached ended := variable_stores bindings reached ended
  assigned _ _ _ _ _ _ _ _ _ ended := assign_stores ended
  read _ _ _ _ _ _ _ ended := read_finds ended
  listed _ _ _ _ _ _ _ _ ended := exprs_list ended
  called _ _ _ _ _ _ _ _ _ _ _ _ first callable passed := call_calls first callable passed
  passed fuel closure given span state env entered _ entering before name behind values value
      others named split even last := by
    obtain ⟨rfl, stored⟩ := enter_gives entering
    rw [stored, named, split, List.zip_append even, List.zip_cons_cons]
    refine read?_defineAll ?_ fun among => ?_
    · simp [Store.push]
    · obtain ⟨binding, inside, rfl⟩ := List.mem_map.1 among
      exact last (List.of_mem_zip inside).1
  captured fuel closure given span state env entered _ entering := by
    obtain ⟨rfl, stored⟩ := enter_gives entering
    refine ⟨rfl, fun frame apart name => ?_⟩
    rw [stored, read?_defineAll_of_apart fun same => absurd same apart, Store.read?_push]
  returned _ _ _ _ _ _ _ _ _ _ _ fits entering within gives :=
    call_gives_iff.2 ⟨fits, _, _, entering, .inr ⟨_, within, gives⟩⟩

end

/-- The closures of a run are known when they are counted. -/
def Register.ofRun (context : Context) (start : Moment) : Register where
  knows count closure := closure.id < count ∧ ∃ way, ComesFrom context start closure way
  grows _ _ _ grown known := ⟨Nat.lt_of_lt_of_le known.1 grown, known.2⟩

section
variable {context : Context} {start moment : Moment} {closure : Closure} {state : State}

/-- The register of a run allows the closures that the run makes. -/
theorem allows_ofRun : Allows (.ofRun context start) context start := by
  intro last closure reached makes
  obtain ⟨above, way⟩ := exists_way context reached
  exact ⟨makes.id_eq ▸ Nat.lt_succ_self _, _, .intro way makes⟩

/-- What is there when it is tracked is known. -/
theorem Tracked.knows {register : Register} {before after : State} {values : List Value}
    (tracked : Tracked register before after values) (there : IsThere after values closure) :
    register.knows after.closures closure := by
  rcases there with ⟨frame, name, found⟩ | among
  · exact tracked.stored found closure rfl
  · exact tracked.given _ among closure rfl

/-- No closure is there. -/
def IsClear (moment : Moment) : Prop :=
  ∀ closure, ¬ IsThere moment.state moment.task.values closure

section
variable (clear : IsClear start)
include clear

/-- Every reached moment is tracked by the register of its run. -/
theorem tracked_ofRun (reached : Reaches context start moment) :
    Tracked (.ofRun context start) start.state moment.state moment.task.values := by
  refine tracked_of_reaches reached allows_ofRun (fun value among closure same => ?_)
    fun frame name value found closure same => ?_
  · exact absurd (.inr (same ▸ among)) (clear closure)
  · exact absurd (.inl ⟨frame, name, same ▸ found⟩) (clear closure)

/-- Every closure at a reached moment comes from an earlier execution of the run. -/
theorem known_ofRun (reached : Reaches context start moment)
    (there : IsThere moment.state moment.task.values closure) :
    closure.id < moment.state.closures ∧ ∃ way, ComesFrom context start closure way :=
  (tracked_ofRun clear reached).knows there

/-- Every closure in a result comes from an execution of the run. -/
theorem given_ofRun (reached : Reaches context start moment) {result : moment.task.Result}
    {after : State}
    (ended : Gives (moment.task.perform context moment.fuel) moment.state result after)
    (there : IsThere after (moment.task.given result) closure) :
    ∃ way, ComesFrom context start closure way := by
  have tracked := tracked_ofRun clear reached
  have further := tracksAt (allows_ofRun.of_reaches reached) tracked.given tracked.stored ended
  exact (further.knows there).2

end

/-- Closures are equal when their numbers are. -/
theorem closures_equal_iff {first second : Closure} :
    (ValueIn.closure first).equals (.closure second) = true ↔ first.id = second.id := by
  rw [ValueIn.equals, decide_eq_true_eq]

/-- Closures are equal when they come from the same execution. -/
theorem ComesFrom.equals_iff {first second : Closure} {way other : List Moment}
    (comes : ComesFrom context start first way) (also : ComesFrom context start second other) :
    (ValueIn.closure first).equals (.closure second) = true ↔ way = other := by
  rw [closures_equal_iff]
  refine ⟨comes.way_unique also, fun same => ?_⟩
  subst same
  rw [comes.closure_unique also]

/-- A comparison of closures in the order of a run. -/
theorem compares (clear : IsClear start) {fuel : Nat} {env : Env} {span : Span}
    {op : Located BinaryOp} {left right : Expr} {first second : Closure} {middle after : State}
    (reached : Reaches context start ⟨fuel + 1, .expr env (.binary span op left right), state⟩)
    (one : Gives (evalExpr context fuel env left) state (.closure first) middle)
    (two : Gives (evalExpr context fuel env right) middle (.closure second) after) :
    ∃ way other same, ComesFrom context start first way ∧ ComesFrom context start second other ∧
      (same = true ↔ way = other) ∧
      (op.item = .equal → Gives (evalExpr context (fuel + 1) env
        (.binary span op left right)) state (.bool same) after) ∧
      (op.item = .notEqual → Gives (evalExpr context (fuel + 1) env
        (.binary span op left right)) state (.bool !same) after) := by
  obtain ⟨way, comes⟩ :=
    given_ofRun clear (reached.tail .binaryLeft) one (.inr List.mem_cons_self)
  obtain ⟨other, also⟩ :=
    given_ofRun clear (reached.tail (.binaryRight one)) two (.inr List.mem_cons_self)
  refine ⟨way, other, _, comes, also, comes.equals_iff also, fun equal => ?_, fun differ => ?_⟩
  · rw [evalExpr, gives_step one, gives_step two, applyBinary, equal]
    rfl
  · rw [evalExpr, gives_step one, gives_step two, applyBinary, differ]
    rfl

/-- A run that starts without closures identifies its functions. -/
theorem identifiesFunctions {program : Program} (clear : IsClear start)
    (bindings : ConfinesBindings context start program) : IdentifiesFunctions context start where
  made fuel env span name parameters body state reached := by
    have present := bindings.present reached
    exact ⟨_, _, .intro, rfl, Forest.read?_write_self present⟩
  fresh moment closure other reached makes there := by
    obtain ⟨counted, -⟩ := known_ofRun clear reached there
    rw [Bool.eq_false_iff, Ne, closures_equal_iff, makes.id_eq]
    exact (Nat.ne_of_lt counted).symm
  there moment closure reached there := by
    obtain ⟨counted, way, comes⟩ := known_ofRun clear reached there
    exact ⟨⟨way, comes, fun other also => also.way_unique comes rfl⟩,
      fun last above also => also.precedes reached counted⟩
  given moment result after closure reached ended there := by
    obtain ⟨way, comes⟩ := given_ofRun clear reached ended there
    exact ⟨way, comes, fun other also => also.way_unique comes rfl⟩
  equal first second way other comes also := comes.equals_iff also
  ordered first second closure other above beyond comes also := comes.ordered also
  apart first second closure other above beyond comes also precedes := by
    rw [Bool.eq_false_iff, Ne, closures_equal_iff]
    exact Nat.ne_of_lt (comes.id_lt_id also precedes)
  alone closure value equal := by
    cases value with
    | closure other => exact ⟨other, rfl⟩
    | nil | bool | number | string | native => cases equal
  compared _ _ _ _ _ _ _ _ _ _ _ reached one two := compares clear reached one two
  copied := handsOn bindings

end

end Evaluation

open Evaluation

/-- In every run of a text without syntax errors, functions are equal exactly if they come from the
same execution of a declaration. -/
theorem run_identifiesFunctions {text : String} (clean : (parse text).errors = []) (fuel : Nat)
    (clock : Nat → Float) (output : Sink) :
    IdentifiesFunctions (Interpreter.loaded clock output (parse text).program).context
      ((Interpreter.loaded clock output (parse text).program).start (parse text).program fuel) := by
  let interpreter := Interpreter.loaded clock output (parse text).program
  have follows : Parents.Follows [none] interpreter.context.globals.frames := .last rfl
  have bindings : ConfinesBindings interpreter.context
      (interpreter.start (parse text).program fuel) (parse text).program :=
    confinesBindings (Interpreter.loaded_linked clock output (parse text).program) follows
      (Parser.forms_of_clean clean).2.proper
        fun name found => Interpreter.new_named clock output found
  refine identifiesFunctions (fun closure there => ?_) bindings
  rcases there with ⟨frame, name, found⟩ | among
  · cases Interpreter.new_read? clock output found
  · cases among

/-- Two functions of one declaration, and a copy of one of them. -/
def twinsText : String :=
  "fun make() \x7b fun f() \x7b\x7d return f; \x7d " ++
    "var a = make(); var b = a; print a == b; print a == make();"

theorem run_identifiesFunctions_twins :
    (parse twinsText).errors = [] ∧
      IdentifiesFunctions
        (Interpreter.loaded (fun _ => 0) .unlimited (parse twinsText).program).context
        ((Interpreter.loaded (fun _ => 0) .unlimited (parse twinsText).program).start
          (parse twinsText).program 100) :=
  ⟨by decide +kernel, run_identifiesFunctions (by decide +kernel) 100 (fun _ => 0) .unlimited⟩

example :
    (run 100 (fun _ => 0) .unlimited twinsText).output.contents = "true\nfalse\n".toUTF8 := by
  decide +kernel

end Lox
