import Lox.Proofs.Run.Halting
import Lox.Proofs.Scope.Occurrences

namespace Lox

/-- The occurrences in the body of a closure. Other values have none. -/
def ValueIn.targets {ε : Type} : ValueIn ε → List Occurrence
  | .closure declared => Stmt.targetsAll declared.body
  | .nil | .bool _ | .number _ | .string _ | .native _ => []

namespace Evaluation

open Lox.Computation

def Flow.targets : Flow → List Occurrence
  | .completed => []
  | .returned value => value.targets

/-- The occurrences in what a run works on, also in the values that it is given. -/
def Task.targets : Task → List Occurrence
  | .expr _ given => given.targets
  | .exprs _ given => Expr.targetsAll given
  | .option _ given => Expr.targetsOption given
  | .call callee given _ => callee.targets ++ given.flatMap ValueIn.targets
  | .stmt _ given => given.targets
  | .loop _ condition body => condition.targets ++ body.targets
  | .stmts _ given => Stmt.targetsAll given
  | .access _ target => [target]

section
variable (known : Occurrence → Prop)

/-- All occurrences of a list are known. -/
def AllKnown (targets : List Occurrence) : Prop := ∀ target ∈ targets, known target

/-- The closures in a store have known occurrences only. -/
def KnownStore (store : Store Value) : Prop :=
  ∀ ⦃frame : FrameId⦄ ⦃name : String⦄ ⦃value : Value⦄, store.read? frame name = some value →
    AllKnown known value.targets

/-- A computation brings in no occurrences: with a known store it ends in one, and its value has
known occurrences only. -/
def Traces {α : Type} (compute : Eval α) (targets : α → List Occurrence) : Prop :=
  ∀ ⦃state : State⦄, KnownStore known state.store →
    match compute state with
    | .ok value after => KnownStore known after.store ∧ AllKnown known (targets value)
    | .error _ after => KnownStore known after.store

end

section
variable {known : Occurrence → Prop}

theorem allKnown_nil : AllKnown known [] := nofun

theorem allKnown_cons {target : Occurrence} {targets : List Occurrence} :
    AllKnown known (target :: targets) ↔ known target ∧ AllKnown known targets :=
  List.forall_mem_cons

/-- Occurrences in two lists are known if those in both are. -/
theorem allKnown_append {targets others : List Occurrence} :
    AllKnown known (targets ++ others) ↔ AllKnown known targets ∧ AllKnown known others :=
  List.forall_mem_append

/-- The occurrences in a branch are those in its condition and in its statements. -/
theorem allKnown_branch {span : Span} {condition : Expr} {consequent : Stmt}
    {alternative : Option Stmt} :
    AllKnown known (Stmt.targets (.branch span condition consequent alternative)) ↔
      AllKnown known condition.targets ∧ AllKnown known consequent.targets ∧
        ∀ stmt, alternative = some stmt → AllKnown known stmt.targets := by
  cases alternative with
  | none => simp [Stmt.targets, allKnown_append]
  | some stmt => simp [Stmt.targets, allKnown_append]

namespace KnownStore

variable {store : Store Value}

/-- A value whose occurrences are known may be written anywhere. -/
theorem write {value : Value} (traced : KnownStore known store) (frame : FrameId) (name : String)
    (new : AllKnown known value.targets) : KnownStore known (store.write frame name value) := by
  by_cases present : frame < store.frames.size
  · intro other query found given
    rw [Store.read?_write store frame other name query value present] at given
    split at given
    · cases given
      exact new
    · exact traced given
  · rw [Store.write_of_absent store frame name value present]
    exact traced

theorem push (traced : KnownStore known store) : KnownStore known store.push := by
  intro frame name value given
  rw [Store.read?_push] at given
  exact traced given

end KnownStore

namespace Traces

variable {α β : Type} {compute : Eval α} {next : α → Eval β} {targets : α → List Occurrence}
  {others : β → List Occurrence} {state after : State}

theorem pure {value : α} (given : AllKnown known (targets value)) :
    Traces known (pure value : Eval α) targets := fun _ traced => ⟨traced, given⟩

theorem throw (halt : Halt) : Traces known (throw halt : Eval α) targets := fun _ traced => traced

theorem bind (first : Traces known compute targets)
    (rest : ∀ value, AllKnown known (targets value) → Traces known (next value) others) :
    Traces known (compute >>= next) others := by
  intro state traced
  have started := first traced
  cases ended : compute state with
  | ok value after =>
      rw [ended] at started
      rw [bind_of_ok ended]
      exact rest value started.2 started.1
  | error halt after =>
      rw [ended] at started
      rw [bind_of_error ended]
      exact started

/-- A step that keeps the closures in the store and gives no other one. -/
theorem modifyGet {change : State → α × State}
    (keeps : ∀ state, KnownStore known state.store → KnownStore known (change state).2.store ∧
      AllKnown known (targets (change state).1)) :
    Traces known (modifyGet change : Eval α) targets := by
  intro state traced
  rw [modifyGet_apply]
  exact keeps state traced

/-- A value that is given has known occurrences. -/
theorem of_gives (traces : Traces known compute targets) (traced : KnownStore known state.store)
    {value : α} (ended : Gives compute state value after) :
    KnownStore known after.store ∧ AllKnown known (targets value) := by
  have holds := traces traced
  rwa [show compute state = .ok value after from ended] at holds

/-- A halt leaves known occurrences in the store. -/
theorem of_error (traces : Traces known compute targets) (traced : KnownStore known state.store)
    {halt : Halt} (ended : compute state = .error halt after) : KnownStore known after.store := by
  have holds := traces traced
  rwa [ended] at holds

end Traces

/-- A computation whose value has no occurrences. -/
abbrev TracesNone {α : Type} (known : Occurrence → Prop) (compute : Eval α) : Prop :=
  Traces known compute fun _ => []

section
variable {context : Context} {env : Env}

/-- A closure carries the occurrences of its body. -/
theorem makeClosure_traces {name : Name} {parameters : List Name} {body : List Stmt}
    (given : AllKnown known (Stmt.targetsAll body)) :
    Traces known (makeClosure env name parameters body) ValueIn.targets :=
  .modifyGet fun _ traced => ⟨traced, given⟩

theorem readClock_traces {clock : Nat → Float} :
    Traces known (readClock clock : Eval Value) ValueIn.targets :=
  .modifyGet fun _ traced => ⟨traced, allKnown_nil⟩

theorem nest_traces : TracesNone known (nest env) :=
  .modifyGet fun _ traced => ⟨traced.push, allKnown_nil⟩

theorem define_traces {name : String} {value : Value} (given : AllKnown known value.targets) :
    TracesNone known (define env name value) :=
  .modifyGet fun _ traced => ⟨traced.write _ _ given, allKnown_nil⟩

theorem printLine_traces {value : Value} {span : Span} :
    TracesNone known (printLine value span) := by
  have written : TracesNone known (write (value.text ++ "\n")) :=
    .modifyGet fun _ traced => ⟨traced, allKnown_nil⟩
  apply written.bind
  intro complete _
  split
  · exact .pure allKnown_nil
  · exact .throw _

theorem checkArity_traces {name : String} {expected given : Nat} {span : Span} :
    TracesNone known (checkArity name expected given span) := by
  unfold checkArity
  split
  · exact .pure allKnown_nil
  · exact .throw _

theorem applyUnary_traces {op : Located UnaryOp} {operand : Value} :
    Traces known (applyUnary op operand) ValueIn.targets := by
  unfold applyUnary
  split
  next value applied =>
    apply Traces.pure
    unfold ValueIn.applyUnary? at applied
    split at applied <;> cases applied <;> exact allKnown_nil
  next => exact .throw _

theorem applyBinary_traces {op : Located BinaryOp} {left right : Value} :
    Traces known (applyBinary op left right) ValueIn.targets := by
  unfold applyBinary
  split
  next value applied =>
    apply Traces.pure
    unfold ValueIn.applyBinary? at applied
    split at applied <;> cases applied <;> exact allKnown_nil
  next => exact .throw _

/-- A function is entered with the occurrences of its arguments. -/
theorem enter_traces {closure : Closure} {given : List Value}
    (passed : AllKnown known (given.flatMap ValueIn.targets)) :
    TracesNone known (enter closure given) := by
  have values : ∀ binding ∈ closure.parameters.zip given, AllKnown known binding.2.targets := by
    intro binding among target occurs
    exact passed target (List.mem_flatMap.2 ⟨binding.2, (List.of_mem_zip among).2, occurs⟩)
  apply nest_traces.bind
  intro inner _
  refine Traces.bind (?_ : TracesNone known _) fun _ _ => .pure allKnown_nil
  generalize closure.parameters.zip given = bindings at values
  induction bindings with
  | nil => exact .pure allKnown_nil
  | cons binding rest ih =>
      obtain ⟨first, later⟩ := List.forall_mem_cons.1 values
      exact (define_traces first).bind fun _ _ => ih later

/-- What is read is in the store. -/
theorem read_traces {target : Occurrence} :
    Traces known (read context env target) ValueIn.targets := by
  intro state traced
  unfold read
  cases located : locate context env target state with
  | error halt after =>
      rw [bind_of_error located]
      cases locate_eq_error located
      exact traced
  | ok frame after =>
      obtain ⟨rfl, bound⟩ := locate_eq_ok located
      obtain ⟨value, found⟩ := Option.isSome_iff_exists.1 bound
      rw [bind_of_ok located, bind_of_ok (get_apply _)]
      simp only [Store.readIn, found]
      exact ⟨traced, traced found⟩

theorem locate_traces {target : Occurrence} : TracesNone known (locate context env target) := by
  intro state traced
  rw [locate_eq]
  cases frameFor context env target state.store with
  | ok frame => exact ⟨traced, allKnown_nil⟩
  | error fault => exact traced

theorem assign_traces {target : Occurrence} {value : Value}
    (given : AllKnown known value.targets) : TracesNone known (assign context env target value) :=
  locate_traces.bind fun _ _ => .modifyGet fun _ traced => ⟨traced.write _ _ given, allKnown_nil⟩

end

section
variable (known) (context : Context)

/-- All work with an amount of fuel brings in no occurrences. -/
structure TracesAll (fuel : Nat) : Prop where
  expr : ∀ env expr, AllKnown known expr.targets →
    Traces known (evalExpr context fuel env expr) ValueIn.targets
  exprs : ∀ env exprs, AllKnown known (Expr.targetsAll exprs) →
    Traces known (evalExprs context fuel env exprs) fun values => values.flatMap ValueIn.targets
  option : ∀ env given, AllKnown known (Expr.targetsOption given) →
    Traces known (evalOption context fuel env given) ValueIn.targets
  call : ∀ callee given span, AllKnown known callee.targets →
    AllKnown known (given.flatMap ValueIn.targets) →
      Traces known (call context fuel callee given span) ValueIn.targets
  stmt : ∀ env stmt, AllKnown known stmt.targets →
    Traces known (runStmt context fuel env stmt) Flow.targets
  loop : ∀ env condition body, AllKnown known condition.targets → AllKnown known body.targets →
    Traces known (runLoop context fuel env condition body) Flow.targets
  stmts : ∀ env stmts, AllKnown known (Stmt.targetsAll stmts) →
    Traces known (runStmts context fuel env stmts) Flow.targets

end

section
variable {context : Context} {fuel : Nat} (parts : TracesAll known context fuel)
include parts

/-- One more unit of fuel keeps the occurrences of an expression known. -/
theorem expr_traces (env : Env) {expr : Expr} (given : AllKnown known expr.targets) :
    Traces known (evalExpr context (fuel + 1) env expr) ValueIn.targets := by
  cases expr with
  | literal span value =>
      apply Traces.pure
      cases value <;> exact allKnown_nil
  | «variable» target => exact read_traces
  | assign span target value =>
      rw [evalExpr]
      apply (parts.expr env value (allKnown_cons.1 given).2).bind
      intro new known
      exact (assign_traces known).bind fun _ _ => .pure known
  | group span inner => exact parts.expr env inner given
  | unary span op operand =>
      rw [evalExpr]
      exact (parts.expr env operand given).bind fun _ _ => applyUnary_traces
  | binary span op left right =>
      obtain ⟨first, second⟩ := allKnown_append.1 given
      rw [evalExpr]
      apply (parts.expr env left first).bind
      intro _ _
      exact (parts.expr env right second).bind fun _ _ => applyBinary_traces
  | logical span op left right =>
      obtain ⟨first, second⟩ := allKnown_append.1 given
      rw [evalExpr]
      apply (parts.expr env left first).bind
      intro value known
      split
      next => exact .pure known
      next => exact parts.expr env right second
  | call span paren callee arguments =>
      obtain ⟨first, second⟩ := allKnown_append.1 given
      rw [evalExpr]
      apply (parts.expr env callee first).bind
      intro function known
      split
      next =>
        apply (parts.exprs env arguments second).bind
        intro values passed
        exact parts.call function values paren known passed
      next => exact .throw _

/-- One more unit of fuel keeps the occurrences of several expressions known. -/
theorem exprs_traces (env : Env) {exprs : List Expr}
    (given : AllKnown known (Expr.targetsAll exprs)) :
    Traces known (evalExprs context (fuel + 1) env exprs)
      fun values => values.flatMap ValueIn.targets := by
  cases exprs with
  | nil => exact .pure allKnown_nil
  | cons expr rest =>
      obtain ⟨first, second⟩ := allKnown_append.1 given
      rw [evalExprs]
      apply (parts.expr env expr first).bind
      intro value known
      apply (parts.exprs env rest second).bind
      intro values others
      exact .pure (allKnown_append.2 ⟨known, others⟩)

theorem option_traces (env : Env) {option : Option Expr}
    (given : AllKnown known (Expr.targetsOption option)) :
    Traces known (evalOption context (fuel + 1) env option) ValueIn.targets := by
  cases option with
  | none => exact .pure allKnown_nil
  | some expr => exact parts.expr env expr given

/-- The body of a closure has no other occurrences than the closure. -/
theorem call_traces {callee : Value} {given : List Value} (span : Span)
    (body : AllKnown known callee.targets)
    (passed : AllKnown known (given.flatMap ValueIn.targets)) :
    Traces known (call context (fuel + 1) callee given span) ValueIn.targets := by
  cases callee with
  | nil | bool | number | string => exact .throw _
  | native provided =>
      cases provided
      exact checkArity_traces.bind fun _ _ => readClock_traces
  | closure closure =>
      rw [call]
      apply checkArity_traces.bind
      intro _ _
      apply (enter_traces passed).bind
      intro inner _
      apply (parts.stmts inner closure.body body).bind
      intro flow known
      cases flow with
      | completed => exact .pure allKnown_nil
      | returned value => exact .pure known

/-- One more unit of fuel keeps the occurrences of a statement known. -/
theorem stmt_traces (env : Env) {stmt : Stmt} (given : AllKnown known stmt.targets) :
    Traces known (runStmt context (fuel + 1) env stmt) Flow.targets := by
  cases stmt with
  | expression span value =>
      rw [runStmt, discard_bind]
      exact (parts.expr env value given).bind fun _ _ => .pure allKnown_nil
  | print span value =>
      rw [runStmt]
      apply (parts.expr env value given).bind
      intro _ _
      exact printLine_traces.bind fun _ _ => .pure allKnown_nil
  | «variable» span name initializer =>
      rw [runStmt]
      apply (parts.option env initializer given).bind
      intro value known
      exact (define_traces known).bind fun _ _ => .pure allKnown_nil
  | function span name parameters body =>
      rw [runStmt]
      apply (makeClosure_traces given).bind
      intro value known
      exact (define_traces known).bind fun _ _ => .pure allKnown_nil
  | block span body =>
      rw [runStmt]
      exact nest_traces.bind fun inner _ => parts.stmts inner body given
  | branch span condition consequent alternative =>
      obtain ⟨first, second, third⟩ := allKnown_branch.1 given
      rw [runStmt_branch]
      apply (parts.expr env condition first).bind
      intro _ _
      split
      next => exact parts.stmt env consequent second
      next =>
        split
        next other => exact parts.stmt env other (third other rfl)
        next => exact .pure allKnown_nil
  | loop span condition body =>
      obtain ⟨first, second⟩ := allKnown_append.1 given
      exact parts.loop env condition body first second
  | giveBack span keyword value =>
      rw [runStmt]
      exact (parts.option env value given).bind fun _ known => .pure known

/-- One more unit of fuel keeps the occurrences of a loop known. -/
theorem loop_traces (env : Env) {condition : Expr} {body : Stmt}
    (test : AllKnown known condition.targets) (turn : AllKnown known body.targets) :
    Traces known (runLoop context (fuel + 1) env condition body) Flow.targets := by
  rw [runLoop]
  apply (parts.expr env condition test).bind
  intro _ _
  split
  next =>
    apply (parts.stmt env body turn).bind
    intro flow known
    cases flow with
    | completed => exact parts.loop env condition body test turn
    | returned value => exact .pure known
  next => exact .pure allKnown_nil

/-- One more unit of fuel keeps the occurrences of several statements known. -/
theorem stmts_traces (env : Env) {stmts : List Stmt}
    (given : AllKnown known (Stmt.targetsAll stmts)) :
    Traces known (runStmts context (fuel + 1) env stmts) Flow.targets := by
  cases stmts with
  | nil => exact .pure allKnown_nil
  | cons stmt rest =>
      obtain ⟨first, second⟩ := allKnown_append.1 given
      rw [runStmts]
      apply (parts.stmt env stmt first).bind
      intro flow known
      cases flow with
      | completed => exact parts.stmts env rest second
      | returned value => exact .pure known

end

/-- Every task keeps its occurrences known, whatever its fuel is. -/
theorem tracesAll (context : Context) (fuel : Nat) : TracesAll known context fuel := by
  induction fuel with
  | zero => constructor <;> intros <;> exact .throw _
  | succ fuel parts =>
      exact ⟨fun env _ given => expr_traces parts env given,
        fun env _ given => exprs_traces parts env given,
        fun env _ given => option_traces parts env given,
        fun _ _ span body passed => call_traces parts span body passed,
        fun env _ given => stmt_traces parts env given,
        fun env _ _ test turn => loop_traces parts env test turn,
        fun env _ given => stmts_traces parts env given⟩

end

/-- A moment is traced when its work and its store have known occurrences only. -/
structure TracedMoment (known : Occurrence → Prop) (moment : Moment) : Prop where
  task : AllKnown known moment.task.targets
  store : KnownStore known moment.state.store

section
variable {known : Occurrence → Prop} {context : Context}

/-- A part of some work is a part of its code as well. -/
theorem Part.traced {moment part : Moment} (leads : Part context moment part)
    (traced : TracedMoment known moment) : TracedMoment known part := by
  obtain ⟨task, store⟩ := traced
  have all (fuel : Nat) : TracesAll known context fuel := tracesAll context fuel
  cases leads with
  | «variable» | group | unary | some | expression | print | initializer | loop | giveBack =>
      exact ⟨task, store⟩
  | assignValue => exact ⟨(allKnown_cons.1 task).2, store⟩
  | assign valued =>
      obtain ⟨target, value⟩ := allKnown_cons.1 task
      obtain ⟨after, -⟩ := ((all _).expr _ _ value).of_gives store valued
      exact ⟨allKnown_cons.2 ⟨target, allKnown_nil⟩, after⟩
  | binaryLeft | logicalLeft | callee | first | test | head =>
      exact ⟨(allKnown_append.1 task).1, store⟩
  | binaryRight first | logicalRight first | arguments first | rest first | turn first =>
      obtain ⟨early, late⟩ := allKnown_append.1 task
      exact ⟨late, (((all _).expr _ _ early).of_gives store first).1⟩
  | call first _ passed =>
      obtain ⟨early, late⟩ := allKnown_append.1 task
      obtain ⟨after, function⟩ := ((all _).expr _ _ early).of_gives store first
      obtain ⟨last, values⟩ := ((all _).exprs _ _ late).of_gives after passed
      exact ⟨allKnown_append.2 ⟨function, values⟩, last⟩
  | body _ entered =>
      obtain ⟨closure, given⟩ := allKnown_append.1 task
      exact ⟨closure, ((enter_traces given).of_gives store entered).1⟩
  | block opened => exact ⟨task, (nest_traces.of_gives store opened).1⟩
  | condition => exact ⟨(allKnown_branch.1 task).1, store⟩
  | consequent first =>
      obtain ⟨condition, consequent, -⟩ := allKnown_branch.1 task
      exact ⟨consequent, (((all _).expr _ _ condition).of_gives store first).1⟩
  | alternative first =>
      obtain ⟨condition, -, alternative⟩ := allKnown_branch.1 task
      exact ⟨alternative _ rfl, (((all _).expr _ _ condition).of_gives store first).1⟩
  | again first _ turned =>
      obtain ⟨condition, body⟩ := allKnown_append.1 task
      obtain ⟨after, -⟩ := ((all _).expr _ _ condition).of_gives store first
      exact ⟨task, (((all _).stmt _ _ body).of_gives after turned).1⟩
  | tail first =>
      obtain ⟨early, late⟩ := allKnown_append.1 task
      exact ⟨late, (((all _).stmt _ _ early).of_gives store first).1⟩

/-- A run from a traced moment comes to traced moments only. -/
theorem traced_of_reaches {first last : Moment} (reached : Reaches context first last)
    (traced : TracedMoment known first) : TracedMoment known last := by
  induction reached with
  | refl => exact traced
  | tail _ leads ih => exact leads.traced ih

end

end Evaluation

end Lox
