import Lox.Proofs.Output.Cut
import Lox.Proofs.Run.Agreement
import Lox.Proofs.Run.Chains

namespace Lox

namespace Evaluation

open Lox.Computation

/-- A value that is given back is linked. -/
def LinkedFlow (parents : Parents) (flow : Flow) : Prop :=
  ∀ ⦃value⦄, flow = .returned value → LinkedValue parents value

section
variable (may : FrameId → Stmt → Prop) (context : Context)

/-- All work with an amount of fuel declares names only where it may. -/
structure ConfinesAll (fuel : Nat) : Prop where
  expr : ∀ {parents env} expr, Spares may parents → parents.Follows env.frames →
    Confines may parents (evalExpr context fuel env expr) LinkedValue
  exprs : ∀ {parents env} exprs, Spares may parents → parents.Follows env.frames →
    Confines may parents (evalExprs context fuel env exprs) fun later values =>
      ∀ value ∈ values, LinkedValue later value
  option : ∀ {parents env} given, Spares may parents → parents.Follows env.frames →
    Confines may parents (evalOption context fuel env given) LinkedValue
  call : ∀ {parents callee given} span, Spares may parents → LinkedValue parents callee →
    (∀ value ∈ given, LinkedValue parents value) →
      Confines may parents (call context fuel callee given span) LinkedValue
  stmt : ∀ {parents env stmt}, Spares may parents → parents.Follows env.frames → stmt.Proper →
    (stmt.declares = true → may env.frame stmt) →
      Confines may parents (runStmt context fuel env stmt) LinkedFlow
  loop : ∀ {parents env body} condition, Spares may parents → parents.Follows env.frames →
    body.declares = false → body.Proper →
      Confines may parents (runLoop context fuel env condition body) LinkedFlow
  stmts : ∀ {parents env stmts}, Spares may parents → parents.Follows env.frames →
    Stmt.ProperAll stmts → (∀ stmt ∈ stmts, stmt.declares = true → may env.frame stmt) →
      Confines may parents (runStmts context fuel env stmts) LinkedFlow

end

section
variable {may : FrameId → Stmt → Prop} {context : Context} {fuel : Nat} {parents : Parents}
  {env : Env}

theorem linkedFlow_completed : LinkedFlow parents .completed := nofun

/-- A linked value that is returned is linked. -/
theorem linkedFlow_returned {value : Value} (given : LinkedValue parents value) :
    LinkedFlow parents (.returned value) := by
  rintro _ ⟨⟩
  exact given

section
variable (parts : ConfinesAll may context fuel) (spares : Spares may parents)
include parts spares

/-- One more unit of fuel keeps the bindings of an expression confined. -/
theorem expr_confines (expr : Expr) (follows : parents.Follows env.frames) :
    Confines may parents (evalExpr context (fuel + 1) env expr) LinkedValue := by
  cases expr with
  | literal span value =>
      refine .pure (linkedValue_of_not_closure ?_)
      cases value <;> exact nofun
  | «variable» target => exact read_confines
  | assign span target value =>
      rw [evalExpr]
      apply (parts.expr value spares follows).bind
      intro new later grown given
      exact (assign_confines given).bind fun _ _ further _ => .pure (given.later further)
  | group span inner => exact parts.expr inner spares follows
  | unary span op operand =>
      rw [evalExpr]
      exact (parts.expr operand spares follows).bind fun _ _ _ _ => applyUnary_confines
  | binary span op left right =>
      rw [evalExpr]
      apply (parts.expr left spares follows).bind
      intro _ later grown _
      exact (parts.expr right (spares.later grown) (follows_later follows grown)).bind
        fun _ _ _ _ => applyBinary_confines
  | logical span op left right =>
      rw [evalExpr]
      apply (parts.expr left spares follows).bind
      intro value later grown given
      split
      next => exact .pure given
      next => exact parts.expr right (spares.later grown) (follows_later follows grown)
  | call span paren callee arguments =>
      rw [evalExpr]
      apply (parts.expr callee spares follows).bind
      intro function later grown given
      split
      next =>
        apply (parts.exprs arguments (spares.later grown) (follows_later follows grown)).bind
        intro values last further passed
        exact parts.call paren (spares.later (grown.trans further)) (given.later further) passed
      next => exact .throw _

/-- One more unit of fuel keeps the bindings of several expressions confined. -/
theorem exprs_confines (exprs : List Expr) (follows : parents.Follows env.frames) :
    Confines may parents (evalExprs context (fuel + 1) env exprs) fun later values =>
      ∀ value ∈ values, LinkedValue later value := by
  cases exprs with
  | nil => exact .pure nofun
  | cons expr rest =>
      rw [evalExprs]
      apply (parts.expr expr spares follows).bind
      intro value later grown given
      apply (parts.exprs rest (spares.later grown) (follows_later follows grown)).bind
      intro values last further passed
      exact .pure (List.forall_mem_cons.2 ⟨given.later further, passed⟩)

theorem option_confines (option : Option Expr) (follows : parents.Follows env.frames) :
    Confines may parents (evalOption context (fuel + 1) env option) LinkedValue := by
  cases option with
  | none => exact .pure linkedValue_nil
  | some expr => exact parts.expr expr spares follows

/-- The body of a closure runs in a new frame. -/
theorem call_confines {callee : Value} {given : List Value} (span : Span)
    (linked : LinkedValue parents callee) (passed : ∀ value ∈ given, LinkedValue parents value) :
    Confines may parents (call context (fuel + 1) callee given span) LinkedValue := by
  cases callee with
  | nil | bool | number | string => exact .throw _
  | native provided =>
      cases provided
      exact checkArity_confines.bind fun _ _ _ _ => readClock_confines
  | closure closure =>
      rw [call]
      apply checkArity_confines.bind
      intro _ later grown _
      have stands := linked.later grown rfl
      apply (enter_confines stands fun value among => (passed value among).later grown).bind
      intro inner last further entered
      have spared (stmt : Stmt) : may inner.frame stmt :=
        spares.later grown inner.frame stmt entered.2
      apply (parts.stmts (spares.later (grown.trans further)) entered.1 stands.proper
        fun stmt _ _ => spared stmt).bind
      intro flow final _ given
      cases flow with
      | completed => exact .pure linkedValue_nil
      | returned value => exact .pure (given rfl)

/-- A branch confines its bindings whichever way it takes. -/
theorem branch_confines {span : Span} {condition : Expr} {consequent : Stmt}
    {alternative : Option Stmt} (follows : parents.Follows env.frames)
    (proper : (Stmt.branch span condition consequent alternative).Proper) :
    Confines may parents
      (runStmt context (fuel + 1) env (.branch span condition consequent alternative))
      LinkedFlow := by
  have quiet {stmt : Stmt} (silent : stmt.declares = false) :
      stmt.declares = true → may env.frame stmt := fun declares => by
    rw [silent] at declares
    cases declares
  rw [runStmt_branch]
  apply (parts.expr condition spares follows).bind
  intro _ later grown _
  have spared := spares.later grown
  have followed := follows_later follows grown
  cases alternative with
  | none =>
      split
      next => exact parts.stmt spared followed proper.2 (quiet proper.1)
      next => exact .pure linkedFlow_completed
  | some other =>
      obtain ⟨⟨silent, first⟩, ⟨mute, second⟩⟩ := proper
      split
      next => exact parts.stmt spared followed first (quiet silent)
      next => exact parts.stmt spared followed second (quiet mute)

/-- One more unit of fuel keeps the bindings of a statement confined. -/
theorem stmt_confines {stmt : Stmt} (follows : parents.Follows env.frames) (proper : stmt.Proper)
    (allowed : stmt.declares = true → may env.frame stmt) :
    Confines may parents (runStmt context (fuel + 1) env stmt) LinkedFlow := by
  cases stmt with
  | expression span value =>
      rw [runStmt, discard_bind]
      exact (parts.expr value spares follows).bind fun _ _ _ _ => .pure linkedFlow_completed
  | print span value =>
      rw [runStmt]
      apply (parts.expr value spares follows).bind
      intro _ _ _ _
      exact printLine_confines.bind fun _ _ _ _ => .pure linkedFlow_completed
  | «variable» span name initializer =>
      rw [runStmt]
      apply (parts.option initializer spares follows).bind
      intro value later grown given
      exact (define_confines given (allowed rfl) ⟨name, rfl, rfl⟩).bind
        fun _ _ _ _ => .pure linkedFlow_completed
  | function span name parameters body =>
      rw [runStmt]
      apply (makeClosure_confines follows proper).bind
      intro value later grown given
      exact (define_confines given (allowed rfl) ⟨name, rfl, rfl⟩).bind
        fun _ _ _ _ => .pure linkedFlow_completed
  | block span body =>
      rw [runStmt]
      apply (nest_confines follows).bind
      intro inner later grown opened
      exact parts.stmts (spares.later grown) opened.1 proper
        fun stmt _ _ => spares inner.frame stmt opened.2
  | branch span condition consequent alternative => exact branch_confines parts spares follows proper
  | loop span condition body => exact parts.loop condition spares follows proper.1 proper.2
  | giveBack span keyword value =>
      rw [runStmt]
      exact (parts.option value spares follows).bind
        fun _ _ _ given => .pure (linkedFlow_returned given)

/-- A loop declares nothing, however often it turns. -/
theorem loop_confines {body : Stmt} (condition : Expr) (follows : parents.Follows env.frames)
    (silent : body.declares = false) (proper : body.Proper) :
    Confines may parents (runLoop context (fuel + 1) env condition body) LinkedFlow := by
  rw [runLoop]
  apply (parts.expr condition spares follows).bind
  intro _ later grown _
  have spared := spares.later grown
  have followed := follows_later follows grown
  split
  next =>
    apply (parts.stmt spared followed proper fun declares => absurd declares (by simp [silent])).bind
    intro flow last further given
    cases flow with
    | completed =>
        exact parts.loop condition (spared.later further) (follows_later followed further) silent
          proper
    | returned value => exact .pure given
  next => exact .pure linkedFlow_completed

/-- One more unit of fuel keeps the bindings of several statements confined. -/
theorem stmts_confines {stmts : List Stmt} (follows : parents.Follows env.frames)
    (proper : Stmt.ProperAll stmts)
    (allowed : ∀ stmt ∈ stmts, stmt.declares = true → may env.frame stmt) :
    Confines may parents (runStmts context (fuel + 1) env stmts) LinkedFlow := by
  cases stmts with
  | nil => exact .pure linkedFlow_completed
  | cons stmt rest =>
      obtain ⟨first, others⟩ := List.forall_mem_cons.1 allowed
      rw [runStmts]
      apply (parts.stmt spares follows proper.1 first).bind
      intro flow later grown given
      cases flow with
      | completed =>
          exact parts.stmts (spares.later grown) (follows_later follows grown) proper.2 others
      | returned value => exact .pure given

end

/-- Every task confines its bindings, whatever its fuel is. -/
theorem confinesAll (may : FrameId → Stmt → Prop) (context : Context) (fuel : Nat) :
    ConfinesAll may context fuel := by
  induction fuel with
  | zero => constructor <;> intros <;> exact .throw _
  | succ fuel parts =>
      exact ⟨fun expr spares => expr_confines parts spares expr,
        fun exprs spares => exprs_confines parts spares exprs,
        fun option spares => option_confines parts spares option,
        fun span spares => call_confines parts spares span,
        fun spares => stmt_confines parts spares,
        fun condition spares => loop_confines parts spares condition,
        fun spares => stmts_confines parts spares⟩

end

/-- The frames that a task sees follow the parents. -/
def Task.Follows (parents : Parents) : Task → Prop
  | .expr env _ | .exprs env _ | .option env _ | .stmt env _ | .loop env _ _
  | .stmts env _ | .access env _ => parents.Follows env.frames
  | .call callee given _ => LinkedValue parents callee ∧ ∀ value ∈ given, LinkedValue parents value

/-- The statements of a task are proper, and they declare names only where they may. -/
def Task.Confined (may : FrameId → Stmt → Prop) : Task → Prop
  | .stmt env given => given.Proper ∧ (given.declares = true → may env.frame given)
  | .loop _ _ body => body.declares = false ∧ body.Proper
  | .stmts env given =>
      Stmt.ProperAll given ∧ ∀ inner ∈ given, inner.declares = true → may env.frame inner
  | .expr .. | .exprs .. | .option .. | .call .. | .access .. => True

/-- A task follows the parents when frames are added. -/
theorem Task.Follows.later {parents later : Parents} {task : Task}
    (follows : task.Follows parents) (grown : parents <+: later) : task.Follows later := by
  cases task with
  | call callee given span =>
      exact ⟨follows.1.later grown, fun value among => (follows.2 value among).later grown⟩
  | expr | exprs | option | stmt | loop | stmts | access => exact follows_later follows grown

section
variable {may : FrameId → Stmt → Prop} {context : Context} {parents : Parents}

/-- A part of some work sees frames that follow the parents, and declares names only where the
whole may. -/
theorem Part.confined {moment part : Moment} (leads : Part context moment part)
    (spares : Spares may parents) (linked : LinkedStore parents moment.state.store)
    (follows : moment.task.Follows parents) (confined : moment.task.Confined may) :
    ∃ later, Grown may parents moment.state.store later part.state.store ∧
      part.task.Follows later ∧ part.task.Confined may := by
  have all (fuel : Nat) : ConfinesAll may context fuel := confinesAll may context fuel
  have quiet {frame : FrameId} {stmt : Stmt} (silent : stmt.declares = false) :
      stmt.declares = true → may frame stmt := fun declares => by
    rw [silent] at declares
    cases declares
  cases leads with
  | «variable» | assignValue | group | unary | binaryLeft | logicalLeft | callee | first | some
  | expression | print | initializer | condition | giveBack | test =>
      exact ⟨parents, .refl linked, follows, trivial⟩
  | loop => exact ⟨parents, .refl linked, follows, confined.1⟩
  | head => exact ⟨parents, .refl linked, follows, confined.1.1, confined.2 _ List.mem_cons_self⟩
  | assign valued | binaryRight valued | logicalRight valued | arguments valued | rest valued =>
      obtain ⟨later, grown, -⟩ := ((all _).expr _ spares follows).of_gives linked valued
      exact ⟨later, grown, follows_later follows grown.older, trivial⟩
  | call first _ passed =>
      obtain ⟨later, grown, function⟩ := ((all _).expr _ spares follows).of_gives linked first
      obtain ⟨last, further, values⟩ := ((all _).exprs _ (spares.later grown.older)
        (follows_later follows grown.older)).of_gives grown.linked passed
      exact ⟨last, grown.trans further, ⟨function.later further.older, values⟩, trivial⟩
  | body _ entered =>
      have closure := follows.1 rfl
      obtain ⟨later, grown, chain, fresh⟩ :=
        (enter_confines closure follows.2).of_gives linked entered
      exact ⟨later, grown, chain, closure.proper, fun stmt _ _ => spares _ stmt fresh⟩
  | block opened =>
      obtain ⟨later, grown, chain, fresh⟩ := (nest_confines follows).of_gives linked opened
      exact ⟨later, grown, chain, confined.1, fun stmt _ _ => spares _ stmt fresh⟩
  | @consequent _ _ _ _ _ alternative _ _ _ first =>
      obtain ⟨later, grown, -⟩ := ((all _).expr _ spares follows).of_gives linked first
      have proper := confined.1
      cases alternative with
      | none => exact ⟨later, grown, follows_later follows grown.older, proper.2, quiet proper.1⟩
      | some =>
          exact ⟨later, grown, follows_later follows grown.older, proper.1.2, quiet proper.1.1⟩
  | alternative first =>
      obtain ⟨later, grown, -⟩ := ((all _).expr _ spares follows).of_gives linked first
      have proper := confined.1
      exact ⟨later, grown, follows_later follows grown.older, proper.2.2, quiet proper.2.1⟩
  | turn first =>
      obtain ⟨later, grown, -⟩ := ((all _).expr _ spares follows).of_gives linked first
      exact ⟨later, grown, follows_later follows grown.older, confined.2, quiet confined.1⟩
  | again first _ turned =>
      obtain ⟨later, grown, -⟩ := ((all _).expr _ spares follows).of_gives linked first
      obtain ⟨last, further, -⟩ := ((all _).stmt (spares.later grown.older)
        (follows_later follows grown.older) confined.2 (quiet confined.1)).of_gives grown.linked
          turned
      exact ⟨last, grown.trans further,
        follows_later (follows_later follows grown.older) further.older, confined⟩
  | tail first =>
      obtain ⟨proper, allowed⟩ := confined
      obtain ⟨own, others⟩ := List.forall_mem_cons.1 allowed
      obtain ⟨later, grown, -⟩ :=
        ((all _).stmt spares follows proper.1 own).of_gives linked first
      exact ⟨later, grown, follows_later follows grown.older, proper.2, others⟩

/-- All frames that are seen on a way follow the parents at its end. -/
theorem Way.confined {start moment : Moment} {above : List Moment}
    (way : Way context start (moment :: above)) (spares : Spares may parents)
    (linked : LinkedStore parents start.state.store) (follows : start.task.Follows parents)
    (confined : start.task.Confined may) :
    ∃ later, Grown may parents start.state.store later moment.state.store ∧
      (∀ passed ∈ moment :: above, passed.task.Follows later) ∧ moment.task.Confined may := by
  generalize whole : moment :: above = moments at way
  induction way generalizing moment above with
  | start =>
      cases whole
      exact ⟨parents, .refl linked, List.forall_mem_singleton.2 follows, confined⟩
  | part _ leads ih =>
      cases whole
      obtain ⟨middle, grown, seen, allowed⟩ := ih rfl
      obtain ⟨later, further, sees, may⟩ := leads.confined (spares.later grown.older) grown.linked
        (seen _ List.mem_cons_self) allowed
      refine ⟨later, grown.trans further, List.forall_mem_cons.2 ⟨sees, ?_⟩, may⟩
      exact fun passed among => (seen passed among).later further.older

end

/-- Every frame of a store has a parent or is known to have none, and all chains that some moments
and the closures in the store see follow the parents. -/
structure Charts (parents : Parents) (store : Store Value) (moments : List Moment) : Prop where
  size : parents.length = store.frames.size
  seen : ∀ moment ∈ moments, moment.task.Follows parents
  stored : ∀ ⦃frame : FrameId⦄ ⦃name : String⦄ ⦃closure : Closure⦄,
    store.read? frame name = some (.closure closure) → parents.Follows closure.env.frames

/-- Work at the end of a way keeps the parents and the names of all frames, whichever way it ends,
and the frames that were there gain no other names than some. -/
def KeepsFrames {α : Type} (moments : List Moment) (before : State)
    (ended : EStateM.Result Halt State α) (values : α → List Value)
    (gained : FrameId → String → Prop) : Prop :=
  ∃ parents later : Parents, Charts parents before.store moments ∧
    Charts later (lastState ended).store moments ∧ parents <+: later ∧
    (∀ result after, ended = .ok result after →
      ∀ value ∈ values result, LinkedValue later value) ∧
    Keeps before.store (lastState ended).store ∧
    ∀ frame < before.store.frames.size, ∀ name,
      ((lastState ended).store.read? frame name).isSome →
        (before.store.read? frame name).isSome ∨ gained frame name

/-- The value that a flow gives back. -/
def Flow.values : Flow → List Value
  | .completed => []
  | .returned value => [value]

section
variable {context : Context} {parents : Parents} {store : Store Value} {moments : List Moment}

/-- The parents of a linked store chart it. -/
theorem charts_of_linked (linked : LinkedStore parents store)
    (seen : ∀ moment ∈ moments, moment.task.Follows parents) : Charts parents store moments :=
  ⟨linked.size, seen, fun _ _ _ found => (linked.values found rfl).follows⟩

/-- Work that declares names only where it may keeps all frames. -/
theorem Confines.keepsFrames {α : Type} {may : FrameId → Stmt → Prop} {compute : Eval α}
    {fits : Parents → α → Prop} {values : α → List Value} {gained : FrameId → String → Prop}
    {state : State} (confines : Confines may parents compute fits)
    (linked : LinkedStore parents state.store)
    (seen : ∀ moment ∈ moments, moment.task.Follows parents)
    (fitting : ∀ later result, fits later result → ∀ value ∈ values result, LinkedValue later value)
    (only : ∀ frame < parents.length, ∀ stmt name, may frame stmt → Declares stmt name →
      gained frame name) :
    KeepsFrames moments state (compute state) values gained := by
  have grows : ∃ later, Grown may parents state.store later (lastState (compute state)).store ∧
      ∀ result after, compute state = .ok result after → fits later result := by
    cases ended : compute state with
    | ok value after =>
        obtain ⟨later, grown, given⟩ := confines.of_gives linked ended
        refine ⟨later, grown, fun result last same => ?_⟩
        cases same
        exact given
    | error halt after =>
        obtain ⟨later, grown⟩ := confines.of_error linked ended
        exact ⟨later, grown, nofun⟩
  obtain ⟨later, grown, given⟩ := grows
  refine ⟨parents, later, charts_of_linked linked seen, charts_of_linked grown.linked ?_,
    grown.older, fun result after same => fitting later result (given result after same),
    grown.keeps, fun frame inside name found => ?_⟩
  · exact fun moment among => (seen moment among).later grown.older
  · rw [← linked.size] at inside
    rcases grown.gains inside found with known | ⟨stmt, allowed, declares⟩
    · exact .inl known
    · exact .inr (only frame inside stmt name allowed declares)

end

/-- A run confines bindings to the frames of their declarations. -/
structure ConfinesBindings (context : Context) (start : Moment) (program : Program) : Prop where
  /-- A statement, whichever way it ends, keeps all frames, and the frame that it runs in gains at
  most the name that it declares. -/
  statement : ∀ ⦃fuel env stmt state above⦄,
    Way context start (⟨fuel, .stmt env stmt, state⟩ :: above) →
      KeepsFrames (⟨fuel, .stmt env stmt, state⟩ :: above) state
        (runStmt context fuel env stmt state) Flow.values
        fun frame name => frame = env.frame ∧ Declares stmt name
  /-- An expression gives no frame a new name. -/
  expression : ∀ ⦃fuel env expr state above⦄,
    Way context start (⟨fuel, .expr env expr, state⟩ :: above) →
      KeepsFrames (⟨fuel, .expr env expr, state⟩ :: above) state
        (evalExpr context fuel env expr state) (fun value => [value]) fun _ _ => False
  /-- A call gives no frame a new name that was there before it. -/
  called : ∀ ⦃fuel callee given span state above⦄,
    Way context start (⟨fuel, .call callee given span, state⟩ :: above) →
      KeepsFrames (⟨fuel, .call callee given span, state⟩ :: above) state
        (call context fuel callee given span state) (fun value => [value]) fun _ _ => False
  /-- A statement that declares a name in the global frame is one of the top level. -/
  topLevel : ∀ ⦃fuel env stmt state⦄, Reaches context start ⟨fuel, .stmt env stmt, state⟩ →
    env.frame = context.globals.frame → stmt.declares = true → stmt ∈ program
  /-- The global names are those of the native functions and of the top-level declarations. -/
  globals : ∀ ⦃moment⦄, Reaches context start moment → ∀ name,
    (moment.state.store.read? context.globals.frame name).isSome →
      (∃ native ∈ Native.all, native.name = name) ∨ ∃ stmt ∈ program, Declares stmt name

/-- In the global frame, only the statements of a program may declare names. -/
def MayBeGlobal (context : Context) (program : Program) (frame : FrameId) (stmt : Stmt) : Prop :=
  frame = context.globals.frame → stmt ∈ program

section
variable {context : Context} {program : Program} {fuel : Nat} {state : State} {parents : Parents}
  (linked : LinkedStore parents state.store) (follows : parents.Follows context.globals.frames)
  (proper : Stmt.ProperAll program)
include linked follows proper

/-- A way that starts with a program ends at a moment that sees linked frames, with work that may
do what is needed. -/
theorem Way.seen {may : FrameId → Stmt → Prop} {moment : Moment} {above : List Moment}
    (way : Way context ⟨fuel, .stmts context.globals program, state⟩ (moment :: above))
    (spares : Spares may parents)
    (allowed : ∀ stmt ∈ program, stmt.declares = true → may context.globals.frame stmt) :
    ∃ later, Grown may parents state.store later moment.state.store ∧
      (∀ passed ∈ moment :: above, passed.task.Follows later) ∧ moment.task.Confined may :=
  way.confined spares linked follows ⟨proper, allowed⟩

/-- A program of proper statements confines its bindings. -/
theorem confinesBindings
    (named : ∀ name, (state.store.read? context.globals.frame name).isSome →
      ∃ native ∈ Native.all, native.name = name) :
    ConfinesBindings context ⟨fuel, .stmts context.globals program, state⟩ program := by
  have anywhere {parents : Parents} : Spares (fun _ _ => True) parents := fun _ _ _ => trivial
  have outside : Spares (MayBeGlobal context program) parents := fun frame stmt beyond same =>
    absurd (follows.present _ List.mem_cons_self) (Nat.not_lt.2 (same ▸ beyond))
  have own : ∀ stmt ∈ program, stmt.declares = true →
      MayBeGlobal context program context.globals.frame stmt := fun _ among _ _ => among
  -- What a task at the end of a way may do in the frames that are there.
  have beyond {later : Parents} {may : FrameId → Stmt → Prop} :
      Spares (fun frame stmt => later.length ≤ frame ∨ may frame stmt) later :=
    fun _ _ fresh => .inl fresh
  refine ⟨fun left env stmt now above way => ?_, fun left env expr now above way => ?_,
    fun left callee given span now above way => ?_,
    fun left env stmt now reached atTop declares => ?_, fun moment reached name found => ?_⟩
  · obtain ⟨later, grown, seen, ⟨inner, -⟩⟩ :=
      way.seen linked follows proper anywhere fun _ _ _ => trivial
    refine ((confinesAll (fun frame other => later.length ≤ frame ∨
      frame = env.frame ∧ other = stmt) context left).stmt beyond
        (seen _ List.mem_cons_self) inner fun _ => .inr ⟨rfl, rfl⟩).keepsFrames grown.linked seen
          (fun last flow given value among => ?_) fun frame inside other name allowed named => ?_
    · cases flow with
      | completed => cases among
      | returned result =>
          cases List.mem_singleton.1 among
          exact given rfl
    · rcases allowed with fresh | ⟨same, rfl⟩
      · exact absurd inside (Nat.not_lt.2 fresh)
      · exact ⟨same, named⟩
  · obtain ⟨later, grown, seen, -⟩ := way.seen linked follows proper anywhere fun _ _ _ => trivial
    refine ((confinesAll (fun frame _ => later.length ≤ frame ∨ False) context left).expr expr
      beyond (seen _ List.mem_cons_self)).keepsFrames grown.linked seen
        (fun last result given value among => ?_) fun frame inside other name allowed _ => ?_
    · cases List.mem_singleton.1 among
      exact given
    · exact allowed.elim (fun fresh => absurd inside (Nat.not_lt.2 fresh)) id
  · obtain ⟨later, grown, seen, -⟩ := way.seen linked follows proper anywhere fun _ _ _ => trivial
    have passed := seen _ List.mem_cons_self
    refine ((confinesAll (fun frame _ => later.length ≤ frame ∨ False) context left).call span
      beyond passed.1 passed.2).keepsFrames grown.linked seen
        (fun last result given value among => ?_) fun frame inside other name allowed _ => ?_
    · cases List.mem_singleton.1 among
      exact given
    · exact allowed.elim (fun fresh => absurd inside (Nat.not_lt.2 fresh)) id
  · obtain ⟨above, way⟩ := exists_way context reached
    obtain ⟨later, -, -, ⟨-, allowed⟩⟩ := way.seen linked follows proper outside own
    exact allowed declares atTop
  · obtain ⟨above, way⟩ := exists_way context reached
    obtain ⟨later, grown, -⟩ := way.seen linked follows proper outside own
    rcases grown.gains (follows.present _ List.mem_cons_self) found with before | ⟨stmt, allowed, new⟩
    · exact .inl (named name before)
    · exact .inr ⟨stmt, allowed rfl, new⟩

end

end Evaluation

open Evaluation

/-- The names that are bound before a program runs are those of the native functions. -/
theorem Interpreter.new_named (clock : Nat → Float) (output : Sink) {frame : FrameId}
    {name : String} (found : ((new clock output).state.store.read? frame name).isSome) :
    ∃ native ∈ Native.all, native.name = name := by
  have store : (new clock output).state.store = (Store.empty.push).write 0 "clock" (.native .clock) :=
    rfl
  rw [store, Store.read?_write _ _ _ _ _ _ (by decide), Store.read?_push] at found
  split at found
  next both => exact ⟨.clock, List.mem_cons_self, both.2⟩
  next => cases found

/-- In every run of a text without syntax errors, executing a statement leaks no bindings. -/
theorem run_confinesBindings {text : String} (clean : (parse text).errors = []) (fuel : Nat)
    (clock : Nat → Float) (output : Sink) :
    ConfinesBindings (Interpreter.loaded clock output (parse text).program).context
      ((Interpreter.loaded clock output (parse text).program).start (parse text).program fuel)
      (parse text).program := by
  have forms := (Parser.forms_of_clean clean).2
  have linked : LinkedStore [none]
      (Interpreter.loaded clock output (parse text).program).state.store := by
    refine ⟨rfl, fun frame name value found => ?_⟩
    cases Interpreter.new_read? clock output found
    exact linkedValue_of_not_closure nofun
  exact confinesBindings linked (.last rfl) forms.proper
    fun name found => Interpreter.new_named clock output found

/-- A run in which a closure outlives its scope and assigns a variable there. -/
theorem run_confinesBindings_closure :
    (parse counterText).errors = [] ∧
      ConfinesBindings
        (Interpreter.loaded (fun _ => 0) .unlimited (parse counterText).program).context
        ((Interpreter.loaded (fun _ => 0) .unlimited (parse counterText).program).start
          (parse counterText).program 100)
        (parse counterText).program :=
  ⟨by decide +kernel, run_confinesBindings (by decide +kernel) 100 (fun _ => 0) .unlimited⟩

end Lox
