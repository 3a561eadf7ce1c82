import Lox.Proofs.Run.Confinement
import Lox.Proofs.Run.Plans

namespace Lox.Evaluation

open Lox.Computation

/-- The execution of a function declaration makes a closure. -/
inductive Makes : Moment → Closure → Prop
  | intro {fuel : Nat} {env : Env} {span : Span} {name : Name} {parameters : List Name}
      {body : List Stmt} {state : State} :
      Makes ⟨fuel + 1, .stmt env (.function span name parameters body), state⟩
        ⟨state.closures, name.item, parameters.map Located.item, body, env⟩

/-- The values that some work is given. -/
def Task.values : Task → List Value
  | .call callee given _ => callee :: given
  | .expr .. | .exprs .. | .option .. | .stmt .. | .loop .. | .stmts .. | .access .. => []

/-- The values in the result of some work. -/
def Task.given : (task : Task) → task.Result → List Value
  | .expr .., value | .option .., value | .call .., value => [value]
  | .exprs .., values => values
  | .stmt .., flow | .loop .., flow | .stmts .., flow => flow.values
  | .access .., _ => []

section
variable (made : Closure → Prop)

/-- If a value is a closure, it is one of those made. -/
def IsMade (value : Value) : Prop := ∀ closure, value = .closure closure → made closure

/-- All closures of a list are among those made. -/
def OnlyMade (values : List Value) : Prop := ∀ value ∈ values, IsMade made value

/-- All closures in a store are among those made. -/
def StoresMade (store : Store Value) : Prop :=
  ∀ ⦃frame : FrameId⦄ ⦃name : String⦄ ⦃value : Value⦄, store.read? frame name = some value →
    IsMade made value

end

/-- A register has the closures that are known when so many have been counted. -/
structure Register where
  knows : Nat → Closure → Prop
  grows : ∀ ⦃count later : Nat⦄ ⦃closure : Closure⦄, count ≤ later → knows count closure →
    knows later closure

section
variable (register : Register)

/-- From one state to another, closures are only counted upwards, and those that are stored or
given at the end are known then. -/
structure Tracked (before after : State) (values : List Value) : Prop where
  counts : before.closures ≤ after.closures
  stored : StoresMade (register.knows after.closures) after.store
  given : OnlyMade (register.knows after.closures) values

/-- A computation brings in no unknown closures when it starts at some count or later. -/
def Tracks (count : Nat) {α : Type} (compute : Eval α) (values : α → List Value) : Prop :=
  ∀ ⦃state after : State⦄ ⦃result : α⦄, count ≤ state.closures →
    StoresMade (register.knows state.closures) state.store →
      Gives compute state result after → Tracked register state after (values result)

/-- A plan brings in no unknown closures by what it does itself. -/
inductive Plan.Keeps {α : Type} (values : α → List Value) : Plan α → Nat → Prop
  | own {count : Nat} {compute : Eval α} (tracks : Tracks register count compute values) :
      Keeps values (.own compute) count
  | step {count : Nat} {β : Type} {compute : Eval β} {next : β → Plan α}
      (tracks : Tracks register count compute fun _ => [])
      (rest : ∀ result, Keeps values (next result) count) : Keeps values (.step compute next) count
  | part {count : Nat} {task : Task} {next : task.Result → Plan α}
      (inputs : OnlyMade (register.knows count) task.values)
      (rest : ∀ later result, count ≤ later → OnlyMade (register.knows later) (task.given result) →
        Keeps values (next result) later) : Keeps values (.part task next) count

/-- The closures made from a moment on are known when they are counted. -/
def Allows (context : Context) (moment : Moment) : Prop :=
  ∀ ⦃last : Moment⦄ ⦃closure : Closure⦄, Reaches context moment last → Makes last closure →
    register.knows (last.state.closures + 1) closure

end

section
variable {made : Closure → Prop}

theorem onlyMade_nil : OnlyMade made [] := nofun

theorem onlyMade_singleton {value : Value} : OnlyMade made [value] ↔ IsMade made value :=
  List.forall_mem_singleton

/-- Values are made if the first one and the others are. -/
theorem onlyMade_cons {value : Value} {values : List Value} :
    OnlyMade made (value :: values) ↔ IsMade made value ∧ OnlyMade made values :=
  List.forall_mem_cons

/-- A literal is no closure. -/
theorem onlyMade_ofLiteral (value : Literal) : OnlyMade made [.ofLiteral value] :=
  onlyMade_singleton.2 fun closure same => by cases value <;> cases same

namespace StoresMade

variable {store : Store Value}

theorem push (stored : StoresMade made store) : StoresMade made store.push := by
  intro frame name value found
  rw [Store.read?_push] at found
  exact stored found

/-- A value that is made may be written anywhere. -/
theorem write {value : Value} (stored : StoresMade made store) (given : IsMade made value)
    (frame : FrameId) (name : String) : StoresMade made (store.write frame name value) := by
  by_cases present : frame < store.frames.size
  · intro other query result found
    rw [Store.read?_write _ _ _ _ _ _ present] at found
    split at found
    · cases found
      exact given
    · exact stored found
  · rwa [Store.write_of_absent _ _ _ _ present]

end StoresMade

end

section
variable {register : Register} {count : Nat}

/-- Values that are made stay so when the count goes up. -/
theorem OnlyMade.later {later : Nat} {values : List Value}
    (given : OnlyMade (register.knows count) values) (grown : count ≤ later) :
    OnlyMade (register.knows later) values :=
  fun value among closure same => register.grows grown (given value among closure same)

/-- Stored values that are made stay so when the count goes up. -/
theorem StoresMade.later {later : Nat} {store : Store Value}
    (stored : StoresMade (register.knows count) store) (grown : count ≤ later) :
    StoresMade (register.knows later) store :=
  fun _ _ _ found closure same => register.grows grown (stored found closure same)

/-- A state that stores known values is tracked from itself on. -/
theorem Tracked.start {state : State} {values : List Value} (before : count ≤ state.closures)
    (stored : StoresMade (register.knows state.closures) state.store)
    (given : OnlyMade (register.knows count) values) : Tracked register state state values :=
  ⟨Nat.le_refl _, stored, given.later before⟩

/-- States are tracked in steps. -/
theorem Tracked.trans {state middle after : State} {values others : List Value}
    (first : Tracked register state middle values)
    (second : Tracked register middle after others) : Tracked register state after others :=
  ⟨Nat.le_trans first.counts second.counts, second.stored, second.given⟩

namespace Tracks

variable {α β : Type} {compute : Eval α} {next : α → Eval β} {values : α → List Value}
  {others : β → List Value}

theorem pure {value : α} (given : OnlyMade (register.knows count) (values value)) :
    Tracks register count (pure value : Eval α) values := by
  intro state after result before stored ended
  obtain ⟨rfl, rfl⟩ := gives_pure.1 ended
  exact .start before stored given

theorem throw (halt : Halt) : Tracks register count (throw halt : Eval α) values :=
  fun _ _ _ _ _ ended => absurd ended not_gives_throw

theorem bind (first : Tracks register count compute values)
    (rest : ∀ later value, count ≤ later → OnlyMade (register.knows later) (values value) →
      Tracks register later (next value) others) :
    Tracks register count (compute >>= next) others := by
  intro state after result before stored ended
  obtain ⟨value, middle, started, ended⟩ := gives_bind.1 ended
  have tracked := first before stored started
  exact tracked.trans (rest _ value (Nat.le_trans before tracked.counts) tracked.given
    (Nat.le_refl _) tracked.stored ended)

/-- A step that keeps the count of closures and stores no unknown one. -/
theorem modifyGet {change : State → α × State}
    (keeps : ∀ state, count ≤ state.closures →
      StoresMade (register.knows state.closures) state.store →
        Tracked register state (change state).2 (values (change state).1)) :
    Tracks register count (modifyGet change : Eval α) values := by
  intro state after result before stored ended
  rw [Gives, modifyGet_apply] at ended
  cases ended
  exact keeps state before stored

end Tracks

section
variable {context : Context} {env : Env}

theorem applyUnary_tracks {op : Located UnaryOp} {operand : Value} :
    Tracks register count (applyUnary op operand) fun value => [value] := by
  unfold applyUnary
  split
  next value applied =>
    refine .pure (onlyMade_singleton.2 fun closure same => ?_)
    subst same
    unfold ValueIn.applyUnary? at applied
    split at applied <;> cases applied
  next => exact .throw _

theorem applyBinary_tracks {op : Located BinaryOp} {left right : Value} :
    Tracks register count (applyBinary op left right) fun value => [value] := by
  unfold applyBinary
  split
  next value applied =>
    refine .pure (onlyMade_singleton.2 fun closure same => ?_)
    subst same
    unfold ValueIn.applyBinary? at applied
    split at applied <;> cases applied
  next => exact .throw _

/-- A value that is read was known when it was stored. -/
theorem readFrom_tracks {target : Occurrence} {frame : FrameId} :
    Tracks register count (readFrom target frame) fun value => [value] := by
  intro state after value before stored ended
  rw [readFrom, gives_step (get_apply state)] at ended
  cases found : state.store.read? frame target.name with
  | none =>
      simp only [Store.readIn, found] at ended
      exact absurd ended not_gives_throw
  | some given =>
      simp only [Store.readIn, found] at ended
      obtain ⟨rfl, rfl⟩ := gives_pure.1 ended
      exact ⟨Nat.le_refl _, stored, onlyMade_singleton.2 (stored found)⟩

/-- A known value may be assigned. -/
theorem writeTo_tracks {target : Occurrence} {value : Value} {frame : FrameId}
    (given : OnlyMade (register.knows count) [value]) :
    Tracks register count (writeTo target value frame) fun _ => [] :=
  .modifyGet fun _ before stored => ⟨Nat.le_refl _,
    stored.write (onlyMade_singleton.1 (given.later before)) _ _, onlyMade_nil⟩

/-- A known value may be defined. -/
theorem define_tracks {name : String} {value : Value}
    (given : OnlyMade (register.knows count) [value]) :
    Tracks register count (define env name value) fun _ => [] :=
  .modifyGet fun _ before stored => ⟨Nat.le_refl _,
    stored.write (onlyMade_singleton.1 (given.later before)) _ _, onlyMade_nil⟩

theorem nest_tracks : Tracks register count (nest env) fun _ => [] :=
  .modifyGet fun _ _ stored => ⟨Nat.le_refl _, stored.push, onlyMade_nil⟩

theorem readClock_tracks {clock : Nat → Float} :
    Tracks register count (readClock clock : Eval Value) fun value => [value] :=
  .modifyGet fun _ _ stored =>
    ⟨Nat.le_refl _, stored, onlyMade_singleton.2 fun _ same => by cases same⟩

theorem checkArity_tracks {name : String} {expected given : Nat} {span : Span} :
    Tracks register count (checkArity name expected given span) fun _ => [] := by
  unfold checkArity
  split
  next => exact .pure onlyMade_nil
  next => exact .throw _

theorem printLine_tracks {value : Value} {span : Span} :
    Tracks register count (printLine value span) fun _ => [] := by
  have written : Tracks register count (write (value.text ++ "\n")) fun _ => [] :=
    .modifyGet fun _ _ stored => ⟨Nat.le_refl _, stored, onlyMade_nil⟩
  refine written.bind fun later complete _ _ => ?_
  split
  next => exact .pure onlyMade_nil
  next => exact .throw _

/-- A function is entered with arguments that are known. -/
theorem enter_tracks {closure : Closure} {given : List Value}
    (passed : OnlyMade (register.knows count) given) :
    Tracks register count (enter closure given) fun _ => [] := by
  have values : ∀ binding ∈ closure.parameters.zip given,
      OnlyMade (register.knows count) [binding.2] :=
    fun binding among => onlyMade_singleton.2 (passed binding.2 (List.of_mem_zip among).2)
  refine nest_tracks.bind fun later inner grown _ => ?_
  refine Tracks.bind (?_ : Tracks register later _ fun _ => []) fun _ _ _ _ => .pure onlyMade_nil
  generalize closure.parameters.zip given = bindings at values
  induction bindings generalizing later with
  | nil => exact .pure onlyMade_nil
  | cons binding rest ih =>
      obtain ⟨first, others⟩ := List.forall_mem_cons.1 values
      exact (define_tracks (first.later grown)).bind fun last _ further _ =>
        ih last (Nat.le_trans grown further) onlyMade_nil others

theorem locate_tracks {target : Occurrence} :
    Tracks register count (locate context env target) fun _ => [] := by
  intro state after frame before stored ended
  obtain ⟨rfl, -⟩ := locate_eq_ok ended
  exact .start before stored onlyMade_nil

end

section
variable {context : Context} {env : Env}

theorem last_keeps (task : Task) (inputs : OnlyMade (register.knows count) task.values) :
    (Plan.last task).Keeps register task.given count :=
  .part inputs fun _ _ _ given => .own (.pure given)

/-- The plan of an expression keeps the register. -/
theorem expr_keeps (expr : Expr) :
    (exprPlan env expr).Keeps register (fun value => [value]) count := by
  cases expr with
  | literal span value => exact .own (.pure (onlyMade_ofLiteral value))
  | «variable» target => exact .part onlyMade_nil fun _ frame _ _ => .own readFrom_tracks
  | assign span target value =>
      refine .part onlyMade_nil fun _ value _ given => .part onlyMade_nil fun _ frame grown _ => ?_
      exact .own ((writeTo_tracks (given.later grown)).bind fun _ _ further _ =>
        .pure (given.later (Nat.le_trans grown further)))
  | group span inner => exact last_keeps (.expr env inner) onlyMade_nil
  | unary span op operand => exact .part onlyMade_nil fun _ operand _ _ => .own applyUnary_tracks
  | binary span op left right =>
      exact .part onlyMade_nil fun _ left _ _ =>
        .part onlyMade_nil fun _ right _ _ => .own applyBinary_tracks
  | logical span op left right =>
      refine .part onlyMade_nil fun _ left _ given => ?_
      split
      next => exact .own (.pure given)
      next => exact last_keeps (.expr env right) onlyMade_nil
  | call span paren callee given =>
      refine .part onlyMade_nil fun _ callee _ function => ?_
      split
      next =>
        refine .part onlyMade_nil fun _ given grown passed =>
          last_keeps (.call callee given paren) ?_
        exact onlyMade_cons.2 ⟨onlyMade_singleton.1 (function.later grown), passed⟩
      next => exact .own (.throw _)

/-- The plan of a call keeps the register. -/
theorem call_keeps {callee : Value} {given : List Value} {span : Span}
    (inputs : OnlyMade (register.knows count) (callee :: given)) :
    (callPlan context callee given span).Keeps register (fun value => [value]) count := by
  cases callee with
  | nil | bool | number | string => exact .own (.throw _)
  | native provided =>
      cases provided
      exact .step checkArity_tracks fun _ => .own readClock_tracks
  | closure closure =>
      refine .step checkArity_tracks fun _ => .step (enter_tracks (onlyMade_cons.1 inputs).2)
        fun inner => .part onlyMade_nil fun _ flow _ given => .own (.pure ?_)
      cases flow with
      | completed => exact onlyMade_singleton.2 nofun
      | returned value => exact given

/-- Every statement but the declaration of a function brings in no unknown closures by itself. -/
theorem stmt_keeps {stmt : Stmt}
    (makes : ∀ state closure, Makes ⟨1, .stmt env stmt, state⟩ closure →
      register.knows (state.closures + 1) closure) :
    (stmtPlan env stmt).Keeps register Flow.values count := by
  cases stmt with
  | expression span value => exact .part onlyMade_nil fun _ _ _ _ => .own (.pure onlyMade_nil)
  | print span value =>
      exact .part onlyMade_nil fun _ value _ _ =>
        .own (printLine_tracks.bind fun _ _ _ _ => .pure onlyMade_nil)
  | «variable» span name initializer =>
      exact .part onlyMade_nil fun _ value _ given =>
        .own ((define_tracks given).bind fun _ _ _ _ => .pure onlyMade_nil)
  | function span name parameters body =>
      refine .own (Tracks.bind (.modifyGet fun state before stored => ?_) fun _ value _ given =>
        (define_tracks given).bind fun _ _ _ _ => .pure onlyMade_nil)
      refine ⟨Nat.le_succ _, stored.later (Nat.le_succ _), onlyMade_singleton.2 fun _ same => ?_⟩
      cases same
      exact makes state _ .intro
  | block span body =>
      exact .step nest_tracks fun inner => last_keeps (.stmts inner body) onlyMade_nil
  | branch span condition consequent alternative =>
      refine .part onlyMade_nil fun _ value _ _ => ?_
      split
      next => exact last_keeps (.stmt env consequent) onlyMade_nil
      next =>
        split
        next other => exact last_keeps (.stmt env other) onlyMade_nil
        next => exact .own (.pure onlyMade_nil)
  | loop span condition body => exact last_keeps (.loop env condition body) onlyMade_nil
  | giveBack span keyword value =>
      exact .part onlyMade_nil fun _ value _ given => .own (.pure given)

/-- The plan of a loop keeps the register. -/
theorem loop_keeps {condition : Expr} {body : Stmt} :
    (loopPlan env condition body).Keeps register Flow.values count := by
  refine .part onlyMade_nil fun _ value _ _ => ?_
  split
  next =>
    refine .part onlyMade_nil fun _ flow _ given => ?_
    split
    next => exact .own (.pure given)
    next => exact last_keeps (.loop env condition body) onlyMade_nil
  next => exact .own (.pure onlyMade_nil)

/-- The plan of several statements keeps the register. -/
theorem stmts_keeps (stmts : List Stmt) :
    (stmtsPlan env stmts).Keeps register Flow.values count := by
  cases stmts with
  | nil => exact .own (.pure onlyMade_nil)
  | cons stmt rest =>
      refine .part onlyMade_nil fun _ flow _ given => ?_
      split
      next => exact .own (.pure given)
      next => exact last_keeps (.stmts env rest) onlyMade_nil

/-- Work brings in no unknown closures by itself if those that it makes are known. -/
theorem plan_keeps {task : Task} (inputs : OnlyMade (register.knows count) task.values)
    (makes : ∀ state closure, Makes ⟨1, task, state⟩ closure →
      register.knows (state.closures + 1) closure) :
    (task.plan context).Keeps register task.given count := by
  cases task with
  | expr env given => exact expr_keeps given
  | exprs env given =>
      cases given with
      | nil => exact .own (.pure onlyMade_nil)
      | cons expr rest =>
          refine .part onlyMade_nil fun _ value _ first =>
            .part onlyMade_nil fun _ values grown others => .own (.pure ?_)
          exact onlyMade_cons.2 ⟨onlyMade_singleton.1 (first.later grown), others⟩
  | option env given =>
      cases given with
      | none => exact .own (.pure (onlyMade_singleton.2 nofun))
      | some expr => exact last_keeps (.expr env expr) onlyMade_nil
  | call callee given span => exact call_keeps inputs
  | stmt env given => exact stmt_keeps makes
  | loop env condition body => exact loop_keeps
  | stmts env given => exact stmts_keeps given
  | access env target => exact .own locate_tracks

end

end

section
variable (register : Register) (context : Context)

/-- The work at a moment brings in no unknown closures if it starts with none. -/
def TracksAt (moment : Moment) : Prop :=
  OnlyMade (register.knows moment.state.closures) moment.task.values →
    StoresMade (register.knows moment.state.closures) moment.state.store → ∀ ⦃result after⦄,
      Gives (moment.task.perform context moment.fuel) moment.state result after →
        Tracked register moment.state after (moment.task.given result)

end

section
variable {register : Register} {context : Context} {fuel count : Nat} {state : State}

/-- The parts of a plan have the fuel of the plan. -/
theorem Plan.Includes.fuel_eq {α : Type} {plan : Plan α} {part : Moment}
    (included : plan.Includes context fuel state part) : part.fuel = fuel := by
  induction included with
  | step _ _ ih | behind _ _ ih => exact ih
  | here => rfl

namespace Plan.Keeps

variable {α : Type} {plan : Plan α} {values : α → List Value}
  (keeps : plan.Keeps register values count) (before : count ≤ state.closures)
  (parts : ∀ part, plan.Includes context fuel state part → TracksAt register context part)
  (stored : StoresMade (register.knows state.closures) state.store)
include keeps before parts stored

/-- A plan brings in no unknown closures if it does not do so itself and its parts do not. -/
theorem tracked {result : α} {after : State}
    (ended : Gives (plan.run context fuel) state result after) :
    Tracked register state after (values result) := by
  induction keeps generalizing state with
  | own tracks => exact tracks before stored ended
  | step tracks rest ih =>
      obtain ⟨value, middle, first, ended⟩ := gives_bind.1 ended
      have started := tracks before stored first
      exact started.trans (ih value (Nat.le_trans before started.counts)
        (fun part further => parts part (.step first further)) started.stored ended)
  | part inputs rest ih =>
      obtain ⟨value, middle, first, ended⟩ := gives_bind.1 ended
      have started := parts _ .here (inputs.later before) stored first
      exact started.trans (ih _ value (Nat.le_trans before started.counts) started.given
        (Nat.le_refl _) (fun part further => parts part (.behind first further)) started.stored
          ended)

/-- The same holds of all that happens before one of its parts. -/
theorem part_tracked {part : Moment} (included : plan.Includes context fuel state part) :
    Tracked register state part.state part.task.values := by
  induction keeps generalizing state with
  | own => cases included
  | step tracks rest ih =>
      cases included with
      | step first further =>
          have started := tracks before stored first
          exact started.trans (ih _ (Nat.le_trans before started.counts)
            (fun part later => parts part (.step first later)) started.stored further)
  | part inputs rest ih =>
      cases included with
      | here => exact .start before stored inputs
      | behind first further =>
          have started := parts _ .here (inputs.later before) stored first
          exact started.trans (ih _ _ (Nat.le_trans before started.counts) started.given
            (Nat.le_refl _) (fun part later => parts part (.behind first later)) started.stored
              further)

end Plan.Keeps

/-- What a register allows at a moment, it allows at every moment reached from there. -/
theorem Allows.of_reaches {moment last : Moment} (allows : Allows register context moment)
    (reached : Reaches context moment last) : Allows register context last :=
  fun _ _ further makes => allows (reached.trans further) makes

/-- A function declaration makes one closure, or the plan makes none by itself. -/
theorem makes_or_keeps {task : Task} (inputs : OnlyMade (register.knows count) task.values) :
    (∃ env span name parameters body, task = .stmt env (.function span name parameters body)) ∨
      (task.plan context).Keeps register task.given count := by
  by_cases making : ∃ state closure, Makes ⟨1, task, state⟩ closure
  · obtain ⟨state, closure, ⟨⟩⟩ := making
    exact .inl ⟨_, _, _, _, _, rfl⟩
  · exact .inr (plan_keeps inputs fun state closure makes => absurd ⟨_, _, makes⟩ making)

/-- Work brings in the closures that it makes, and no unknown ones. -/
theorem tracksAt {moment : Moment} (allows : Allows register context moment) :
    TracksAt register context moment := by
  obtain ⟨fuel, task, state⟩ := moment
  induction fuel generalizing task state with
  | zero =>
      intro inputs stored result after ended
      cases task with
      | expr | exprs | option | call | stmt | loop | stmts => cases ended
      | access env target => exact locate_tracks (Nat.le_refl _) stored ended
  | succ fuel ih =>
      intro inputs stored result after ended
      -- A declaration makes its closure in this state only, so its plan keeps nothing in general.
      rcases makes_or_keeps inputs with ⟨env, span, name, parameters, body, rfl⟩ | keeps
      · cases ended
        refine ⟨Nat.le_succ _, ?_, onlyMade_nil⟩
        refine (stored.later (Nat.le_succ _)).write (fun other same => ?_) _ _
        cases same
        exact allows .refl .intro
      · refine keeps.tracked (Nat.le_refl _) (fun part included => ?_) stored
          (perform_succ task ▸ ended)
        have leads := part_of_includes included
        obtain ⟨_, inner, now⟩ := part
        cases included.fuel_eq
        exact ih inner now (allows.of_reaches (.single leads))

/-- Before a part of some work, no unknown closures are brought in. -/
theorem Part.tracked {moment part : Moment} (leads : Part context moment part)
    (allows : Allows register context moment)
    (inputs : OnlyMade (register.knows moment.state.closures) moment.task.values)
    (stored : StoresMade (register.knows moment.state.closures) moment.state.store) :
    Tracked register moment.state part.state part.task.values := by
  obtain ⟨fuel, more, included⟩ := leads.includes
  obtain ⟨_, task, state⟩ := moment
  cases more
  rcases makes_or_keeps inputs with ⟨env, span, name, parameters, body, rfl⟩ | keeps
  · cases leads
  · refine keeps.part_tracked (Nat.le_refl _) (fun other among => ?_) stored included
    exact tracksAt (allows.of_reaches (.single (part_of_includes among)))

/-- Nor are they up to any moment that a run goes through. -/
theorem tracked_of_reaches {first last : Moment} (reached : Reaches context first last)
    (allows : Allows register context first)
    (inputs : OnlyMade (register.knows first.state.closures) first.task.values)
    (stored : StoresMade (register.knows first.state.closures) first.state.store) :
    Tracked register first.state last.state last.task.values := by
  induction reached with
  | refl => exact .start (Nat.le_refl _) stored inputs
  | tail reached leads ih =>
      exact ih.trans (leads.tracked (allows.of_reaches reached) ih.given ih.stored)

end

end Lox.Evaluation
