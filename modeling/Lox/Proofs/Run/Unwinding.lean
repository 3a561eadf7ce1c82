import Lox.Proofs.Run.Agreement
import Lox.Proofs.Run.Returning

namespace Lox

namespace Evaluation

open Lox.Computation Resolution

section
variable (context : Context)

/-- A statement of a list completes, and the rest of the list comes next. -/
inductive Next : Moment → Moment → Prop
  | completed {fuel : Nat} {env : Env} {stmt : Stmt} {rest : List Stmt} {state after : State}
      (first : Gives (runStmt context fuel env stmt) state .completed after) :
      Next ⟨fuel + 1, .stmts env (stmt :: rest), state⟩ ⟨fuel, .stmts env rest, after⟩

/-- The statements of a list complete one after another up to some of them. -/
abbrev Arrives : Moment → Moment → Prop := Relation.ReflTransGen (Next context)

end

section
variable {context : Context} {moment part last : Moment} {fuel : Nat} {env : Env}
  {stmts : List Stmt} {state : State}

/-- At most one moment is next. -/
theorem Next.unique {other : Moment} (next : Next context moment part)
    (again : Next context moment other) : part = other := by
  cases next with
  | completed first =>
      cases again with
      | completed second =>
          cases Eq.trans (Eq.symm first) second
          rfl

/-- What comes later in a list is a part of its end. -/
theorem Arrives.suffix {left : Nat} {inner : Env} {rest : List Stmt} {after : State}
    (arrives : Arrives context ⟨fuel, .stmts env stmts, state⟩ ⟨left, .stmts inner rest, after⟩) :
    rest <:+ stmts := by
  generalize start : Moment.mk fuel (.stmts env stmts) state = first at arrives
  induction arrives using Relation.ReflTransGen.head_induction_on generalizing fuel env stmts state
    with
  | refl =>
      cases start
      exact List.suffix_rfl
  | head next _ ih =>
      cases next with
      | completed =>
          cases start
          exact (ih rfl).trans (List.suffix_cons _ _)

/-- The statements of a list are executed up to each of them, unless one gives back a value or
halts. -/
theorem arrives_or_stops (before rest : List Stmt) :
    (∃ left after, Arrives context ⟨fuel, .stmts env (before ++ rest), state⟩
        ⟨left, .stmts env rest, after⟩) ∨
      (∃ value after, Flows context ⟨fuel, .stmts env (before ++ rest), state⟩
        (.returned value) after) ∨
      ∃ halt after, Halts context ⟨fuel, .stmts env (before ++ rest), state⟩ halt after := by
  induction before generalizing fuel state with
  | nil => exact .inl ⟨fuel, state, .refl⟩
  | cons stmt before ih =>
      cases fuel with
      | zero => exact .inr (.inr ⟨.outOfFuel, state, rfl⟩)
      | succ fuel =>
          cases ended : runStmt context fuel env stmt state with
          | error halt after => exact .inr (.inr ⟨halt, after, (Part.head).halts ended⟩)
          | ok flow middle =>
              cases flow with
              | returned value =>
                  exact .inr (.inl ⟨value, middle, (Part.head).flows trivial ended⟩)
              | completed =>
                  have leads : Part context ⟨fuel + 1, .stmts env (stmt :: (before ++ rest)), state⟩
                      ⟨fuel, .stmts env (before ++ rest), middle⟩ := .tail ended
                  rcases @ih fuel middle with ⟨left, after, arrives⟩ |
                    ⟨value, after, flows⟩ | ⟨halt, after, halted⟩
                  · exact .inl ⟨left, after, .head (.completed ended) arrives⟩
                  · exact .inr (.inl ⟨value, after, leads.flows trivial flows⟩)
                  · exact .inr (.inr ⟨halt, after, leads.halts halted⟩)

/-- A statement inside of a list is inside of one of its statements, and those before it have
completed. -/
theorem exists_arrives {inner : Env} {inside : Stmt} {left : Nat} {after : State}
    (within : Within context ⟨fuel, .stmts env stmts, state⟩ ⟨left, .stmt inner inside, after⟩) :
    ∃ less stmt rest middle,
      Arrives context ⟨fuel, .stmts env stmts, state⟩ ⟨less + 1, .stmts env (stmt :: rest), middle⟩ ∧
        Within context ⟨less, .stmt env stmt, middle⟩ ⟨left, .stmt inner inside, after⟩ := by
  generalize start : Moment.mk fuel (.stmts env stmts) state = first at within
  induction within using Relation.ReflTransGen.head_induction_on generalizing fuel env stmts state
    with
  | refl => cases start
  | head step further ih =>
      subst start
      obtain ⟨leads, -, executes⟩ := step
      cases leads with
      | head => exact ⟨_, _, _, _, .refl, further⟩
      | tail completes =>
          obtain ⟨less, stmt, rest, middle, arrives, within⟩ := ih rfl
          exact ⟨less, stmt, rest, middle, .head (.completed completes) arrives, within⟩

/-- Behind a statement that does not complete, no statement of the list is executed. -/
theorem not_arrives_behind {less : Nat} {stmt : Stmt} {rest others : List Stmt} {middle : State}
    (arrives : Arrives context ⟨fuel, .stmts env stmts, state⟩
      ⟨less + 1, .stmts env (stmt :: rest), middle⟩)
    (stops : ∀ after, ¬ Gives (runStmt context less env stmt) middle .completed after)
    (behind : others <:+ rest) (left : Nat) (after : State) :
    ¬ Arrives context ⟨fuel, .stmts env stmts, state⟩ ⟨left, .stmts env others, after⟩ := by
  intro again
  have shorter : others.length < (stmt :: rest).length :=
    Nat.lt_succ_of_le behind.length_le
  have alone : Relator.RightUnique (Next context) := fun _ _ _ => Next.unique
  rcases Relation.ReflTransGen.total_of_right_unique alone arrives again with further | further
  · rcases Relation.ReflTransGen.cases_head further with same | ⟨next, first, -⟩
    · cases same
      exact Nat.lt_irrefl _ shorter
    · cases first with
      | completed completes => exact stops _ completes
  · exact Nat.not_le.2 shorter (Arrives.suffix further).length_le

end

/-- The visits of what statements execute outside of all functions. -/
def Task.visits (scopes : List Scope) : Task → List Visit
  | .stmt _ given => visitStmt scopes false given
  | .loop _ _ body => visitStmt scopes false body
  | .stmts _ given => visitStmts scopes false given
  | .expr .. | .exprs .. | .option .. | .call .. | .access .. => []

section
variable {context : Context} {moment part : Moment}

/-- A statement is visited where the statements around it are. -/
theorem Part.visits (leads : Part context moment part) (executes : moment.task.Executes)
    (scopes : List Scope) :
    ∃ inner, part.task.visits inner ⊆ moment.task.visits scopes := by
  cases leads with
  | «variable» | assignValue | assign | group | unary | binaryLeft | binaryRight | logicalLeft
  | logicalRight | callee | arguments | call | first | rest | some | body => exact executes.elim
  | expression | print | initializer | condition | giveBack | test =>
      exact ⟨scopes, List.nil_subset _⟩
  | block => exact ⟨[] :: scopes, List.Subset.refl _⟩
  | @consequent _ _ _ _ _ alternative =>
      refine ⟨scopes, fun visit visited => ?_⟩
      cases alternative with
      | none => exact List.mem_append_right _ visited
      | some => exact List.mem_append_right _ (List.mem_append_left _ visited)
  | @alternative _ _ _ _ consequent =>
      exact ⟨scopesAfter scopes consequent, fun visit visited =>
        List.mem_append_right _ (List.mem_append_right _ visited)⟩
  | loop => exact ⟨scopes, List.subset_append_right _ _⟩
  | turn | again => exact ⟨scopes, List.Subset.refl _⟩
  | head => exact ⟨scopes, List.subset_append_left _ _⟩
  | @tail _ _ stmt => exact ⟨scopesAfter scopes stmt, List.subset_append_right _ _⟩

/-- What a part visits is visited by the whole. -/
theorem Within.visits (within : Within context moment part) (scopes : List Scope) :
    ∃ inner, part.task.visits inner ⊆ moment.task.visits scopes := by
  induction within with
  | refl => exact ⟨scopes, List.Subset.refl _⟩
  | tail _ step ih =>
      obtain ⟨middle, earlier⟩ := ih
      obtain ⟨inner, visits⟩ := step.1.visits step.2.1 middle
      exact ⟨inner, fun _ visited => earlier (visits visited)⟩

/-- A return that a program executes outside of all calls is reported by the resolution. -/
theorem reported_of_within {program : Program} {fuel left : Nat} {env inner : Env}
    {state after : State} {span keyword : Span} {given : Option Expr}
    (within : Within context ⟨fuel, .stmts env program, state⟩
      ⟨left, .stmt inner (.giveBack span keyword given), after⟩) :
    ⟨.returnOutsideFunction, keyword⟩ ∈ (resolve program).errors := by
  obtain ⟨scopes, visits⟩ := within.visits []
  rw [resolve_eq]
  exact List.mem_filterMap.2 ⟨.giveBack keyword false, visits List.mem_cons_self, rfl⟩

/-- A return gives back a value, or it halts for lack of fuel or where its expression does. -/
theorem givesBack_or_halts (context : Context) (fuel : Nat) (env : Env) (span keyword : Span)
    (given : Option Expr) (state : State) :
    (∃ value after,
        GivesBack context ⟨fuel, .stmt env (.giveBack span keyword given), state⟩ value after) ∨
      ∃ halt after,
        Halts context ⟨fuel, .stmt env (.giveBack span keyword given), state⟩ halt after ∧
          (halt = .outOfFuel ∨
            ∃ less, Halts context ⟨less, .option env given, state⟩ halt after) := by
  cases ended : runStmt context fuel env (.giveBack span keyword given) state with
  | ok flow after =>
      refine .inl ?_
      cases fuel with
      | zero => cases ended
      | succ fuel =>
          obtain ⟨value, middle, -, same⟩ := (gives_bind.1 (by rwa [runStmt] at ended))
          cases same
          rcases stmt_returns ended with gives | ⟨part, leads, executes, -⟩
          · exact ⟨value, after, gives⟩
          · cases leads
            exact executes.elim
  | error halt after =>
      refine .inr ⟨halt, after, ended, ?_⟩
      cases fuel with
      | zero =>
          cases ended
          exact .inl rfl
      | succ fuel =>
          rw [runStmt] at ended
          rcases bind_eq_error.1 ended with stopped | ⟨_, _, -, same⟩
          · exact .inr ⟨fuel, stopped⟩
          · cases same

end

/-- A value that is given back ends the innermost call around the return, and no other one. -/
structure ReturnsToCall (context : Context) (start : Moment) : Prop where
  /-- The value passes through the statements around the return, in the state in which it is known.
  If there is a call among what is around it, the innermost one has this value, and the run goes on
  in this state. -/
  passes : ∀ ⦃last above value after⦄, Way context start (last :: above) →
    GivesBack context last value after →
      (∀ moment ∈ above, Flows context moment (.returned value) after) ∨
        ∃ inner outer fuel closure given span state,
          above = inner ++ ⟨fuel, .call (.closure closure) given span, state⟩ :: outer ∧
            (∀ moment ∈ inner, Flows context moment (.returned value) after) ∧
            Gives (call context fuel (.closure closure) given span) state value after
  /-- A call has a value exactly if its own body gives it back, or if the body completes and the
  value is `nil`. -/
  calls : ∀ ⦃fuel closure given span state value after⦄,
    Gives (call context (fuel + 1) (.closure closure) given span) state value after ↔
      closure.parameters.length = given.length ∧
        ∃ env entered, Gives (enter closure given) state env entered ∧
          (Flows context ⟨fuel, .stmts env closure.body, entered⟩ .completed after ∧
              value = .nil ∨
            ∃ last, Within context ⟨fuel, .stmts env closure.body, entered⟩ last ∧
              GivesBack context last value after)

/-- A run of a program ends at the first return outside of all functions, and only there or where it
halts it does not execute all top-level statements. -/
structure EndsAtReturn (interpreter : Interpreter) (program : Program) (fuel : Nat) : Prop where
  /-- Without a report of such a return, no value is given back to the top level, and each statement
  there is executed unless the run halts. -/
  executes : (∀ keyword, ⟨.returnOutsideFunction, keyword⟩ ∉ (resolve program).errors) →
    (∀ value after,
        ¬ Flows interpreter.context (interpreter.start program fuel) (.returned value) after) ∧
      ∀ before rest, program = before ++ rest →
        (∃ left state, Arrives interpreter.context (interpreter.start program fuel)
          ⟨left, .stmts interpreter.context.globals rest, state⟩) ∨
        ∃ halt, (interpreter.interpret fuel program).1 = .halted halt
  /-- A return outside of all functions is in a statement of the top level behind which none is
  executed. The run finishes in the state in which the value of the return is known, or it halts
  where the value does. -/
  ends : ∀ ⦃left env span keyword given state⦄,
    Within interpreter.context (interpreter.start program fuel)
        ⟨left, .stmt env (.giveBack span keyword given), state⟩ →
      ⟨.returnOutsideFunction, keyword⟩ ∈ (resolve program).errors ∧
      (∃ less stmt rest middle,
        Arrives interpreter.context (interpreter.start program fuel)
            ⟨less + 1, .stmts interpreter.context.globals (stmt :: rest), middle⟩ ∧
          Within interpreter.context ⟨less, .stmt interpreter.context.globals stmt, middle⟩
            ⟨left, .stmt env (.giveBack span keyword given), state⟩ ∧
          ∀ others, others <:+ rest → ∀ last after,
            ¬ Arrives interpreter.context (interpreter.start program fuel)
              ⟨last, .stmts interpreter.context.globals others, after⟩) ∧
      ((∃ value after,
          GivesBack interpreter.context ⟨left, .stmt env (.giveBack span keyword given), state⟩
            value after ∧
          interpreter.interpret fuel program = (.finished, { interpreter with state := after })) ∨
        ∃ halt after, (halt = .outOfFuel ∨
            ∃ less, Halts interpreter.context ⟨less, .option env given, state⟩ halt after) ∧
          interpreter.interpret fuel program = (.halted halt, { interpreter with state := after }))

/-- Every return unwinds to the innermost call. -/
theorem returnsToCall (context : Context) (start : Moment) : ReturnsToCall context start := by
  refine ⟨fun last above value after way gives => ?_, fun _ _ _ _ _ _ _ => call_gives_iff⟩
  rcases way.innermost gives.executes with outside | ⟨inner, outer, fuel, closure, given, span,
    state, env, entered, split, fits, entering, between, within⟩
  · exact .inl fun moment among => (outside moment among).flows gives.flows
  · refine .inr ⟨inner, outer, fuel + 1, closure, given, span, state, split,
      fun moment among => (between moment among).flows gives.flows, ?_⟩
    exact call_gives_iff.2 ⟨fits, env, entered, entering, .inr ⟨last, within, gives⟩⟩

/-- Every run ends calls at their returns. -/
theorem endsAtReturn (interpreter : Interpreter) (program : Program) (fuel : Nat) :
    EndsAtReturn interpreter program fuel := by
  constructor
  · intro unreported
    have never (value : Value) (after : State) :
        ¬ Flows interpreter.context (interpreter.start program fuel) (.returned value) after := by
      intro flows
      have executes : (interpreter.start program fuel).task.Executes := trivial
      obtain ⟨last, within, gives⟩ := (returned_iff executes).1 flows
      cases gives with
      | bare | valued => exact unreported _ (reported_of_within within)
    refine ⟨never, ?_⟩
    rintro before rest rfl
    rcases arrives_or_stops before rest with arrives | ⟨value, after, flows⟩ | ⟨halt, after, halted⟩
    · exact .inl arrives
    · exact absurd flows (never value after)
    · exact .inr ⟨halt, congrArg Prod.fst (Interpreter.interpret_of_error halted)⟩
  · intro left env span keyword given state within
    obtain ⟨less, stmt, rest, middle, arrives, inside⟩ := exists_arrives within
    have stops (after : State) :
        ¬ Gives (runStmt interpreter.context less interpreter.context.globals stmt) middle
          .completed after := by
      intro completes
      rcases givesBack_or_halts interpreter.context left env span keyword given state with
        ⟨value, last, gives⟩ | ⟨halt, last, halted, -⟩
      · have returned := inside.flows gives.flows
        cases Eq.trans (Eq.symm completes) returned
      · have whole := inside.halts halted
        cases Eq.trans (Eq.symm completes) whole
    refine ⟨reported_of_within within, ⟨less, stmt, rest, middle, arrives, inside,
      fun others behind last after => not_arrives_behind arrives stops behind last after⟩, ?_⟩
    rcases givesBack_or_halts interpreter.context left env span keyword given state with
      ⟨value, last, gives⟩ | ⟨halt, last, halted, cause⟩
    · have ended : runStmts interpreter.context fuel interpreter.context.globals program
          interpreter.state = .ok (.returned value) last := within.flows gives.flows
      exact .inl ⟨value, last, gives, Interpreter.interpret_of_ok ended⟩
    · exact .inr ⟨halt, last, cause, Interpreter.interpret_of_error (within.halts halted)⟩

end Evaluation

open Evaluation

/-- In every run of a text without syntax errors, a return ends exactly its own call, and outside of
all functions it ends the run. -/
theorem run_endsAtReturn {text : String} (clean : (parse text).errors = []) (fuel : Nat)
    (clock : Nat → Float) (output : Sink) :
    let program := (parse text).program
    let interpreter := Interpreter.loaded clock output program
    let ran := interpreter.interpret fuel program
    run fuel clock output text =
        ⟨(resolve program).errors ++ ran.1.error?.toList, ran.2.output, ran.1⟩ ∧
      ReturnsToCall interpreter.context (interpreter.start program fuel) ∧
      EndsAtReturn interpreter program fuel :=
  ⟨run_of_clean clean fuel clock output, returnsToCall _ _, endsAtReturn _ _ _⟩

/-- A return out of a loop in a function, and one outside of all functions. -/
def searchText : String :=
  "fun search(n) \x7b while (true) \x7b if (n) return n; n = true; \x7d \x7d " ++
    "print search(false); \x7b return; \x7d print 1;"

theorem run_endsAtReturn_search :
    (parse searchText).errors = [] ∧
      let program := (parse searchText).program
      let interpreter := Interpreter.loaded (fun _ => 0) .unlimited program
      let ran := interpreter.interpret 100 program
      run 100 (fun _ => 0) .unlimited searchText =
          ⟨(resolve program).errors ++ ran.1.error?.toList, ran.2.output, ran.1⟩ ∧
        ReturnsToCall interpreter.context (interpreter.start program 100) ∧
        EndsAtReturn interpreter program 100 :=
  ⟨by decide +kernel, run_endsAtReturn (by decide +kernel) 100 (fun _ => 0) .unlimited⟩

end Lox
