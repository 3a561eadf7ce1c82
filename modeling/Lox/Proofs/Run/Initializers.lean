import Lox.Proofs.Run.Confinement
import Lox.Proofs.Run.Tracing
import Lox.Proofs.Syntax.Identifiers

namespace Lox

namespace Parser

/-- Occurrences at the same place are the same. -/
theorem occurrence_of_span {text : String} {target other : Occurrence}
    (given : target ∈ Stmt.targetsAll (parse text).program)
    (also : other ∈ Stmt.targetsAll (parse text).program) (same : target.span = other.span) :
    target = other := by
  obtain ⟨stmts, last, ended, program, -⟩ := parse_reads text
  obtain ⟨read, path, identified⟩ := (program_walks _ _ _).reaches ended
  rw [show (parse text).program = stmts from congrArg Parse.program program] at given also
  obtain ⟨index, spelled, number, found⟩ := identified target given
  obtain ⟨position, spelledToo, numberToo, foundToo⟩ := identified other also
  have distinct : (read.map Lexeme.span).Nodup :=
    (InOrder.spans_nodup (lexemesOf_inOrder text)).sublist
      ((path.read_sublist.trans List.filter_sublist).map _)
  have spans : (read.map Lexeme.span)[index]? = (read.map Lexeme.span)[position]? := by
    rw [List.getElem?_map, List.getElem?_map, found, foundToo]
    exact congrArg some same
  obtain ⟨inside, -⟩ := List.getElem?_eq_some_iff.1 found
  have place : index = position :=
    (List.getElem?_inj (by rwa [List.length_map]) distinct).1 spans
  subst place
  cases target
  cases other
  cases found.symm.trans foundToo
  rw [← numberToo] at number
  cases number
  rfl

end Parser

namespace Resolution

/-- An occurrence is in the initializer of a local variable with its name, and no scope further
outwards shows the name. -/
def RefersToItself (program : Program) (target : Occurrence) : Prop :=
  ∃ names outer, .occurrence target (names :: outer) (some target.name) ∈ sitesOfProgram program ∧
    ∀ scope ∈ outer, shows scope target.name target.span.start = false

/-- The resolution reports an occurrence in its own initializer. -/
def ReportsItself (program : Program) (target : Occurrence) : Prop :=
  ⟨.ownInitializer target.name, target.span⟩ ∈ (resolve program).errors

/-- Where a read in its own initializer is an error, no outer scope declares the name. -/
theorem ownInitializer_of_site {site : Site} {name : String} {span : Span}
    (found : site.error? = some ⟨.ownInitializer name, span⟩) :
    ∃ target names outer, site = .occurrence target (names :: outer) (some target.name) ∧
      target.name = name ∧ target.span = span ∧
      ∀ scope ∈ outer, shows scope target.name target.span.start = false := by
  cases site with
  | declaration given around =>
      cases around <;> simp only [Site.error?] at found
      · cases found
      · split at found <;> cases found
  | giveBack keyword inFunction =>
      simp only [Site.error?] at found
      split at found <;> cases found
  | occurrence target around initialized =>
      cases around with
      | nil => cases found
      | cons names outer =>
          simp only [Site.error?] at found
          split at found
          next own =>
            cases found
            simp at own
            exact ⟨target, names, outer, by rw [own.1], rfl, rfl, own.2⟩
          next => cases found

/-- An occurrence is reported exactly if it refers to itself. -/
theorem reportsItself_iff {text : String} {target : Occurrence}
    (among : target ∈ Stmt.targetsAll (parse text).program) :
    ReportsItself (parse text).program target ↔ RefersToItself (parse text).program target := by
  rw [ReportsItself, resolve_eq, findings_errors (findings_parse text), List.mem_filterMap]
  constructor
  · rintro ⟨site, given, found⟩
    obtain ⟨other, names, outer, rfl, name, span, hidden⟩ := ownInitializer_of_site found
    have occurs : other ∈ Stmt.targetsAll (parse text).program :=
      (targets_sitesOfAll _).subset (List.mem_filterMap.2 ⟨_, given, rfl⟩)
    obtain rfl := Parser.occurrence_of_span occurs among span
    exact ⟨names, outer, given, hidden⟩
  · rintro ⟨names, outer, given, hidden⟩
    refine ⟨_, given, ?_⟩
    have nowhere : (outer.any fun names => shows names target.name target.span.start) = false :=
      List.any_eq_false.2 fun scope inside => by simp [hidden scope inside]
    simp [Site.error?, nowhere]

/-- An occurrence that refers to itself has no distance. -/
theorem table_of_refersToItself {text : String} {target : Occurrence}
    (itself : RefersToItself (parse text).program target) :
    (resolve (parse text).program).table[target.id]? = none := by
  obtain ⟨names, outer, given, hidden⟩ := itself
  rw [table_of_site given, Site.distance?, List.find?_eq_none]
  intro number _ found
  cases number with
  | zero => simp [Site.finds] at found
  | succ number =>
      rw [Site.finds, List.getElem?_cons_succ, Bool.and_eq_true] at found
      obtain ⟨scope, inside, shown⟩ := (Option.any_eq_true ..).1 found.1
      exact absurd shown (by simp [hidden scope (List.mem_of_getElem? inside)])

end Resolution

namespace Evaluation

open Lox.Computation Resolution

/-- An access finds the global of its name, if there is one. -/
structure FindsGlobal (context : Context) (env : Env) (target : Occurrence) (state : State) :
    Prop where
  read : ∀ value after, Gives (read context env target) state value after ↔
    state.store.read? context.globals.frame target.name = some value ∧ after = state
  assign : ∀ value after, Gives (assign context env target value) state () after ↔
    (state.store.read? context.globals.frame target.name).isSome ∧
      after = { state with store := state.store.write context.globals.frame target.name value }

/-- An access halts since its name is not defined. -/
structure FindsNothing (context : Context) (env : Env) (target : Occurrence) (state : State) :
    Prop where
  read : Evaluation.read context env target state =
    .error (.error ⟨.notDefined target.name, target.span⟩) state
  assign : ∀ value, Evaluation.assign context env target value state =
    .error (.error ⟨.notDefined target.name, target.span⟩) state

section
variable {context : Context} {env : Env} {target : Occurrence} {state : State}
  (missing : context.distances[target.id]? = none) (alone : context.globals.outer = [])
include missing alone

/-- A variable without a distance is found nowhere where no global has its name. -/
theorem findsNothing_of_unbound (env : Env)
    (unbound : state.store.read? context.globals.frame target.name = none) :
    FindsNothing context env target state := by
  have missed := locate_of_global env state missing alone
  rw [unbound] at missed
  exact ⟨read_eq_error.2 missed, fun value => assign_eq_error.2 missed⟩

/-- A variable without a distance is the global of its name. -/
theorem findsGlobal : FindsGlobal context env target state := by
  cases bound : state.store.read? context.globals.frame target.name with
  | none =>
      obtain ⟨reading, assigning⟩ := findsNothing_of_unbound missing alone env bound
      refine ⟨fun value after => ?_, fun value after => ?_⟩
      · rw [Gives, reading]
        simp [bound]
      · rw [Gives, assigning]
        simp [bound]
  | some given =>
      have located := locate_of_global env state missing alone
      rw [bound] at located
      refine ⟨fun value after => ?_, fun value after => ?_⟩
      · rw [Gives, read_of_located located bound, bound]
        simp [eq_comm]
      · rw [Gives, assign_of_located located, bound]
        simp [eq_comm]

end

/-- The reports about occurrences in their own initializers, and what these occurrences find in a
run from some moment on. -/
structure JudgesInitializers (program : Program) (context : Context) (start : Moment) : Prop where
  /-- No occurrence is reported for which a scope further outwards shows the name. -/
  reports : ∀ target ∈ Stmt.targetsAll program,
    ReportsItself program target ↔ RefersToItself program target
  /-- The evaluation of a reported occurrence succeeds exactly if the name is that of a global at
  this moment. -/
  finds : ∀ ⦃fuel env target state⦄, Reaches context start ⟨fuel, .access env target, state⟩ →
    ReportsItself program target → FindsGlobal context env target state
  /-- It never succeeds if no native function has the name and no statement of the top level
  declares it. -/
  misses : ∀ ⦃fuel env target state⦄, Reaches context start ⟨fuel, .access env target, state⟩ →
    ReportsItself program target → (∀ native ∈ Native.all, native.name ≠ target.name) →
      (∀ stmt ∈ program, ¬ Declares stmt target.name) → FindsNothing context env target state

end Evaluation

open Lox.Computation Evaluation Resolution

namespace Interpreter

variable (clock : Nat → Float) (output : Sink) (program : Program)

/-- The frame of the globals has no parent, and no closure is stored before the program runs. -/
theorem loaded_linked : LinkedStore [none] (loaded clock output program).state.store := by
  refine ⟨rfl, fun frame name value found => ?_⟩
  cases new_read? clock output found
  exact linkedValue_of_not_closure nofun

/-- A loaded interpreter stores nothing but the clock. -/
theorem loaded_knownStore (known : Occurrence → Prop) :
    KnownStore known (loaded clock output program).state.store := by
  intro frame name value found
  cases new_read? clock output found
  exact allKnown_nil

end Interpreter

/-- In every run of a text without syntax errors, an occurrence that is reported to be in its own
initializer can only find a global. -/
theorem run_judgesInitializers {text : String} (clean : (parse text).errors = []) (fuel : Nat)
    (clock : Nat → Float) (output : Sink) :
    JudgesInitializers (parse text).program
      (Interpreter.loaded clock output (parse text).program).context
      ((Interpreter.loaded clock output (parse text).program).start (parse text).program fuel) := by
  let interpreter := Interpreter.loaded clock output (parse text).program
  let start := interpreter.start (parse text).program fuel
  have follows : Parents.Follows [none] interpreter.context.globals.frames := .last rfl
  have bindings : ConfinesBindings interpreter.context start (parse text).program :=
    confinesBindings (Interpreter.loaded_linked clock output (parse text).program) follows
      (Parser.forms_of_clean clean).2.proper
      fun name found => Interpreter.new_named clock output found
  have missing ⦃left env target state⦄
      (reached : Reaches interpreter.context start ⟨left, .access env target, state⟩)
      (reported : ReportsItself (parse text).program target) :
      interpreter.context.distances[target.id]? = none := by
    have known : TracedMoment (· ∈ Stmt.targetsAll (parse text).program) start :=
      ⟨fun _ => id, Interpreter.loaded_knownStore clock output (parse text).program _⟩
    have occurs := (traced_of_reaches reached known).task target List.mem_cons_self
    exact table_of_refersToItself ((reportsItself_iff occurs).1 reported)
  refine ⟨fun target => reportsItself_iff, fun left env target state reached reported =>
    findsGlobal (missing reached reported) rfl,
    fun left env target state reached reported foreign undeclared =>
      findsNothing_of_unbound (missing reached reported) rfl env ?_⟩
  rw [Option.eq_none_iff_forall_ne_some]
  intro value found
  rcases bindings.globals reached target.name (found ▸ rfl) with ⟨native, among, named⟩ | declared
  · exact foreign native among named
  · obtain ⟨stmt, among, declares⟩ := declared
    exact undeclared stmt among declares

/-- A local variable whose initializer reads the global of its name. -/
def globalInitializerText : String := "var a = true; \x7b var a = a; print a; \x7d"

theorem run_judgesInitializers_global :
    (parse globalInitializerText).errors = [] ∧
      JudgesInitializers (parse globalInitializerText).program
        (Interpreter.loaded (fun _ => 0) .unlimited (parse globalInitializerText).program).context
        ((Interpreter.loaded (fun _ => 0) .unlimited (parse globalInitializerText).program).start
          (parse globalInitializerText).program 100) :=
  ⟨by decide +kernel, run_judgesInitializers (by decide +kernel) 100 (fun _ => 0) .unlimited⟩

/-- The occurrence in the initializer. -/
def globalInitializerTarget : Occurrence := ⟨0, "a", ⟨24, 25⟩⟩

/-- The tree of the text. -/
def globalInitializerTree : Program :=
  [.variable ⟨0, 13⟩ ⟨"a", ⟨4, 5⟩⟩ (some (.literal ⟨8, 12⟩ (.bool true))),
    .block ⟨14, 37⟩
      [.variable ⟨16, 26⟩ ⟨"a", ⟨20, 21⟩⟩ (some (.variable globalInitializerTarget)),
        .print ⟨27, 35⟩ (.variable ⟨1, "a", ⟨33, 34⟩⟩)]]

theorem parse_globalInitializerText :
    (parse globalInitializerText).program = globalInitializerTree := by
  with_unfolding_all rfl

/-- An occurrence is reported although there is a global that it reads when the program runs. -/
theorem reported_readsGlobal :
    (parse globalInitializerText).errors = [] ∧
      ReportsItself (parse globalInitializerText).program globalInitializerTarget ∧
      let interpreter :=
        Interpreter.loaded (fun _ => 0) .unlimited (parse globalInitializerText).program
      ∃ fuel env state,
        Reaches interpreter.context (interpreter.start (parse globalInitializerText).program 100)
          ⟨fuel, .access env globalInitializerTarget, state⟩ ∧
        Gives (read interpreter.context env globalInitializerTarget) state (.bool true) state := by
  rw [parse_globalInitializerText]
  let interpreter := Interpreter.loaded (fun _ => 0) .unlimited globalInitializerTree
  have reported : ReportsItself globalInitializerTree globalInitializerTarget := by
    unfold ReportsItself
    decide +kernel
  have start : Reaches interpreter.context (interpreter.start globalInitializerTree 100)
    (interpreter.start globalInitializerTree 100) := .refl
  have declared := start.tail (.tail rfl)
  have opened := (declared.tail .head).tail (.block rfl)
  have accessed := (((opened.tail .head).tail .initializer).tail .some).tail .variable
  exact ⟨by decide +kernel, reported, _, _, _, accessed, rfl⟩

end Lox
