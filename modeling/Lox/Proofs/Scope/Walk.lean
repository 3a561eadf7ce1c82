import Lox.Resolution

namespace Lox.Resolution

/-- The innermost scope declares a name, and the initializer of the name has not been passed. -/
def initializing (scopes : List Scope) (name : String) : Bool :=
  match scopes with
  | [] => false
  | scope :: _ => scope.value? name = some false

/-- The innermost scope declares a name. -/
def declared (scopes : List Scope) (name : String) : Bool :=
  match scopes with
  | [] => false
  | scope :: _ => scope.binds name

/-- The distance that an occurrence of a name has under open scopes. -/
def distanceIn? (scopes : List Scope) (name : String) : Option Nat :=
  let skipped := if initializing scopes name then 1 else 0
  ((scopes.drop skipped).findIdx? fun scope => scope.binds name).map (· + skipped)

/-- The innermost scope gets a name. -/
def put (scopes : List Scope) (name : String) (passed : Bool) : List Scope :=
  match scopes with
  | [] => []
  | scope :: outer => Bindings.put scope name passed :: outer

/-- The scopes behind the declaration of a name without an initializer. -/
def introduced (scopes : List Scope) (name : String) : List Scope :=
  put (put scopes name false) name true

/-- A resolution comes to an occurrence or a declaration while some scopes are open, or to a
statement that gives back a value. -/
inductive Visit where
  | occurrence (target : Occurrence) (scopes : List Scope)
  | declaration (name : Name) (scopes : List Scope)
  | giveBack (keyword : Span) (inFunction : Bool)

namespace Visit

/-- The number of the occurrence that is visited. -/
def id? : Visit → Option Nat
  | .occurrence target _ => some target.id
  | .declaration .. | .giveBack .. => none

/-- The distance that a visit finds, with the number of its occurrence. -/
def record? : Visit → Option (Nat × Nat)
  | .occurrence target scopes => (distanceIn? scopes target.name).map fun distance =>
      (target.id, distance)
  | .declaration .. | .giveBack .. => none

/-- The error that a visit finds. -/
def error? : Visit → Option (Located Error)
  | .occurrence target scopes =>
      if initializing scopes target.name && (distanceIn? scopes target.name).isNone then
        some ⟨.ownInitializer target.name, target.span⟩
      else none
  | .declaration name scopes =>
      if declared scopes name.item then some ⟨.alreadyDefined name.item, name.span⟩ else none
  | .giveBack keyword inFunction =>
      if inFunction then none else some ⟨.returnOutsideFunction, keyword⟩

/-- A declaration is right when its scope does not have the name yet. -/
theorem error?_declaration {name : Name} {scopes : List Scope} :
    (declaration name scopes).error? = none ↔ declared scopes name.item = false := by
  simp [error?]

/-- What a visit finds is wrong before the program runs. -/
theorem error?_static {visit : Visit} {error : Located Error} (found : visit.error? = some error) :
    error.item.phase = .static := by
  cases visit <;> (
    simp only [error?] at found
    split at found <;> cases found
    rfl)

end Visit

mutual

/-- The visits of an expression. -/
def visitExpr (scopes : List Scope) : Expr → List Visit
  | .literal _ _ => []
  | .variable target => [.occurrence target scopes]
  | .assign _ target value => visitExpr scopes value ++ [.occurrence target scopes]
  | .group _ inner => visitExpr scopes inner
  | .unary _ _ operand => visitExpr scopes operand
  | .binary _ _ left right => visitExpr scopes left ++ visitExpr scopes right
  | .logical _ _ left right => visitExpr scopes left ++ visitExpr scopes right
  | .call _ _ callee given => visitExpr scopes callee ++ visitExprs scopes given

def visitExprs (scopes : List Scope) : List Expr → List Visit
  | [] => []
  | expr :: rest => visitExpr scopes expr ++ visitExprs scopes rest

end

def visitOption (scopes : List Scope) : Option Expr → List Visit
  | none => []
  | some expr => visitExpr scopes expr

/-- The visits of the parameters of a function. -/
def visitParameters (scopes : List Scope) : List Name → List Visit
  | [] => []
  | name :: rest => .declaration name scopes :: visitParameters (introduced scopes name.item) rest

/-- The scopes that are open in the body of a function. -/
def bodyScopes (scopes : List Scope) (parameters : List String) : List Scope :=
  parameters.foldl introduced ([] :: scopes)

/-- The scopes that are open behind a statement. -/
def scopesAfter (scopes : List Scope) : Stmt → List Scope
  | .variable _ name _ => introduced scopes name.item
  | .function _ name _ _ => introduced scopes name.item
  | .branch _ _ consequent none => scopesAfter scopes consequent
  | .branch _ _ consequent (some alternative) =>
      scopesAfter (scopesAfter scopes consequent) alternative
  | .loop _ _ body => scopesAfter scopes body
  | .expression .. | .print .. | .block .. | .giveBack .. => scopes

mutual

/-- The visits of a statement, inside of a function or outside of any. -/
def visitStmt (scopes : List Scope) (inFunction : Bool) : Stmt → List Visit
  | .expression _ value => visitExpr scopes value
  | .print _ value => visitExpr scopes value
  | .variable _ name initializer =>
      .declaration name scopes :: visitOption (put scopes name.item false) initializer
  | .function _ name parameters body =>
      let inner := introduced scopes name.item
      .declaration name scopes ::
        (visitParameters ([] :: inner) parameters ++
          visitStmts (bodyScopes inner (parameters.map Located.item)) true body)
  | .block _ body => visitStmts ([] :: scopes) inFunction body
  | .branch _ condition consequent none =>
      visitExpr scopes condition ++ visitStmt scopes inFunction consequent
  | .branch _ condition consequent (some alternative) =>
      visitExpr scopes condition ++ (visitStmt scopes inFunction consequent ++
        visitStmt (scopesAfter scopes consequent) inFunction alternative)
  | .loop _ condition body => visitExpr scopes condition ++ visitStmt scopes inFunction body
  | .giveBack _ keyword value => .giveBack keyword inFunction :: visitOption scopes value

def visitStmts (scopes : List Scope) (inFunction : Bool) : List Stmt → List Visit
  | [] => []
  | stmt :: rest =>
      visitStmt scopes inFunction stmt ++ visitStmts (scopesAfter scopes stmt) inFunction rest

end

namespace State

/-- What some visits find is noted, and some scopes are open behind them. -/
def note (state : State) (visits : List Visit) (scopes : List Scope) : State :=
  { state with
    scopes
    distances := state.distances ++ (visits.filterMap Visit.record?).toArray
    errors := state.errors ++ (visits.filterMap Visit.error?).toArray }

section
variable (state : State) (visits : List Visit) (scopes : List Scope)

@[simp] theorem note_scopes : (state.note visits scopes).scopes = scopes := rfl

theorem note_nil : state.note [] state.scopes = state := by
  simp [note]

/-- What is noted twice is noted once for both. -/
theorem note_note (others : List Visit) (after : List Scope) :
    (state.note visits scopes).note others after = state.note (visits ++ others) after := by
  simp [note, Array.append_assoc]

end

/-- A reference is noted as a visit of its occurrence. -/
theorem refer_eq (state : State) (target : Occurrence) :
    state.refer target = state.note [.occurrence target state.scopes] state.scopes := by
  have same : state.isInitializing target.name = initializing state.scopes target.name := rfl
  have found : state.distance? (if initializing state.scopes target.name then 1 else 0)
      target.name = distanceIn? state.scopes target.name := rfl
  simp only [refer, same, found, note, List.filterMap_cons, List.filterMap_nil, Visit.record?,
    Visit.error?]
  cases distanceIn? state.scopes target.name with
  | some distance => simp [record]
  | none =>
      cases initializing state.scopes target.name with
      | true => simp [report]
      | false => simp

/-- A declaration is noted as a visit, and its name is not ready. -/
theorem declare_eq (state : State) (name : Name) :
    state.declare name =
      state.note [.declaration name state.scopes] (put state.scopes name.item false) := by
  obtain ⟨scopes, inFunction, distances, errors⟩ := state
  cases scopes with
  | nil => simp [declare, note, Visit.record?, Visit.error?, declared, put]
  | cons scope outer =>
      cases bound : scope.binds name.item with
      | true => simp [declare, note, Visit.record?, Visit.error?, declared, put, bound, report]
      | false => simp [declare, note, Visit.record?, Visit.error?, declared, put, bound]

/-- A definition makes the name ready. -/
theorem define_eq (state : State) (name : Name) :
    state.define name = state.note [] (put state.scopes name.item true) := by
  obtain ⟨scopes, inFunction, distances, errors⟩ := state
  cases scopes <;> simp [define, note, put]

/-- A name that is introduced is declared and made ready. -/
theorem introduce_eq (state : State) (name : Name) :
    state.introduce name =
      state.note [.declaration name state.scopes] (introduced state.scopes name.item) := by
  rw [introduce, define_eq, declare_eq, note_note]
  rfl

theorem openScope_eq (state : State) : state.openScope = state.note [] ([] :: state.scopes) := by
  simp [openScope, note]

theorem closeScope_eq (state : State) : state.closeScope = state.note [] state.scopes.tail := by
  simp [closeScope, note]

end State

mutual

/-- The resolver notes the visits of an expression and leaves the scopes alone. -/
theorem resolveExpr_eq (state : State) :
    ∀ expr, resolveExpr state expr = state.note (visitExpr state.scopes expr) state.scopes
  | .literal _ _ => by rw [resolveExpr, visitExpr, State.note_nil]
  | .variable target => by rw [resolveExpr, visitExpr, State.refer_eq]
  | .assign _ target value => by
      rw [resolveExpr, visitExpr, resolveExpr_eq state value, State.refer_eq, State.note_note,
        State.note_scopes]
  | .group _ inner => by rw [resolveExpr, visitExpr, resolveExpr_eq state inner]
  | .unary _ _ operand => by rw [resolveExpr, visitExpr, resolveExpr_eq state operand]
  | .binary _ _ left right => by
      rw [resolveExpr, visitExpr, resolveExpr_eq state left, resolveExpr_eq _ right,
        State.note_note, State.note_scopes]
  | .logical _ _ left right => by
      rw [resolveExpr, visitExpr, resolveExpr_eq state left, resolveExpr_eq _ right,
        State.note_note, State.note_scopes]
  | .call _ _ callee given => by
      rw [resolveExpr, visitExpr, resolveExpr_eq state callee, resolveExprs_eq _ given,
        State.note_note, State.note_scopes]

/-- The resolver notes the visits of several expressions. -/
theorem resolveExprs_eq (state : State) :
    ∀ exprs, resolveExprs state exprs = state.note (visitExprs state.scopes exprs) state.scopes
  | [] => by rw [resolveExprs, visitExprs, State.note_nil]
  | expr :: rest => by
      rw [resolveExprs, visitExprs, resolveExpr_eq state expr, resolveExprs_eq _ rest,
        State.note_note, State.note_scopes]

end

theorem resolveOption_eq (state : State) (given : Option Expr) :
    resolveOption state given = state.note (visitOption state.scopes given) state.scopes := by
  cases given with
  | none => rw [resolveOption, visitOption, State.note_nil]
  | some expr => rw [resolveOption, visitOption, resolveExpr_eq]

/-- The resolver introduces the parameters one by one. -/
theorem resolveParameters_eq (state : State) (parameters : List Name) :
    parameters.foldl State.introduce state =
      state.note (visitParameters state.scopes parameters)
        ((parameters.map Located.item).foldl introduced state.scopes) := by
  induction parameters generalizing state with
  | nil =>
      rw [visitParameters]
      exact state.note_nil.symm
  | cons name rest ih =>
      rw [List.foldl_cons, ih, State.introduce_eq, visitParameters, State.note_note,
        State.note_scopes]
      rfl

/-- A statement changes no scope but the innermost one. -/
theorem scopesAfter_cons (scope : Scope) (outer : List Scope) :
    ∀ stmt, ∃ inner, scopesAfter (scope :: outer) stmt = inner :: outer
  | .variable _ name _ | .function _ name _ _ => ⟨_, rfl⟩
  | .branch _ _ consequent none => by
      rw [scopesAfter]
      exact scopesAfter_cons scope outer consequent
  | .branch _ _ consequent (some alternative) => by
      obtain ⟨inner, same⟩ := scopesAfter_cons scope outer consequent
      rw [scopesAfter, same]
      exact scopesAfter_cons inner outer alternative
  | .loop _ _ body => by
      rw [scopesAfter]
      exact scopesAfter_cons scope outer body
  | .expression .. | .print .. | .block .. | .giveBack .. => ⟨scope, rfl⟩

/-- The scopes that are open behind some statements. -/
def scopesAfterAll (scopes : List Scope) (stmts : List Stmt) : List Scope :=
  stmts.foldl scopesAfter scopes

/-- Statements change the innermost scope alone. -/
theorem scopesAfterAll_cons (scope : Scope) (outer : List Scope) (stmts : List Stmt) :
    ∃ inner, scopesAfterAll (scope :: outer) stmts = inner :: outer := by
  induction stmts generalizing scope with
  | nil => exact ⟨scope, rfl⟩
  | cons stmt rest ih =>
      obtain ⟨inner, same⟩ := scopesAfter_cons scope outer stmt
      rw [scopesAfterAll, List.foldl_cons, same]
      exact ih inner

theorem bodyScopes_cons (outer : List Scope) (parameters : List String) :
    ∃ scope, bodyScopes outer parameters = scope :: outer := by
  have passes (scope : Scope) : ∃ inner, parameters.foldl introduced (scope :: outer) =
      inner :: outer := by
    induction parameters generalizing scope with
    | nil => exact ⟨scope, rfl⟩
    | cons name rest ih => exact ih _
  exact passes []

mutual

/-- The resolution of a statement notes what its visits find. -/
theorem resolveStmt_eq (state : State) :
    ∀ stmt, resolveStmt state stmt =
      state.note (visitStmt state.scopes state.inFunction stmt) (scopesAfter state.scopes stmt)
  | .expression _ value | .print _ value => by
      rw [resolveStmt, visitStmt, resolveExpr_eq]
      rfl
  | .variable _ name initializer => by
      rw [resolveStmt, resolveOption_eq, State.declare_eq, State.define_eq, State.note_note,
        State.note_note, List.append_nil]
      rfl
  | .function span name parameters body => by
      let within : State := { state with inFunction := true }
      have inside : { (state.introduce name).openScope with inFunction := true } =
          within.note [.declaration name state.scopes]
            ([] :: introduced state.scopes name.item) := by
        rw [State.introduce_eq, State.openScope_eq, State.note_note, List.append_nil]
        rfl
      obtain ⟨scope, opened⟩ := bodyScopes_cons (introduced state.scopes name.item)
        (parameters.map Located.item)
      obtain ⟨inner, same⟩ := scopesAfterAll_cons scope (introduced state.scopes name.item) body
      have closed : (scopesAfterAll (bodyScopes (introduced state.scopes name.item)
          (parameters.map Located.item)) body).tail = introduced state.scopes name.item := by
        rw [opened, same]
        rfl
      simp only [resolveStmt]
      rw [inside, resolveParameters_eq, State.note_note, resolveStmts_eq, State.closeScope_eq,
        State.note_note, State.note_note, State.note_scopes, State.note_scopes, List.append_nil]
      exact congrArg (state.note (visitStmt state.scopes state.inFunction
        (.function span name parameters body))) closed
  | .block _ body => by
      obtain ⟨inner, same⟩ := scopesAfterAll_cons [] state.scopes body
      rw [resolveStmt, resolveStmts_eq, State.openScope_eq, State.closeScope_eq, State.note_note,
        State.note_note, List.append_nil, State.note_scopes, State.note_scopes, same]
      rfl
  | .branch _ condition consequent none => by
      rw [resolveStmt, resolveExpr_eq, resolveStmt_eq _ consequent, State.note_note]
      rfl
  | .branch _ condition consequent (some alternative) => by
      rw [resolveStmt, resolveExpr_eq, resolveStmt_eq _ consequent, resolveStmt_eq _ alternative,
        State.note_note, State.note_note]
      rfl
  | .loop _ condition body => by
      rw [resolveStmt, resolveExpr_eq, resolveStmt_eq _ body, State.note_note]
      rfl
  | .giveBack _ keyword value => by
      have stated : (if state.inFunction then state
          else state.report ⟨.returnOutsideFunction, keyword⟩) =
          state.note [.giveBack keyword state.inFunction] state.scopes := by
        obtain ⟨scopes, inFunction, distances, errors⟩ := state
        simp only [State.note, List.filterMap_cons, List.filterMap_nil, Visit.record?, Visit.error?]
        cases inFunction <;> simp [State.report]
      simp only [resolveStmt]
      rw [stated, resolveOption_eq, State.note_note]
      rfl

/-- The resolver notes the visits of several statements. -/
theorem resolveStmts_eq (state : State) :
    ∀ stmts, resolveStmts state stmts =
      state.note (visitStmts state.scopes state.inFunction stmts)
        (scopesAfterAll state.scopes stmts)
  | [] => by
      rw [resolveStmts, visitStmts]
      exact state.note_nil.symm
  | stmt :: rest => by
      rw [resolveStmts, resolveStmt_eq state stmt, resolveStmts_eq _ rest, State.note_note]
      rfl

end

/-- The visits of a program, which starts without a local scope. -/
def visitProgram (program : Program) : List Visit := visitStmts [] false program

/-- The result of the resolver is read off the visits of the program. -/
theorem resolve_eq (program : Program) :
    resolve program =
      ⟨(visitProgram program).filterMap Visit.record?,
        (visitProgram program).filterMap Visit.error?⟩ := by
  unfold resolve
  rw [resolveStmts_eq]
  simp [State.note, State.initial, visitProgram]

/-- What a resolution finds is wrong before the program runs. -/
theorem resolve_static (program : Program) :
    ∀ error ∈ (resolve program).errors, error.item.phase = .static := by
  rw [resolve_eq]
  intro error found
  obtain ⟨visit, -, same⟩ := List.mem_filterMap.1 found
  exact Visit.error?_static same

end Lox.Resolution
