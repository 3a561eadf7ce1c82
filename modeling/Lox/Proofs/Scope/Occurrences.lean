import Lox.Proofs.Scope.Walk

namespace Lox

mutual

/-- The occurrences in an expression. -/
def Expr.targets : Expr → List Occurrence
  | .literal _ _ => []
  | .variable target => [target]
  | .assign _ target value => target :: value.targets
  | .group _ inner => inner.targets
  | .unary _ _ operand => operand.targets
  | .binary _ _ left right => left.targets ++ right.targets
  | .logical _ _ left right => left.targets ++ right.targets
  | .call _ _ callee given => callee.targets ++ Expr.targetsAll given

def Expr.targetsAll : List Expr → List Occurrence
  | [] => []
  | expr :: rest => expr.targets ++ Expr.targetsAll rest

end

def Expr.targetsOption (given : Option Expr) : List Occurrence := (given.map Expr.targets).getD []

mutual

/-- The occurrences in a statement. -/
def Stmt.targets : Stmt → List Occurrence
  | .expression _ value => value.targets
  | .print _ value => value.targets
  | .variable _ _ initializer => Expr.targetsOption initializer
  | .function _ _ _ body => Stmt.targetsAll body
  | .block _ body => Stmt.targetsAll body
  | .branch _ condition consequent none => condition.targets ++ consequent.targets
  | .branch _ condition consequent (some alternative) =>
      condition.targets ++ (consequent.targets ++ alternative.targets)
  | .loop _ condition body => condition.targets ++ body.targets
  | .giveBack _ _ value => Expr.targetsOption value

def Stmt.targetsAll : List Stmt → List Occurrence
  | [] => []
  | stmt :: rest => stmt.targets ++ Stmt.targetsAll rest

end

namespace Resolution

variable {target : Occurrence} {scopes : List Scope}

mutual

/-- A visited occurrence is in the expression. -/
theorem target_of_visitExpr {around : List Scope} :
    ∀ expr, .occurrence target scopes ∈ visitExpr around expr → target ∈ expr.targets
  | .literal _ _, visited => by cases visited
  | .variable other, visited => by
      cases List.mem_singleton.1 visited
      exact List.mem_singleton_self target
  | .assign _ other value, visited => by
      rcases List.mem_append.1 visited with inside | last
      · exact List.mem_cons_of_mem _ (target_of_visitExpr value inside)
      · cases List.mem_singleton.1 last
        exact List.mem_cons_self
  | .group _ inner, visited => target_of_visitExpr inner visited
  | .unary _ _ operand, visited => target_of_visitExpr operand visited
  | .binary _ _ left right, visited | .logical _ _ left right, visited => by
      rcases List.mem_append.1 visited with inside | inside
      · exact List.mem_append_left _ (target_of_visitExpr left inside)
      · exact List.mem_append_right _ (target_of_visitExpr right inside)
  | .call _ _ callee given, visited => by
      rcases List.mem_append.1 visited with inside | inside
      · exact List.mem_append_left _ (target_of_visitExpr callee inside)
      · exact List.mem_append_right _ (target_of_visitExprs given inside)

theorem target_of_visitExprs {around : List Scope} :
    ∀ exprs, .occurrence target scopes ∈ visitExprs around exprs → target ∈ Expr.targetsAll exprs
  | [], visited => by cases visited
  | expr :: rest, visited => by
      rcases List.mem_append.1 visited with inside | inside
      · exact List.mem_append_left _ (target_of_visitExpr expr inside)
      · exact List.mem_append_right _ (target_of_visitExprs rest inside)

end

theorem target_of_visitOption {around : List Scope} {given : Option Expr}
    (visited : .occurrence target scopes ∈ visitOption around given) :
    target ∈ Expr.targetsOption given := by
  cases given with
  | none => cases visited
  | some expr => exact target_of_visitExpr expr visited

/-- Parameters are declared, and nothing occurs in them. -/
theorem notMem_visitParameters {around : List Scope} {parameters : List Name} :
    .occurrence target scopes ∉ visitParameters around parameters := by
  induction parameters generalizing around with
  | nil => exact nofun
  | cons name rest ih =>
      intro visited
      rcases List.mem_cons.1 visited with same | inside
      · cases same
      · exact ih inside

mutual

/-- A visited occurrence is in the statement. -/
theorem target_of_visitStmt {around : List Scope} {inFunction : Bool} :
    ∀ stmt, .occurrence target scopes ∈ visitStmt around inFunction stmt → target ∈ stmt.targets
  | .expression _ value, visited | .print _ value, visited => target_of_visitExpr value visited
  | .variable _ _ initializer, visited => by
      rcases List.mem_cons.1 visited with same | inside
      · cases same
      · exact target_of_visitOption inside
  | .function _ _ _ body, visited => by
      rcases List.mem_cons.1 visited with same | inside
      · cases same
      · rcases List.mem_append.1 inside with declared | inside
        · exact absurd declared notMem_visitParameters
        · exact target_of_visitStmts body inside
  | .block _ body, visited => target_of_visitStmts body visited
  | .branch _ condition consequent none, visited => by
      rcases List.mem_append.1 visited with inside | inside
      · exact List.mem_append_left _ (target_of_visitExpr condition inside)
      · exact List.mem_append_right _ (target_of_visitStmt consequent inside)
  | .branch _ condition consequent (some alternative), visited => by
      rcases List.mem_append.1 visited with inside | rest
      · exact List.mem_append_left _ (target_of_visitExpr condition inside)
      · apply List.mem_append_right
        rcases List.mem_append.1 rest with inside | inside
        · exact List.mem_append_left _ (target_of_visitStmt consequent inside)
        · exact List.mem_append_right _ (target_of_visitStmt alternative inside)
  | .loop _ condition body, visited => by
      rcases List.mem_append.1 visited with inside | inside
      · exact List.mem_append_left _ (target_of_visitExpr condition inside)
      · exact List.mem_append_right _ (target_of_visitStmt body inside)
  | .giveBack _ _ value, visited => by
      rcases List.mem_cons.1 visited with same | inside
      · cases same
      · exact target_of_visitOption inside

/-- A visited occurrence is in one of the statements. -/
theorem target_of_visitStmts {around : List Scope} {inFunction : Bool} :
    ∀ stmts, .occurrence target scopes ∈ visitStmts around inFunction stmts →
      target ∈ Stmt.targetsAll stmts
  | [], visited => by cases visited
  | stmt :: rest, visited => by
      rcases List.mem_append.1 visited with inside | inside
      · exact List.mem_append_left _ (target_of_visitStmt stmt inside)
      · exact List.mem_append_right _ (target_of_visitStmts rest inside)

end

mutual

/-- Every occurrence in an expression is visited. -/
theorem visit_of_targetExpr (around : List Scope) :
    ∀ expr, target ∈ expr.targets → .occurrence target around ∈ visitExpr around expr
  | .literal _ _, among => by cases among
  | .variable other, among => by
      cases List.mem_singleton.1 among
      exact List.mem_singleton_self _
  | .assign _ other value, among => by
      rcases List.mem_cons.1 among with rfl | inside
      · exact List.mem_append_right _ (List.mem_singleton_self _)
      · exact List.mem_append_left _ (visit_of_targetExpr around value inside)
  | .group _ inner, among => visit_of_targetExpr around inner among
  | .unary _ _ operand, among => visit_of_targetExpr around operand among
  | .binary _ _ left right, among | .logical _ _ left right, among => by
      rcases List.mem_append.1 among with inside | inside
      · exact List.mem_append_left _ (visit_of_targetExpr around left inside)
      · exact List.mem_append_right _ (visit_of_targetExpr around right inside)
  | .call _ _ callee given, among => by
      rcases List.mem_append.1 among with inside | inside
      · exact List.mem_append_left _ (visit_of_targetExpr around callee inside)
      · exact List.mem_append_right _ (visit_of_targetExprs around given inside)

/-- Every occurrence in expressions is visited. -/
theorem visit_of_targetExprs (around : List Scope) :
    ∀ exprs, target ∈ Expr.targetsAll exprs → .occurrence target around ∈ visitExprs around exprs
  | [], among => by cases among
  | expr :: rest, among => by
      rcases List.mem_append.1 among with inside | inside
      · exact List.mem_append_left _ (visit_of_targetExpr around expr inside)
      · exact List.mem_append_right _ (visit_of_targetExprs around rest inside)

end

theorem visit_of_targetOption (around : List Scope) {given : Option Expr}
    (among : target ∈ Expr.targetsOption given) :
    .occurrence target around ∈ visitOption around given := by
  cases given with
  | none => cases among
  | some expr => exact visit_of_targetExpr around expr among

mutual

/-- Every occurrence in a statement is visited. -/
theorem visit_of_targetStmt (around : List Scope) (inFunction : Bool) :
    ∀ stmt, target ∈ stmt.targets →
      ∃ scopes, .occurrence target scopes ∈ visitStmt around inFunction stmt
  | .expression _ value, among | .print _ value, among =>
      ⟨around, visit_of_targetExpr around value among⟩
  | .variable _ _ initializer, among =>
      ⟨_, List.mem_cons_of_mem _ (visit_of_targetOption _ among)⟩
  | .function _ _ _ body, among => by
      obtain ⟨scopes, visited⟩ := visit_of_targetStmts _ true body among
      exact ⟨scopes, List.mem_cons_of_mem _ (List.mem_append_right _ visited)⟩
  | .block _ body, among => visit_of_targetStmts _ inFunction body among
  | .branch _ condition consequent none, among => by
      rcases List.mem_append.1 among with inside | inside
      · exact ⟨_, List.mem_append_left _ (visit_of_targetExpr around condition inside)⟩
      · obtain ⟨scopes, visited⟩ := visit_of_targetStmt around inFunction consequent inside
        exact ⟨scopes, List.mem_append_right _ visited⟩
  | .branch _ condition consequent (some alternative), among => by
      rcases List.mem_append.1 among with inside | rest
      · exact ⟨_, List.mem_append_left _ (visit_of_targetExpr around condition inside)⟩
      rcases List.mem_append.1 rest with inside | inside
      · obtain ⟨scopes, visited⟩ := visit_of_targetStmt around inFunction consequent inside
        exact ⟨scopes, List.mem_append_right _ (List.mem_append_left _ visited)⟩
      · obtain ⟨scopes, visited⟩ := visit_of_targetStmt _ inFunction alternative inside
        exact ⟨scopes, List.mem_append_right _ (List.mem_append_right _ visited)⟩
  | .loop _ condition body, among => by
      rcases List.mem_append.1 among with inside | inside
      · exact ⟨_, List.mem_append_left _ (visit_of_targetExpr around condition inside)⟩
      · obtain ⟨scopes, visited⟩ := visit_of_targetStmt around inFunction body inside
        exact ⟨scopes, List.mem_append_right _ visited⟩
  | .giveBack _ _ value, among =>
      ⟨around, List.mem_cons_of_mem _ (visit_of_targetOption around among)⟩

/-- Every occurrence in statements is visited. -/
theorem visit_of_targetStmts (around : List Scope) (inFunction : Bool) :
    ∀ stmts, target ∈ Stmt.targetsAll stmts →
      ∃ scopes, .occurrence target scopes ∈ visitStmts around inFunction stmts
  | [], among => by cases among
  | stmt :: rest, among => by
      rcases List.mem_append.1 among with inside | inside
      · obtain ⟨scopes, visited⟩ := visit_of_targetStmt around inFunction stmt inside
        exact ⟨scopes, List.mem_append_left _ visited⟩
      · obtain ⟨scopes, visited⟩ := visit_of_targetStmts _ inFunction rest inside
        exact ⟨scopes, List.mem_append_right _ visited⟩

end

end Resolution

end Lox
