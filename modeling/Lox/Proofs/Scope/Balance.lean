import Lox.Proofs.Layout.Nodes
import Lox.Proofs.Run.StatementSoundness
import Lox.Proofs.Scope.Findings
import Lox.Proofs.Session.Merging

namespace Lox

/-- In a proper node, the statements under an `if` or a loop declare nothing. -/
def Node.Proper : Node → Prop
  | .expr _ => True
  | .stmt given => given.Proper

mutual

/-- There are no statements in an expression. -/
theorem Expr.nodes_proper : ∀ expr : Expr, ∀ node ∈ expr.nodes, node.Proper
  | .literal .. | .variable .. => List.forall_mem_singleton.2 trivial
  | .assign _ _ inner | .group _ inner | .unary _ _ inner =>
      List.forall_mem_cons.2 ⟨trivial, inner.nodes_proper⟩
  | .binary _ _ left right | .logical _ _ left right =>
      List.forall_mem_cons.2 ⟨trivial, List.forall_mem_append.2
        ⟨left.nodes_proper, right.nodes_proper⟩⟩
  | .call _ _ callee given =>
      List.forall_mem_cons.2 ⟨trivial, List.forall_mem_append.2
        ⟨callee.nodes_proper, Expr.nodesAll_proper given⟩⟩

/-- Every node of expressions is proper. -/
theorem Expr.nodesAll_proper : ∀ given : List Expr, ∀ node ∈ Expr.nodesAll given, node.Proper
  | [] => nofun
  | expr :: rest => List.forall_mem_append.2 ⟨expr.nodes_proper, Expr.nodesAll_proper rest⟩

end

theorem Expr.nodesOption_proper :
    ∀ given : Option Expr, ∀ node ∈ Expr.nodesOption given, node.Proper
  | none => nofun
  | some expr => expr.nodes_proper

mutual

/-- All nodes of a proper statement are proper. -/
theorem Stmt.Proper.nodes : ∀ {stmt : Stmt}, stmt.Proper → ∀ node ∈ stmt.nodes, node.Proper
  | .expression _ value, proper | .print _ value, proper =>
      List.forall_mem_cons.2 ⟨proper, value.nodes_proper⟩
  | .variable _ _ given, proper | .giveBack _ _ given, proper =>
      List.forall_mem_cons.2 ⟨proper, Expr.nodesOption_proper given⟩
  | .function .., proper | .block .., proper =>
      List.forall_mem_cons.2 ⟨proper, Stmt.ProperAll.nodes proper⟩
  | .branch _ condition _ none, proper =>
      List.forall_mem_cons.2 ⟨proper, List.forall_mem_append.2
        ⟨condition.nodes_proper, proper.2.nodes⟩⟩
  | .branch _ condition _ (some _), proper =>
      List.forall_mem_cons.2 ⟨proper, List.forall_mem_append.2
        ⟨condition.nodes_proper, List.forall_mem_append.2 ⟨proper.1.2.nodes, proper.2.2.nodes⟩⟩⟩
  | .loop _ condition _, proper =>
      List.forall_mem_cons.2 ⟨proper, List.forall_mem_append.2
        ⟨condition.nodes_proper, proper.2.nodes⟩⟩

/-- Every node of proper statements is proper. -/
theorem Stmt.ProperAll.nodes : ∀ {stmts : List Stmt}, Stmt.ProperAll stmts →
    ∀ node ∈ Stmt.nodesAll stmts, node.Proper
  | [], _ => nofun
  | _ :: _, proper => List.forall_mem_append.2 ⟨proper.1.nodes, ProperAll.nodes proper.2⟩

end

theorem Stmt.targetsAll_append (stmts others : List Stmt) :
    Stmt.targetsAll (stmts ++ others) = Stmt.targetsAll stmts ++ Stmt.targetsAll others := by
  induction stmts with
  | nil => rfl
  | cons stmt rest ih => rw [List.cons_append, targetsAll, targetsAll, ih, List.append_assoc]

namespace Resolution

open Evaluation (Settled settled_scopesAfter)

/-- A scope is closed if one is open. -/
def State.closeScope? (state : State) : Option State :=
  match state.scopes with
  | [] => none
  | _ :: outer => some { state with scopes := outer }

mutual

/-- The resolution of a statement, which has no result if it comes to close a scope while none is
open. -/
def resolveStmt? (state : State) : Stmt → Option State
  | .function _ name parameters body => do
      let inside := { (state.introduce name).openScope with inFunction := true }
      let after ← resolveStmts? (parameters.foldl State.introduce inside) body
      return { ← after.closeScope? with inFunction := state.inFunction }
  | .block _ body => do (← resolveStmts? state.openScope body).closeScope?
  | .branch _ condition consequent none => resolveStmt? (resolveExpr state condition) consequent
  | .branch _ condition consequent (some alternative) => do
      resolveStmt? (← resolveStmt? (resolveExpr state condition) consequent) alternative
  | .loop _ condition body => resolveStmt? (resolveExpr state condition) body
  | stmt@(.expression ..) | stmt@(.print ..) | stmt@(.variable ..) | stmt@(.giveBack ..) =>
      some (resolveStmt state stmt)

def resolveStmts? (state : State) : List Stmt → Option State
  | [] => some state
  | stmt :: rest => do resolveStmts? (← resolveStmt? state stmt) rest

end

section
variable {state : State}

/-- An open scope can be closed. -/
theorem closeScope?_of_cons {scope : Scope} {outer : List Scope}
    (given : state.scopes = scope :: outer) : state.closeScope? = some state.closeScope := by
  rw [State.closeScope?, State.closeScope, given]
  rfl

/-- Behind the statements of a new scope this scope is still open, and the others are as before. -/
theorem resolveStmts_opened {outer : List Scope} {scope : Scope}
    (given : state.scopes = scope :: outer) (stmts : List Stmt) :
    ∃ inner, (resolveStmts state stmts).scopes = inner :: outer := by
  rw [resolveStmts_eq, State.note_scopes, given]
  exact scopesAfterAll_cons scope outer stmts

mutual

/-- Where a scope is closed, one is open. -/
theorem resolveStmt?_eq (state : State) : ∀ stmt,
    resolveStmt? state stmt = some (resolveStmt state stmt)
  | .function _ name parameters body => by
      let inside := { (state.introduce name).openScope with inFunction := true }
      obtain ⟨scope, declared⟩ := bodyScopes_cons (state.introduce name).scopes
        (parameters.map Located.item)
      have given : (parameters.foldl State.introduce inside).scopes =
          scope :: (state.introduce name).scopes := by
        rw [resolveParameters_eq, State.note_scopes]
        exact declared
      obtain ⟨inner, opened⟩ := resolveStmts_opened given body
      rw [resolveStmt?, resolveStmts?_eq _ body]
      change ((resolveStmts (parameters.foldl State.introduce inside) body).closeScope?.bind _) = _
      rw [closeScope?_of_cons opened]
      rfl
  | .block _ body => by
      have outside : state.openScope.scopes = [] :: state.scopes := rfl
      obtain ⟨inner, opened⟩ := resolveStmts_opened outside body
      rw [resolveStmt?, resolveStmts?_eq state.openScope body]
      exact closeScope?_of_cons opened
  | .branch _ condition consequent none => resolveStmt?_eq (resolveExpr state condition) consequent
  | .branch _ condition consequent (some alternative) => by
      rw [resolveStmt?, resolveStmt?_eq _ consequent]
      exact resolveStmt?_eq _ alternative
  | .loop _ condition body => resolveStmt?_eq (resolveExpr state condition) body
  | .expression .. | .print .. | .variable .. | .giveBack .. => rfl

/-- The checks of the walk over statements never fail. -/
theorem resolveStmts?_eq (state : State) : ∀ stmts,
    resolveStmts? state stmts = some (resolveStmts state stmts)
  | [] => rfl
  | stmt :: rest => by
      rw [resolveStmts?, resolveStmt?_eq state stmt]
      exact resolveStmts?_eq _ rest

end

/-- What the resolution of a statement does to the state, apart from what it finds: scopes and the
function around are as before, but for a name that the statement declares in the innermost scope. -/
structure Balanced (before : State) (stmt : Stmt) (after : State) : Prop where
  length : after.scopes.length = before.scopes.length
  outer : after.scopes.tail = before.scopes.tail
  inFunction : after.inFunction = before.inFunction
  gains : ∀ scope ∈ before.scopes.head?, ∀ inner ∈ after.scopes.head?, ∀ name,
    inner.value? name =
      if (∃ declared ∈ stmt.name?, declared.item = name) then some true else scope.value? name
  settled : ∀ scope ∈ after.scopes, Settled scope
  /-- Wherever a scope is closed on the way, one is open. -/
  closes : resolveStmt? before stmt = some after

/-- An introduced name opens no scope. -/
theorem introduced_length (scopes : List Scope) (name : String) :
    (introduced scopes name).length = scopes.length := by
  cases scopes <;> rfl

/-- An introduced name changes the innermost scope alone. -/
theorem introduced_tail (scopes : List Scope) (name : String) :
    (introduced scopes name).tail = scopes.tail := by
  cases scopes <;> rfl

/-- A scope that gets a name knows it as passed, and the other names as before. -/
theorem introduced_value? {scopes : List Scope} {scope inner : Scope} (name other : String)
    (before : scope ∈ scopes.head?) (behind : inner ∈ (introduced scopes name).head?) :
    inner.value? other = if name = other then some true else scope.value? other := by
  cases scopes with
  | nil => cases before
  | cons given outer =>
      cases before
      cases behind
      rw [Bindings.value?_put, Bindings.value?_put]
      split <;> rfl

/-- A proper statement leaves as many scopes open as it found. -/
theorem resolveStmt_balanced {stmt : Stmt} (proper : stmt.Proper)
    (settled : ∀ scope ∈ state.scopes, Settled scope) :
    Balanced state stmt (resolveStmt state stmt) := by
  have same : (resolveStmt state stmt).scopes = scopesAfter state.scopes stmt := by
    rw [resolveStmt_eq, State.note_scopes]
  have scopes := same.trans (scopesAfter_of_name? proper state.scopes)
  constructor
  · rw [scopes]
    cases stmt.name? with
    | none => rfl
    | some name => exact introduced_length _ _
  · rw [scopes]
    cases stmt.name? with
    | none => rfl
    | some name => exact introduced_tail _ _
  · rw [resolveStmt_eq]
    rfl
  · rw [scopes]
    intro scope before inner behind name
    cases declares : stmt.name? with
    | none =>
        rw [declares] at behind
        cases Option.mem_unique before behind
        simp
    | some declared =>
        rw [declares] at behind
        simpa using introduced_value? declared.item name before behind
  · rw [same]
    exact settled_scopesAfter settled stmt
  · exact resolveStmt?_eq state stmt

end

/-- Outside of all scopes nothing is declared. -/
theorem scopesAfter_nil : ∀ stmt, scopesAfter [] stmt = []
  | .branch _ _ consequent none => by rw [scopesAfter, scopesAfter_nil consequent]
  | .branch _ _ consequent (some alternative) => by
      rw [scopesAfter, scopesAfter_nil consequent, scopesAfter_nil alternative]
  | .loop _ _ body => by rw [scopesAfter, scopesAfter_nil body]
  | .variable .. | .function .. | .expression .. | .print .. | .block .. | .giveBack .. => rfl

section
variable (first second : Program)

/-- A program is visited in parts. -/
theorem visitProgram_append :
    visitProgram (first ++ second) = visitProgram first ++ visitProgram second := by
  induction first with
  | nil => rfl
  | cons stmt rest ih =>
      simp only [visitProgram] at ih ⊢
      rw [List.cons_append, visitStmts, visitStmts, scopesAfter_nil, ih, List.append_assoc]

/-- The parts of a program are resolved one by one. -/
theorem resolve_append :
    resolve (first ++ second) =
      ⟨(resolve first).distances ++ (resolve second).distances,
        (resolve first).errors ++ (resolve second).errors⟩ := by
  simp only [resolve_eq, visitProgram_append, List.filterMap_append]

/-- An occurrence is looked up in the part of the program that has it. -/
theorem table_append (id : Nat) :
    (resolve (first ++ second)).table[id]? =
      ((resolve second).table[id]?).or ((resolve first).table[id]?) := by
  rw [resolve_append, Resolution.table, merge_append, merge_getElem?]
  rfl

end

/-- Programs whose occurrences have different numbers have no number in common in their tables. -/
theorem tables_apart {first second : Program} (distinct : (Stmt.idsAll (first ++ second)).Nodup)
    (id : Nat) : (resolve first).table[id]? = none ∨ (resolve second).table[id]? = none := by
  cases early : (resolve first).table[id]? with
  | none => exact .inl rfl
  | some distance =>
      cases late : (resolve second).table[id]? with
      | none => exact .inr rfl
      | some other =>
          obtain ⟨target, occurs, rfl⟩ := target_of_table early
          obtain ⟨twin, occursToo, same⟩ := target_of_table late
          rw [Stmt.idsAll_eq, Stmt.targetsAll_append, List.map_append] at distinct
          obtain ⟨-, -, apart⟩ := List.nodup_append.1 distinct
          exact absurd same.symm (apart _ (List.mem_map_of_mem occurs) _
            (List.mem_map_of_mem occursToo))

/-- The scopes of a program are balanced at each of its statements, and the program is resolved like
the parts that it is joined of. -/
structure ResolvesInParts (program : Program) : Prop where
  statements : ∀ stmt, .stmt stmt ∈ Stmt.nodesAll program → ∀ state : State,
    (∀ scope ∈ state.scopes, Settled scope) → Balanced state stmt (resolveStmt state stmt)
  closes : resolveStmts? .initial program = some (resolveStmts .initial program)
  errors : ∀ first second, program = first ++ second →
    (resolve program).errors = (resolve first).errors ++ (resolve second).errors
  /-- The table is the union of two tables that have no number in common. -/
  table : ∀ first second, program = first ++ second → ∀ id : Nat,
    ((resolve first).table[id]? = none ∨ (resolve second).table[id]? = none) ∧
      (resolve program).table[id]? =
        ((resolve first).table[id]?).or ((resolve second).table[id]?)

/-- Every text is resolved statement by statement, and each one leaves the scopes balanced. -/
theorem resolve_inParts (text : String) : ResolvesInParts (parse text).program where
  statements stmt among _ settled :=
    resolveStmt_balanced (Stmt.ProperAll.nodes (Parser.parse_ordered text).2 _ among) settled
  closes := resolveStmts?_eq _ _
  errors first second split := by rw [split, resolve_append]
  table first second split id := by
    have distinct := Parser.parse_distinct text
    rw [split] at distinct
    have apart := tables_apart distinct id
    refine ⟨apart, ?_⟩
    rw [split, table_append]
    rcases apart with none | none <;> simp [none]

end Resolution

end Lox
