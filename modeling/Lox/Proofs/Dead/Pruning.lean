import Lox.Proofs.Label.Renumbering
import Lox.Proofs.Scope.Occurrences
import Lox.Proofs.Scope.Table

namespace Lox

/-- A statement that gives back a value is one itself, whatever it contains. -/
def Stmt.givesBack : Stmt → Bool
  | .giveBack .. => true
  | .expression .. | .print .. | .variable .. | .function .. | .block .. | .branch .. | .loop .. =>
      false

mutual

/-- The lists in a statement end with the first statement that gives back a value. -/
def Stmt.pruned : Stmt → Stmt
  | .function span name parameters body => .function span name parameters (Stmt.prunedAll body)
  | .block span body => .block span (Stmt.prunedAll body)
  | .branch span condition consequent none => .branch span condition consequent.pruned none
  | .branch span condition consequent (some alternative) =>
      .branch span condition consequent.pruned (some alternative.pruned)
  | .loop span condition body => .loop span condition body.pruned
  | .expression span value => .expression span value
  | .print span value => .print span value
  | .variable span name initializer => .variable span name initializer
  | .giveBack span keyword value => .giveBack span keyword value

def Stmt.prunedAll : List Stmt → List Stmt
  | [] => []
  | stmt :: rest => stmt.pruned :: if stmt.givesBack then [] else Stmt.prunedAll rest

end

namespace Stmt

theorem pruned_branch (span : Span) (condition : Expr) (consequent : Stmt)
    (alternative : Option Stmt) :
    (branch span condition consequent alternative).pruned =
      .branch span condition consequent.pruned (alternative.map pruned) := by
  cases alternative <;> rfl

/-- Pruning keeps whether a statement gives back a value. -/
@[simp] theorem givesBack_pruned (stmt : Stmt) : stmt.pruned.givesBack = stmt.givesBack := by
  cases stmt with
  | branch span condition consequent alternative => rw [pruned_branch]; rfl
  | _ => rfl

/-- Statements that are pruned to the same both give back a value, or none does. -/
theorem givesBack_congr {stmt other : Stmt} (same : other.pruned = stmt.pruned) :
    other.givesBack = stmt.givesBack := by
  rw [← givesBack_pruned other, same, givesBack_pruned]

/-- Lists are pruned to the same when their first statements are, and the other ones. -/
theorem prunedAll_cons_congr {stmt other : Stmt} {rest others : List Stmt}
    (first : other.pruned = stmt.pruned) (behind : prunedAll others = prunedAll rest) :
    prunedAll (other :: others) = prunedAll (stmt :: rest) := by
  rw [prunedAll, prunedAll, first, givesBack_congr first, behind]

/-- What stands behind a statement that gives back a value does not matter. -/
theorem prunedAll_of_givesBack {stmt : Stmt} (gives : stmt.givesBack = true)
    (rest others : List Stmt) : prunedAll (stmt :: rest) = prunedAll (stmt :: others) := by
  rw [prunedAll, prunedAll, if_pos gives, if_pos gives]

end Stmt

namespace Relabeling

variable (relabeling : Relabeling)

/-- Labels do not matter to whether a statement gives back a value. -/
@[simp] theorem stmt_givesBack (stmt : Stmt) :
    (relabeling.stmt stmt).givesBack = stmt.givesBack := by
  cases stmt with
  | branch span condition consequent alternative => rw [stmt_branch]; rfl
  | _ => rfl

mutual

/-- New labels do not matter for what is taken away. -/
theorem stmt_pruned : ∀ stmt : Stmt,
    relabeling.stmt stmt.pruned = (relabeling.stmt stmt).pruned
  | .expression _ _ | .print _ _ | .variable _ _ _ | .giveBack _ _ _ => rfl
  | .function _ _ _ body => congrArg (Stmt.function _ _ _) (stmts_pruned body)
  | .block _ body => congrArg (Stmt.block _) (stmts_pruned body)
  | .branch _ _ consequent none => congrArg (Stmt.branch _ _ · none) (stmt_pruned consequent)
  | .branch _ _ consequent (some alternative) =>
      congrArg₂ (Stmt.branch _ _ · <| some ·) (stmt_pruned consequent) (stmt_pruned alternative)
  | .loop _ _ body => congrArg (Stmt.loop _ _) (stmt_pruned body)

/-- Statements may be pruned before or after they get other labels. -/
theorem stmts_pruned : ∀ stmts : List Stmt,
    relabeling.stmts (Stmt.prunedAll stmts) = Stmt.prunedAll (relabeling.stmts stmts)
  | [] => rfl
  | stmt :: rest => by
      rw [Stmt.prunedAll, stmts, stmts, Stmt.prunedAll, stmt_pruned stmt, stmt_givesBack]
      split
      next => rfl
      next => exact congrArg (List.cons _) (stmts_pruned rest)

end

end Relabeling

mutual

/-- No occurrence gets another number. -/
theorem Stmt.pruned_ids : ∀ stmt : Stmt, stmt.pruned.ids.Sublist stmt.ids
  | .expression _ _ | .print _ _ | .variable _ _ _ | .giveBack _ _ _ => List.Sublist.refl _
  | .function _ _ _ body | .block _ body => Stmt.prunedAll_ids body
  | .branch _ condition consequent none =>
      (List.Sublist.refl condition.ids).append consequent.pruned_ids
  | .branch _ condition consequent (some alternative) =>
      (List.Sublist.refl condition.ids).append (consequent.pruned_ids.append alternative.pruned_ids)
  | .loop _ condition body => (List.Sublist.refl condition.ids).append body.pruned_ids

/-- Pruned statements have some of the occurrences, in the same order. -/
theorem Stmt.prunedAll_ids : ∀ stmts : List Stmt,
    (Stmt.idsAll (Stmt.prunedAll stmts)).Sublist (Stmt.idsAll stmts)
  | [] => List.Sublist.refl _
  | stmt :: rest => by
      rw [Stmt.prunedAll]
      refine stmt.pruned_ids.append ?_
      split
      next => exact List.nil_sublist _
      next => exact Stmt.prunedAll_ids rest

end

namespace Resolution

/-- The same scopes are open behind a statement. -/
theorem scopesAfter_pruned (scopes : List Scope) :
    ∀ stmt : Stmt, scopesAfter scopes stmt.pruned = scopesAfter scopes stmt
  | .expression _ _ | .print _ _ | .variable _ _ _ | .giveBack _ _ _ | .function _ _ _ _
  | .block _ _ => rfl
  | .branch _ _ consequent none => scopesAfter_pruned scopes consequent
  | .branch _ _ consequent (some alternative) => by
      rw [Stmt.pruned, scopesAfter, scopesAfter, scopesAfter_pruned scopes consequent,
        scopesAfter_pruned _ alternative]
  | .loop _ _ body => scopesAfter_pruned scopes body

mutual

/-- What is left is visited while the same scopes are open. -/
theorem visitStmt_pruned (scopes : List Scope) (inFunction : Bool) :
    ∀ stmt : Stmt, (visitStmt scopes inFunction stmt.pruned).Sublist
      (visitStmt scopes inFunction stmt)
  | .expression _ _ | .print _ _ | .variable _ _ _ | .giveBack _ _ _ => List.Sublist.refl _
  | .function _ _ _ body =>
      ((List.Sublist.refl _).append (visitStmts_pruned _ true body)).cons_cons _
  | .block _ body => visitStmts_pruned _ inFunction body
  | .branch _ condition consequent none =>
      (List.Sublist.refl _).append (visitStmt_pruned scopes inFunction consequent)
  | .branch _ condition consequent (some alternative) => by
      rw [Stmt.pruned, visitStmt, visitStmt, scopesAfter_pruned]
      exact (List.Sublist.refl _).append ((visitStmt_pruned scopes inFunction consequent).append
        (visitStmt_pruned _ inFunction alternative))
  | .loop _ condition body =>
      (List.Sublist.refl _).append (visitStmt_pruned scopes inFunction body)

/-- The visits of pruned statements are among those of the whole ones. -/
theorem visitStmts_pruned (scopes : List Scope) (inFunction : Bool) :
    ∀ stmts : List Stmt, (visitStmts scopes inFunction (Stmt.prunedAll stmts)).Sublist
      (visitStmts scopes inFunction stmts)
  | [] => List.Sublist.refl _
  | stmt :: rest => by
      rw [Stmt.prunedAll, visitStmts, visitStmts, scopesAfter_pruned]
      refine (visitStmt_pruned scopes inFunction stmt).append ?_
      split
      next => exact List.nil_sublist _
      next => exact visitStmts_pruned _ inFunction rest

end

/-- An occurrence that is left keeps its distance. -/
theorem table_pruned {program : Program} (distinct : (idsOf (visitProgram program)).Nodup)
    {target : Occurrence} (among : target ∈ Stmt.targetsAll (Stmt.prunedAll program)) :
    (resolve (Stmt.prunedAll program)).table[target.id]? = (resolve program).table[target.id]? := by
  have kept := visitStmts_pruned [] false program
  obtain ⟨scopes, visited⟩ := visit_of_targetStmts [] false _ among
  rw [table_agrees (distinct.sublist (kept.filterMap Visit.id?)) visited,
    table_agrees distinct (kept.subset visited)]

end Resolution

end Lox
