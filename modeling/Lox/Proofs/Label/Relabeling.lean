import Mathlib.Logic.Basic
import Lox.Tree

namespace Lox

mutual

/-- All spans in an expression. -/
def Expr.spans : Expr → List Span
  | .literal span _ => [span]
  | .variable target => [target.span]
  | .assign span target value => span :: target.span :: value.spans
  | .group span inner => span :: inner.spans
  | .unary span op operand => span :: op.span :: operand.spans
  | .binary span op left right => span :: op.span :: (left.spans ++ right.spans)
  | .logical span op left right => span :: op.span :: (left.spans ++ right.spans)
  | .call span paren callee given => span :: paren :: (callee.spans ++ Expr.spansAll given)

def Expr.spansAll : List Expr → List Span
  | [] => []
  | expr :: rest => expr.spans ++ Expr.spansAll rest

end

mutual

/-- The numbers of the occurrences in an expression. -/
def Expr.ids : Expr → List Nat
  | .literal _ _ => []
  | .variable target => [target.id]
  | .assign _ target value => target.id :: value.ids
  | .group _ inner => inner.ids
  | .unary _ _ operand => operand.ids
  | .binary _ _ left right => left.ids ++ right.ids
  | .logical _ _ left right => left.ids ++ right.ids
  | .call _ _ callee given => callee.ids ++ Expr.idsAll given

def Expr.idsAll : List Expr → List Nat
  | [] => []
  | expr :: rest => expr.ids ++ Expr.idsAll rest

end

mutual

/-- All spans in a statement. -/
def Stmt.spans : Stmt → List Span
  | .expression span value => span :: value.spans
  | .print span value => span :: value.spans
  | .variable span name initializer =>
      span :: name.span :: (initializer.map Expr.spans).getD []
  | .function span name parameters body =>
      span :: name.span :: (parameters.map Located.span ++ Stmt.spansAll body)
  | .block span body => span :: Stmt.spansAll body
  | .branch span condition consequent none => span :: (condition.spans ++ consequent.spans)
  | .branch span condition consequent (some alternative) =>
      span :: (condition.spans ++ (consequent.spans ++ alternative.spans))
  | .loop span condition body => span :: (condition.spans ++ body.spans)
  | .giveBack span keyword value => span :: keyword :: (value.map Expr.spans).getD []

def Stmt.spansAll : List Stmt → List Span
  | [] => []
  | stmt :: rest => stmt.spans ++ Stmt.spansAll rest

end

mutual

/-- The numbers of the occurrences in a statement. -/
def Stmt.ids : Stmt → List Nat
  | .expression _ value => value.ids
  | .print _ value => value.ids
  | .variable _ _ initializer => (initializer.map Expr.ids).getD []
  | .function _ _ _ body => Stmt.idsAll body
  | .block _ body => Stmt.idsAll body
  | .branch _ condition consequent none => condition.ids ++ consequent.ids
  | .branch _ condition consequent (some alternative) =>
      condition.ids ++ (consequent.ids ++ alternative.ids)
  | .loop _ condition body => condition.ids ++ body.ids
  | .giveBack _ _ value => (value.map Expr.ids).getD []

def Stmt.idsAll : List Stmt → List Nat
  | [] => []
  | stmt :: rest => stmt.ids ++ Stmt.idsAll rest

end

/-- A relabeling gives new spans and new numbers. -/
structure Relabeling where
  spans : Span → Span
  ids : Nat → Nat

namespace Relabeling

variable (relabeling : Relabeling)

def located {α : Type} (given : Located α) : Located α :=
  ⟨given.item, relabeling.spans given.span⟩

def occurrence (target : Occurrence) : Occurrence :=
  ⟨relabeling.ids target.id, target.name, relabeling.spans target.span⟩

mutual

def expr : Expr → Expr
  | .literal span value => .literal (relabeling.spans span) value
  | .variable target => .variable (relabeling.occurrence target)
  | .assign span target value =>
      .assign (relabeling.spans span) (relabeling.occurrence target) (expr value)
  | .group span inner => .group (relabeling.spans span) (expr inner)
  | .unary span op operand =>
      .unary (relabeling.spans span) (relabeling.located op) (expr operand)
  | .binary span op left right =>
      .binary (relabeling.spans span) (relabeling.located op) (expr left) (expr right)
  | .logical span op left right =>
      .logical (relabeling.spans span) (relabeling.located op) (expr left) (expr right)
  | .call span paren callee given =>
      .call (relabeling.spans span) (relabeling.spans paren) (expr callee) (exprs given)

def exprs : List Expr → List Expr
  | [] => []
  | given :: rest => expr given :: exprs rest

end

mutual

def stmt : Stmt → Stmt
  | .expression span value => .expression (relabeling.spans span) (relabeling.expr value)
  | .print span value => .print (relabeling.spans span) (relabeling.expr value)
  | .variable span name initializer =>
      .variable (relabeling.spans span) (relabeling.located name) (initializer.map relabeling.expr)
  | .function span name parameters body =>
      .function (relabeling.spans span) (relabeling.located name)
        (parameters.map relabeling.located) (stmts body)
  | .block span body => .block (relabeling.spans span) (stmts body)
  | .branch span condition consequent none =>
      .branch (relabeling.spans span) (relabeling.expr condition) (stmt consequent) none
  | .branch span condition consequent (some alternative) =>
      .branch (relabeling.spans span) (relabeling.expr condition) (stmt consequent)
        (some (stmt alternative))
  | .loop span condition body =>
      .loop (relabeling.spans span) (relabeling.expr condition) (stmt body)
  | .giveBack span keyword value =>
      .giveBack (relabeling.spans span) (relabeling.spans keyword) (value.map relabeling.expr)

def stmts : List Stmt → List Stmt
  | [] => []
  | given :: rest => stmt given :: stmts rest

end

/-- A branch has the other labels in its parts. -/
theorem stmt_branch (span : Span) (condition : Expr) (consequent : Stmt)
    (alternative : Option Stmt) :
    relabeling.stmt (.branch span condition consequent alternative) =
      .branch (relabeling.spans span) (relabeling.expr condition) (relabeling.stmt consequent)
        (alternative.map relabeling.stmt) := by
  cases alternative <;> rfl

/-- An expression with other labels has the other span. -/
@[simp] theorem expr_span (given : Expr) :
    (relabeling.expr given).span = relabeling.spans given.span := by
  cases given <;> rfl

section
variable {relabeling} {other : Relabeling}

/-- An occurrence is labeled alike where spans and numbers agree. -/
theorem occurrence_congr {target : Occurrence}
    (spans : relabeling.spans target.span = other.spans target.span)
    (ids : relabeling.ids target.id = other.ids target.id) :
    relabeling.occurrence target = other.occurrence target := by
  simp only [occurrence, spans, ids]

/-- A located item is labeled alike where spans agree. -/
theorem located_congr {α : Type} {given : Located α}
    (spans : relabeling.spans given.span = other.spans given.span) :
    relabeling.located given = other.located given := by
  simp only [located, spans]

mutual

/-- Relabelings that agree on the spans and the numbers of a tree give the same tree. -/
theorem expr_congr : ∀ given : Expr,
    (∀ span ∈ given.spans, relabeling.spans span = other.spans span) →
    (∀ id ∈ given.ids, relabeling.ids id = other.ids id) →
      relabeling.expr given = other.expr given
  | .literal span value, spans, _ => by
      simp only [Expr.spans, List.mem_singleton, forall_eq] at spans
      simp only [expr, spans]
  | .variable target, spans, ids => by
      simp only [Expr.spans, List.mem_singleton, forall_eq] at spans
      simp only [Expr.ids, List.mem_singleton, forall_eq] at ids
      simp only [expr, occurrence_congr spans ids]
  | .assign span target value, spans, ids => by
      simp only [Expr.spans, List.forall_mem_cons] at spans
      simp only [Expr.ids, List.forall_mem_cons] at ids
      obtain ⟨whole, place, inside⟩ := spans
      simp only [expr, whole, occurrence_congr place ids.1, expr_congr value inside ids.2]
  | .group span inner, spans, ids => by
      simp only [Expr.spans, List.forall_mem_cons] at spans
      simp only [expr, spans.1, expr_congr inner spans.2 ids]
  | .unary span op operand, spans, ids => by
      simp only [Expr.spans, List.forall_mem_cons] at spans
      obtain ⟨whole, place, inside⟩ := spans
      simp only [expr, whole, located_congr place, expr_congr operand inside ids]
  | .binary span op left right, spans, ids => by
      simp only [Expr.spans, List.forall_mem_cons, List.forall_mem_append] at spans
      simp only [Expr.ids, List.forall_mem_append] at ids
      obtain ⟨whole, place, first, second⟩ := spans
      simp only [expr, whole, located_congr place, expr_congr left first ids.1,
        expr_congr right second ids.2]
  | .logical span op left right, spans, ids => by
      simp only [Expr.spans, List.forall_mem_cons, List.forall_mem_append] at spans
      simp only [Expr.ids, List.forall_mem_append] at ids
      obtain ⟨whole, place, first, second⟩ := spans
      simp only [expr, whole, located_congr place, expr_congr left first ids.1,
        expr_congr right second ids.2]
  | .call span paren callee given, spans, ids => by
      simp only [Expr.spans, List.forall_mem_cons, List.forall_mem_append] at spans
      simp only [Expr.ids, List.forall_mem_append] at ids
      obtain ⟨whole, place, first, others⟩ := spans
      simp only [expr, whole, place, expr_congr callee first ids.1,
        exprs_congr given others ids.2]

/-- Expressions are labeled alike where spans and numbers agree. -/
theorem exprs_congr : ∀ given : List Expr,
    (∀ span ∈ Expr.spansAll given, relabeling.spans span = other.spans span) →
    (∀ id ∈ Expr.idsAll given, relabeling.ids id = other.ids id) →
      relabeling.exprs given = other.exprs given
  | [], _, _ => rfl
  | first :: rest, spans, ids => by
      simp only [Expr.spansAll, List.forall_mem_append] at spans
      simp only [Expr.idsAll, List.forall_mem_append] at ids
      simp only [exprs, expr_congr first spans.1 ids.1, exprs_congr rest spans.2 ids.2]

end

/-- An expression that may be missing is labeled alike where spans and numbers agree. -/
theorem option_congr {given : Option Expr}
    (spans : ∀ span ∈ (given.map Expr.spans).getD [], relabeling.spans span = other.spans span)
    (ids : ∀ id ∈ (given.map Expr.ids).getD [], relabeling.ids id = other.ids id) :
    given.map relabeling.expr = given.map other.expr := by
  cases given with
  | none => rfl
  | some given => exact congrArg some (expr_congr given spans ids)

mutual

/-- A statement is labeled alike where spans and numbers agree. -/
theorem stmt_congr : ∀ given : Stmt,
    (∀ span ∈ given.spans, relabeling.spans span = other.spans span) →
    (∀ id ∈ given.ids, relabeling.ids id = other.ids id) →
      relabeling.stmt given = other.stmt given
  | .expression span value, spans, ids | .print span value, spans, ids => by
      simp only [Stmt.spans, List.forall_mem_cons] at spans
      simp only [stmt, spans.1, expr_congr value spans.2 ids]
  | .variable span name initializer, spans, ids => by
      simp only [Stmt.spans, List.forall_mem_cons] at spans
      obtain ⟨whole, place, inside⟩ := spans
      simp only [stmt, whole, located_congr place, option_congr inside ids]
  | .function span name parameters body, spans, ids => by
      simp only [Stmt.spans, List.forall_mem_cons, List.forall_mem_append, List.forall_mem_map]
        at spans
      obtain ⟨whole, place, names, inside⟩ := spans
      have same : parameters.map relabeling.located = parameters.map other.located :=
        List.map_congr_left fun name given => located_congr (names name given)
      simp only [stmt, whole, located_congr place, same, stmts_congr body inside ids]
  | .block span body, spans, ids => by
      simp only [Stmt.spans, List.forall_mem_cons] at spans
      simp only [stmt, spans.1, stmts_congr body spans.2 ids]
  | .branch span condition consequent none, spans, ids => by
      simp only [Stmt.spans, List.forall_mem_cons, List.forall_mem_append] at spans
      simp only [Stmt.ids, List.forall_mem_append] at ids
      obtain ⟨whole, test, chosen⟩ := spans
      simp only [stmt, whole, expr_congr condition test ids.1, stmt_congr consequent chosen ids.2]
  | .branch span condition consequent (some alternative), spans, ids => by
      simp only [Stmt.spans, List.forall_mem_cons, List.forall_mem_append] at spans
      simp only [Stmt.ids, List.forall_mem_append] at ids
      obtain ⟨whole, test, chosen, refused⟩ := spans
      simp only [stmt, whole, expr_congr condition test ids.1,
        stmt_congr consequent chosen ids.2.1, stmt_congr alternative refused ids.2.2]
  | .loop span condition body, spans, ids => by
      simp only [Stmt.spans, List.forall_mem_cons, List.forall_mem_append] at spans
      simp only [Stmt.ids, List.forall_mem_append] at ids
      obtain ⟨whole, test, inside⟩ := spans
      simp only [stmt, whole, expr_congr condition test ids.1, stmt_congr body inside ids.2]
  | .giveBack span keyword value, spans, ids => by
      simp only [Stmt.spans, List.forall_mem_cons] at spans
      obtain ⟨whole, place, inside⟩ := spans
      simp only [stmt, whole, place, option_congr inside ids]

/-- Statements are labeled alike where spans and numbers agree. -/
theorem stmts_congr : ∀ given : List Stmt,
    (∀ span ∈ Stmt.spansAll given, relabeling.spans span = other.spans span) →
    (∀ id ∈ Stmt.idsAll given, relabeling.ids id = other.ids id) →
      relabeling.stmts given = other.stmts given
  | [], _, _ => rfl
  | first :: rest, spans, ids => by
      simp only [Stmt.spansAll, List.forall_mem_append] at spans
      simp only [Stmt.idsAll, List.forall_mem_append] at ids
      simp only [stmts, stmt_congr first spans.1 ids.1, stmts_congr rest spans.2 ids.2]

end

end

/-- The relabeling that changes nothing. -/
def identity : Relabeling := ⟨id, id⟩

mutual

/-- An expression that keeps its labels stays as it is. -/
theorem expr_identity : ∀ given : Expr, identity.expr given = given
  | .literal _ _ | .variable _ => rfl
  | .assign _ _ value => congrArg (Expr.assign _ _) (expr_identity value)
  | .group _ inner => congrArg (Expr.group _) (expr_identity inner)
  | .unary _ _ operand => congrArg (Expr.unary _ _) (expr_identity operand)
  | .binary _ _ left right =>
      congrArg₂ (Expr.binary _ _) (expr_identity left) (expr_identity right)
  | .logical _ _ left right =>
      congrArg₂ (Expr.logical _ _) (expr_identity left) (expr_identity right)
  | .call _ _ callee given =>
      congrArg₂ (Expr.call _ _) (expr_identity callee) (exprs_identity given)

/-- Expressions that keep their labels stay as they are. -/
theorem exprs_identity : ∀ given : List Expr, identity.exprs given = given
  | [] => rfl
  | first :: rest => congrArg₂ List.cons (expr_identity first) (exprs_identity rest)

end

theorem option_identity (given : Option Expr) : given.map identity.expr = given := by
  cases given with
  | none => rfl
  | some given => exact congrArg some (expr_identity given)

mutual

/-- A statement that keeps its labels stays as it is. -/
theorem stmt_identity : ∀ given : Stmt, identity.stmt given = given
  | .expression _ value => congrArg (Stmt.expression _) (expr_identity value)
  | .print _ value => congrArg (Stmt.print _) (expr_identity value)
  | .variable _ _ initializer => congrArg (Stmt.variable _ _) (option_identity initializer)
  | .function _ _ parameters body =>
      congrArg₂ (Stmt.function _ _) (List.map_id parameters) (stmts_identity body)
  | .block _ body => congrArg (Stmt.block _) (stmts_identity body)
  | .branch _ condition consequent none =>
      congrArg₂ (Stmt.branch _ · · none) (expr_identity condition) (stmt_identity consequent)
  | .branch _ condition consequent (some alternative) => by
      rw [stmt, expr_identity condition, stmt_identity consequent, stmt_identity alternative]
      rfl
  | .loop _ condition body => congrArg₂ (Stmt.loop _) (expr_identity condition) (stmt_identity body)
  | .giveBack _ _ value => congrArg (Stmt.giveBack _ _) (option_identity value)

/-- Statements that keep their labels stay as they are. -/
theorem stmts_identity : ∀ given : List Stmt, identity.stmts given = given
  | [] => rfl
  | first :: rest => congrArg₂ List.cons (stmt_identity first) (stmts_identity rest)

end

/-- A tree stays as it is if all of its spans and numbers do. -/
theorem stmts_eq_self {given : List Stmt}
    (spans : ∀ span ∈ Stmt.spansAll given, relabeling.spans span = span)
    (ids : ∀ id ∈ Stmt.idsAll given, relabeling.ids id = id) :
    relabeling.stmts given = given := by
  have same : relabeling.stmts given = identity.stmts given := stmts_congr given spans ids
  rw [same, stmts_identity]

end Relabeling

end Lox
