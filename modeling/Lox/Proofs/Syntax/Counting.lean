import Lox.Proofs.Label.Relabeling
import Lox.Proofs.Syntax.Grammar

namespace Lox.Grammar

/-- Numbers that are all those from a first one up to a next one, in some order. -/
structure Counts (first next : Nat) (ids : List Nat) : Prop where
  forwards : first ≤ next
  every : ids.Perm (List.range' first (next - first))

namespace Counts

variable {first middle next : Nat} {ids others : List Nat}

theorem nil (first : Nat) : Counts first first [] := ⟨Nat.le_refl _, by simp⟩

theorem single (first : Nat) : Counts first (first + 1) [first] := ⟨Nat.le_succ _, by simp⟩

/-- Two stretches that meet count as one. -/
theorem append (start : Counts first middle ids) (rest : Counts middle next others) :
    Counts first next (ids ++ others) := by
  have early := start.forwards
  have late := rest.forwards
  refine ⟨Nat.le_trans early late, (start.every.append rest.every).trans (.of_eq ?_)⟩
  have same : first + (middle - first) = middle := by omega
  have total : middle - first + (next - middle) = next - first := by omega
  rw [← total, ← List.range'_append_1, same]

/-- Numbers may be counted in any order. -/
theorem perm (counts : Counts first next ids) (reordered : ids.Perm others) :
    Counts first next others := ⟨counts.forwards, reordered.symm.trans counts.every⟩

/-- Numbers that are counted are distinct. -/
theorem nodup (counts : Counts first next ids) : ids.Nodup :=
  counts.every.nodup_iff.2 List.nodup_range'

/-- As many numbers are counted as the stretch is long. -/
theorem length (counts : Counts first next ids) : first + ids.length = next := by
  have forwards := counts.forwards
  rw [counts.every.length_eq, List.length_range']
  omega

end Counts

/-- The numbers of the operands of an operator stand in their order. -/
theorem node_idsOf (place : Span) (left right : Expr) (operator : Parser.Operator) :
    (node place left right operator).ids = left.ids ++ right.ids := by
  cases operator <;> rfl

mutual

/-- The occurrences of an expression count the numbers of its parse. -/
theorem Expression.counts {first next : Nat} {lexemes : List Lexeme} {expr : Expr} :
    Expression first lexemes expr next → Counts first next expr.ids
  | .assign _ assigned => (Counts.single first).append assigned.counts
  | .chain operands => operands.counts

/-- The occurrences of an operand count the numbers of its parse. -/
theorem Operand.counts {level : Parser.Level} {first next : Nat} {lexemes : List Lexeme}
    {expr : Expr} : Operand level first lexemes expr next → Counts first next expr.ids
  | .tighter _ operands => operands.counts
  | .unary operand => operand.counts

/-- The occurrences of a chain count the numbers of its parse. -/
theorem Chain.counts {level : Parser.Level} {first next : Nat} {lexemes : List Lexeme}
    {expr : Expr} : Chain level first lexemes expr next → Counts first next expr.ids
  | .start operand joined => joined.counts operand.counts

/-- A chain goes on to count behind its left operand. -/
theorem ChainAfter.counts {level : Parser.Level} {start first next : Nat}
    {lexemes : List Lexeme} {left expr : Expr} :
    ChainAfter level first left lexemes expr next →
      Counts start first left.ids → Counts start next expr.ids
  | .done, sofar => sofar
  | .more _ _ operand joined, sofar =>
      joined.counts (node_idsOf _ _ _ _ ▸ sofar.append operand.counts)

theorem Unary.counts {first next : Nat} {lexemes : List Lexeme} {expr : Expr} :
    Unary first lexemes expr next → Counts first next expr.ids
  | .operator _ _ applied => applied.counts
  | .call called => called.counts

/-- The occurrences of a call count the numbers of its parse. -/
theorem Call.counts {first next : Nat} {lexemes : List Lexeme} {expr : Expr} :
    Call first lexemes expr next → Counts first next expr.ids
  | .start operand given => given.counts operand.counts

/-- The calls go on to count behind their callee. -/
theorem CallAfter.counts {start first next : Nat} {lexemes : List Lexeme} {callee expr : Expr} :
    CallAfter first callee lexemes expr next →
      Counts start first callee.ids → Counts start next expr.ids
  | .done, sofar => sofar
  | .more _ arguments _ called, sofar => called.counts (sofar.append arguments.counts)

theorem ArgumentList.counts {first next : Nat} {lexemes : List Lexeme} {given : List Expr} :
    ArgumentList first lexemes given next → Counts first next (Expr.idsAll given)
  | .none => .nil first
  | .some arguments _ => arguments.counts

/-- The occurrences of arguments count the numbers of their parse. -/
theorem Arguments.counts {first next : Nat} {lexemes : List Lexeme} {given : List Expr} :
    Arguments first lexemes given next → Counts first next (Expr.idsAll given)
  | .last argument => argument.counts.append (.nil next)
  | .more argument _ arguments => argument.counts.append arguments.counts

/-- A variable counts one number, and a literal none. -/
theorem Primary.counts {first next : Nat} {lexemes : List Lexeme} {expr : Expr} :
    Primary first lexemes expr next → Counts first next expr.ids
  | .literal _ => .nil first
  | .variable => .single first
  | .group _ grouped _ => grouped.counts

end

/-- The numbers of the occurrences in an expression that may be missing. -/
def optionIds (given : Option Expr) : List Nat := (given.map Expr.ids).getD []

theorem OptionalExpression.counts {first next : Nat} {lexemes : List Lexeme}
    {given : Option Expr} :
    OptionalExpression first lexemes given next → Counts first next (optionIds given)
  | .none => .nil first
  | .some given => given.counts

theorem Initializer.counts {first next : Nat} {lexemes : List Lexeme} {value : Option Expr} :
    Initializer first lexemes value next → Counts first next (optionIds value)
  | .none => .nil first
  | .some _ value => value.counts

/-- The occurrences of an initializer count the numbers of its parse. -/
theorem VariableDeclaration.counts {first next : Nat} {lexemes : List Lexeme} {stmt : Stmt} :
    VariableDeclaration first lexemes stmt next → Counts first next stmt.ids
  | .declare _ initializer _ => initializer.counts

theorem ExpressionStatement.counts {first next : Nat} {lexemes : List Lexeme} {stmt : Stmt} :
    ExpressionStatement first lexemes stmt next → Counts first next stmt.ids
  | .evaluate evaluated _ => evaluated.counts

theorem LoopStart.counts {first next : Nat} {lexemes : List Lexeme} {initial : Option Stmt} :
    LoopStart first lexemes initial next →
      Counts first next ((initial.map Stmt.ids).getD [])
  | .none _ => .nil first
  | .variable declared => declared.counts
  | .expression evaluated => evaluated.counts

/-- In the tree of a counting loop the step comes behind the body. -/
theorem forLoop_idsOf (span : Span) (initial : Option Stmt) (test step : Option Expr)
    (body : Stmt) :
    (Stmt.forLoop span initial test step body).ids =
      (initial.map Stmt.ids).getD [] ++ (optionIds test ++ (body.ids ++ optionIds step)) := by
  cases initial <;> cases test <;> cases step <;>
    simp [Stmt.forLoop, Stmt.ids, Stmt.idsAll, Expr.ids, optionIds]

mutual

/-- The occurrences of a declaration count the numbers of its parse. -/
theorem Declaration.counts {attachment : Attachment} {first next : Nat} {lexemes : List Lexeme}
    {stmt : Stmt} : Declaration attachment first lexemes stmt next → Counts first next stmt.ids
  | .function _ _ _ _ _ declarations _ => declarations.counts
  | .variable declared => declared.counts
  | .statement stated => stated.counts

/-- The occurrences of a statement count the numbers of its parse. -/
theorem Statement.counts {attachment : Attachment} {first next : Nat} {lexemes : List Lexeme}
    {stmt : Stmt} {dangling : Bool} :
    Statement attachment first lexemes stmt dangling next → Counts first next stmt.ids
  | .forLoop _ _ starts tests _ steps _ repeated => by
      rw [← forLoop_eq_countingLoop, forLoop_idsOf]
      have whole := starts.counts.append
        (tests.counts.append (steps.counts.append repeated.counts))
      exact whole.perm (.append_left _ (.append_left _ List.perm_append_comm))
  | .branch _ _ tests _ chosen => tests.counts.append chosen.counts
  | .alternative _ _ tests _ chosen _ _ refused =>
      tests.counts.append (chosen.counts.append refused.counts)
  | .print _ printed _ => printed.counts
  | .giveBack _ given _ => given.counts
  | .loop _ _ tests _ repeated => tests.counts.append repeated.counts
  | .block _ declarations _ => declarations.counts
  | .expression evaluated => evaluated.counts

/-- The occurrences of declarations count the numbers of their parse. -/
theorem Declarations.counts {attachment : Attachment} {first next : Nat}
    {lexemes : List Lexeme} {stmts : List Stmt} :
    Declarations attachment first lexemes stmts next → Counts first next (Stmt.idsAll stmts)
  | .none => .nil first
  | .more declared declarations => declared.counts.append declarations.counts

end

end Lox.Grammar
