import Lox.Proofs.Scope.Table
import Lox.Proofs.Syntax.Grammar

namespace Lox

/-- The statement declares a name. -/
def Stmt.declares : Stmt → Bool
  | .variable .. | .function .. => true
  | .expression .. | .print .. | .block .. | .branch .. | .loop .. | .giveBack .. => false

mutual

/-- In a proper statement, the statements under an `if` or a loop declare nothing. -/
def Stmt.Proper : Stmt → Prop
  | .function _ _ _ body | .block _ body => Stmt.ProperAll body
  | .branch _ _ consequent none => consequent.declares = false ∧ consequent.Proper
  | .branch _ _ consequent (some alternative) =>
      (consequent.declares = false ∧ consequent.Proper) ∧
        (alternative.declares = false ∧ alternative.Proper)
  | .loop _ _ body => body.declares = false ∧ body.Proper
  | .expression .. | .print .. | .variable .. | .giveBack .. => True

def Stmt.ProperAll : List Stmt → Prop
  | [] => True
  | stmt :: rest => stmt.Proper ∧ Stmt.ProperAll rest

end

namespace Resolution

/-- A proper statement that declares nothing leaves the scopes as they are. -/
theorem scopesAfter_of_proper (scopes : List Scope) :
    ∀ stmt : Stmt, stmt.Proper → stmt.declares = false → scopesAfter scopes stmt = scopes
  | .expression .. | .print .. | .block .. | .giveBack .. => fun _ _ => rfl
  | .variable .. | .function .. => fun _ => nofun
  | .branch _ _ consequent none => by
      intro proper _
      obtain ⟨silent, proper⟩ := proper
      exact scopesAfter_of_proper scopes consequent proper silent
  | .branch _ _ consequent (some alternative) => by
      intro proper _
      obtain ⟨⟨silent, proper⟩, other, properOther⟩ := proper
      rw [scopesAfter, scopesAfter_of_proper scopes consequent proper silent]
      exact scopesAfter_of_proper scopes alternative properOther other
  | .loop _ _ body => by
      intro proper _
      obtain ⟨silent, proper⟩ := proper
      exact scopesAfter_of_proper scopes body proper silent

/-- Numbers from a first one up to a next one, each of which occurs at most once. -/
structure Numbered (first next : Nat) (ids : List Nat) : Prop where
  forwards : first ≤ next
  within : ∀ id ∈ ids, first ≤ id ∧ id < next
  distinct : ids.Nodup

namespace Numbered

variable {first middle next : Nat} {ids others : List Nat}

theorem nil (first : Nat) : Numbered first first [] := ⟨Nat.le_refl _, by simp, List.nodup_nil⟩

theorem single (first : Nat) : Numbered first (first + 1) [first] :=
  ⟨Nat.le_succ _, by simp, by simp⟩

/-- Numbers that follow on others are different from them. -/
theorem append (start : Numbered first middle ids) (rest : Numbered middle next others) :
    Numbered first next (ids ++ others) := by
  refine ⟨Nat.le_trans start.forwards rest.forwards, ?_, ?_⟩
  · intro id given
    have := start.forwards
    have := rest.forwards
    rcases List.mem_append.1 given with early | late
    · have := start.within id early
      omega
    · have := rest.within id late
      omega
  · refine List.nodup_append.2 ⟨start.distinct, rest.distinct, ?_⟩
    intro id early other late same
    have := start.within id early
    have := rest.within other late
    omega

/-- Numbers may be reordered. -/
theorem perm (numbered : Numbered first next ids) (reordered : ids.Perm others) :
    Numbered first next others :=
  ⟨numbered.forwards, fun id given => numbered.within id (reordered.mem_iff.2 given),
    reordered.nodup_iff.1 numbered.distinct⟩

end Numbered

end Resolution

namespace Grammar

open Resolution

/-- The operands of an operator are visited from left to right. -/
theorem node_ids (scopes : List Scope) (place : Span) (left right : Expr)
    (operator : Parser.Operator) :
    idsOf (visitExpr scopes (node place left right operator)) =
      idsOf (visitExpr scopes left) ++ idsOf (visitExpr scopes right) := by
  cases operator <;> exact idsOf_append _ _

mutual

/-- The occurrences of an expression are numbered apart, in the stretch of its parse. -/
theorem Expression.numbered {first next : Nat} {lexemes : List Lexeme} {expr : Expr}
    (scopes : List Scope) :
    Expression first lexemes expr next → Numbered first next (idsOf (visitExpr scopes expr))
  | .assign _ assigned => by
      have whole := (Numbered.single first).append (assigned.numbered scopes)
      rw [visitExpr, idsOf_append]
      exact whole.perm List.perm_append_comm
  | .chain operands => operands.numbered scopes

/-- The occurrences of an operand are numbered apart. -/
theorem Operand.numbered {level : Parser.Level} {first next : Nat} {lexemes : List Lexeme}
    {expr : Expr} (scopes : List Scope) :
    Operand level first lexemes expr next → Numbered first next (idsOf (visitExpr scopes expr))
  | .tighter _ operands => operands.numbered scopes
  | .unary operand => operand.numbered scopes

/-- The occurrences of a chain are numbered apart. -/
theorem Chain.numbered {level : Parser.Level} {first next : Nat} {lexemes : List Lexeme}
    {expr : Expr} (scopes : List Scope) :
    Chain level first lexemes expr next → Numbered first next (idsOf (visitExpr scopes expr))
  | .start operand joined => joined.numbered scopes (operand.numbered scopes)

/-- A chain goes on to number behind its left operand. -/
theorem ChainAfter.numbered {level : Parser.Level} {start first next : Nat}
    {lexemes : List Lexeme} {left expr : Expr} (scopes : List Scope) :
    ChainAfter level first left lexemes expr next →
      Numbered start first (idsOf (visitExpr scopes left)) →
        Numbered start next (idsOf (visitExpr scopes expr))
  | .done, sofar => sofar
  | .more _ _ operand joined, sofar =>
      joined.numbered scopes (node_ids scopes _ _ _ _ ▸ sofar.append (operand.numbered scopes))

/-- The occurrences of a prefixed expression are numbered apart. -/
theorem Unary.numbered {first next : Nat} {lexemes : List Lexeme} {expr : Expr}
    (scopes : List Scope) :
    Unary first lexemes expr next → Numbered first next (idsOf (visitExpr scopes expr))
  | .operator _ _ applied => applied.numbered scopes
  | .call called => called.numbered scopes

/-- The occurrences of a call are numbered apart. -/
theorem Call.numbered {first next : Nat} {lexemes : List Lexeme} {expr : Expr}
    (scopes : List Scope) :
    Call first lexemes expr next → Numbered first next (idsOf (visitExpr scopes expr))
  | .start operand given => given.numbered scopes (operand.numbered scopes)

/-- The calls go on to number behind their callee. -/
theorem CallAfter.numbered {start first next : Nat} {lexemes : List Lexeme} {callee expr : Expr}
    (scopes : List Scope) :
    CallAfter first callee lexemes expr next →
      Numbered start first (idsOf (visitExpr scopes callee)) →
        Numbered start next (idsOf (visitExpr scopes expr))
  | .done, sofar => sofar
  | .more _ arguments _ called, sofar => by
      refine called.numbered scopes ?_
      rw [visitExpr, idsOf_append]
      exact sofar.append (arguments.numbered scopes)

theorem ArgumentList.numbered {first next : Nat} {lexemes : List Lexeme} {given : List Expr}
    (scopes : List Scope) :
    ArgumentList first lexemes given next →
      Numbered first next (idsOf (visitExprs scopes given))
  | .none => .nil first
  | .some arguments _ => arguments.numbered scopes

/-- The occurrences of arguments are numbered apart. -/
theorem Arguments.numbered {first next : Nat} {lexemes : List Lexeme} {given : List Expr}
    (scopes : List Scope) :
    Arguments first lexemes given next → Numbered first next (idsOf (visitExprs scopes given))
  | .last argument => by
      rw [visitExprs, idsOf_append, visitExprs]
      exact (argument.numbered scopes).append (.nil next)
  | .more argument _ arguments => by
      rw [visitExprs, idsOf_append]
      exact (argument.numbered scopes).append (arguments.numbered scopes)

/-- A variable is numbered by the next number, and a literal by none. -/
theorem Primary.numbered {first next : Nat} {lexemes : List Lexeme} {expr : Expr}
    (scopes : List Scope) :
    Primary first lexemes expr next → Numbered first next (idsOf (visitExpr scopes expr))
  | .literal _ => .nil first
  | .variable => .single first
  | .group _ grouped _ => grouped.numbered scopes

end

theorem OptionalExpression.numbered {first next : Nat} {lexemes : List Lexeme}
    {given : Option Expr} (scopes : List Scope) :
    OptionalExpression first lexemes given next →
      Numbered first next (idsOf (visitOption scopes given))
  | .none => .nil first
  | .some given => given.numbered scopes

theorem Initializer.numbered {first next : Nat} {lexemes : List Lexeme} {value : Option Expr}
    (scopes : List Scope) :
    Initializer first lexemes value next → Numbered first next (idsOf (visitOption scopes value))
  | .none => .nil first
  | .some _ value => value.numbered scopes

/-- The occurrences of an initializer are numbered apart. -/
theorem VariableDeclaration.numbered {first next : Nat} {lexemes : List Lexeme} {stmt : Stmt}
    (scopes : List Scope) (inFunction : Bool) :
    VariableDeclaration first lexemes stmt next →
      Numbered first next (idsOf (visitStmt scopes inFunction stmt))
  | .declare _ initializer _ => initializer.numbered _

theorem ExpressionStatement.numbered {first next : Nat} {lexemes : List Lexeme} {stmt : Stmt}
    (scopes : List Scope) (inFunction : Bool) :
    ExpressionStatement first lexemes stmt next →
      Numbered first next (idsOf (visitStmt scopes inFunction stmt))
  | .evaluate evaluated _ => evaluated.numbered scopes

/-- The visits of parameters are none of occurrences. -/
theorem parameters_ids (scopes : List Scope) (parameters : List Name) :
    idsOf (visitParameters scopes parameters) = [] := by
  induction parameters generalizing scopes with
  | nil => rfl
  | cons name rest ih => exact ih _

/-- The occurrences of the first part of a counting loop. -/
def startIds (scopes : List Scope) (inFunction : Bool) (initial : Option Stmt) : List Nat :=
  initial.elim [] fun stmt => idsOf (visitStmt scopes inFunction stmt)

/-- The occurrences of a loop's start are numbered apart. -/
theorem LoopStart.numbered {first next : Nat} {lexemes : List Lexeme} {initial : Option Stmt}
    (scopes : List Scope) (inFunction : Bool) :
    LoopStart first lexemes initial next →
      Numbered first next (startIds scopes inFunction initial)
  | .none _ => .nil first
  | .variable declared => declared.numbered scopes inFunction
  | .expression evaluated => evaluated.numbered scopes inFunction

/-- The occurrences of the loop in a counting loop, whose step comes behind its body. -/
theorem loop_ids (scopes : List Scope) (inFunction : Bool) (span : Span) (test step : Option Expr)
    (body : Stmt) :
    ∃ inner last, idsOf (visitStmt scopes inFunction (.forLoop span none test step body)) =
      idsOf (visitOption scopes test) ++
        (idsOf (visitStmt inner inFunction body) ++ idsOf (visitOption last step)) := by
  have tested : idsOf (visitExpr scopes (test.getD (.literal span (.bool true)))) =
      idsOf (visitOption scopes test) := by
    cases test <;> rfl
  cases step with
  | none =>
      refine ⟨scopes, [], ?_⟩
      change idsOf (visitExpr scopes _ ++ visitStmt scopes inFunction body) = _
      rw [idsOf_append, tested, visitOption, idsOf_nil, List.append_nil]
  | some step =>
      refine ⟨[] :: scopes, scopesAfter ([] :: scopes) body, ?_⟩
      change idsOf (visitExpr scopes _ ++ (visitStmt ([] :: scopes) inFunction body ++
        (visitExpr (scopesAfter ([] :: scopes) body) step ++ []))) = _
      rw [idsOf_append, tested, idsOf_append, List.append_nil, visitOption]

/-- The visits of a counting loop are those of its parts. -/
theorem forLoop_ids (scopes : List Scope) (inFunction : Bool) (span : Span)
    (initial : Option Stmt) (test step : Option Expr) (body : Stmt) :
    ∃ second inner last,
      idsOf (visitStmt scopes inFunction (.forLoop span initial test step body)) =
        startIds ([] :: scopes) inFunction initial ++ (idsOf (visitOption second test) ++
          (idsOf (visitStmt inner inFunction body) ++ idsOf (visitOption last step))) := by
  cases initial with
  | none =>
      obtain ⟨inner, last, same⟩ := loop_ids scopes inFunction span test step body
      exact ⟨scopes, inner, last, same⟩
  | some stmt =>
      obtain ⟨inner, last, same⟩ :=
        loop_ids (scopesAfter ([] :: scopes) stmt) inFunction span test step body
      refine ⟨scopesAfter ([] :: scopes) stmt, inner, last, ?_⟩
      rw [← same]
      change idsOf (visitStmt ([] :: scopes) inFunction stmt ++
        (visitStmt (scopesAfter ([] :: scopes) stmt) inFunction
          (.forLoop span none test step body) ++ [])) = _
      rw [idsOf_append, List.append_nil]
      rfl

mutual

/-- The occurrences of a declaration are numbered apart. -/
theorem Declaration.numbered {attachment : Attachment} {first next : Nat} {lexemes : List Lexeme}
    {stmt : Stmt} (scopes : List Scope) (inFunction : Bool) :
    Declaration attachment first lexemes stmt next →
      Numbered first next (idsOf (visitStmt scopes inFunction stmt))
  | .function _ _ _ _ _ declarations _ => by
      rw [visitStmt, idsOf_declaration, idsOf_append, parameters_ids]
      exact declarations.numbered _ true
  | .variable declared => declared.numbered scopes inFunction
  | .statement stated => stated.numbered scopes inFunction

/-- The occurrences of a statement are numbered apart, in whatever order they are visited. -/
theorem Statement.numbered {attachment : Attachment} {first next : Nat} {lexemes : List Lexeme}
    {stmt : Stmt} {dangling : Bool} (scopes : List Scope) (inFunction : Bool) :
    Statement attachment first lexemes stmt dangling next →
      Numbered first next (idsOf (visitStmt scopes inFunction stmt))
  | .forLoop _ _ starts tests _ steps _ repeated => by
      obtain ⟨second, inner, last, same⟩ := forLoop_ids scopes inFunction _ _ _ _ _
      rw [← forLoop_eq_countingLoop, same]
      have whole := (starts.numbered ([] :: scopes) inFunction).append
        ((tests.numbered second).append
          ((steps.numbered last).append (repeated.numbered inner inFunction)))
      exact whole.perm (.append_left _ (.append_left _ List.perm_append_comm))
  | .branch _ _ tests _ chosen => by
      rw [visitStmt, idsOf_append]
      exact (tests.numbered scopes).append (chosen.numbered scopes inFunction)
  | .alternative _ _ tests _ chosen _ _ refused => by
      rw [visitStmt, idsOf_append, idsOf_append]
      exact (tests.numbered scopes).append
        ((chosen.numbered scopes inFunction).append (refused.numbered _ inFunction))
  | .print _ printed _ => printed.numbered scopes
  | .giveBack _ given _ => given.numbered scopes
  | .loop _ _ tests _ repeated => by
      rw [visitStmt, idsOf_append]
      exact (tests.numbered scopes).append (repeated.numbered scopes inFunction)
  | .block _ declarations _ => declarations.numbered ([] :: scopes) inFunction
  | .expression evaluated => evaluated.numbered scopes inFunction

/-- The occurrences of several declarations are numbered apart. -/
theorem Declarations.numbered {attachment : Attachment} {first next : Nat}
    {lexemes : List Lexeme} {stmts : List Stmt} (scopes : List Scope) (inFunction : Bool) :
    Declarations attachment first lexemes stmts next →
      Numbered first next (idsOf (visitStmts scopes inFunction stmts))
  | .none => .nil first
  | .more declared declarations => by
      rw [visitStmts, idsOf_append]
      exact (declared.numbered scopes inFunction).append (declarations.numbered _ inFunction)

end

/-- A loop starts with a proper statement, or with none. -/
theorem LoopStart.proper {first next : Nat} {lexemes : List Lexeme} {initial : Option Stmt} :
    LoopStart first lexemes initial next → ∀ stmt ∈ initial, stmt.Proper
  | .none _ => nofun
  | .variable (.declare ..) | .expression (.evaluate ..) => by
      intro stmt given
      cases given
      trivial

/-- A counting loop with proper parts is a proper statement that declares nothing. -/
theorem forLoop_proper {initial : Option Stmt} {body : Stmt} (span : Span)
    (test step : Option Expr) (starts : ∀ stmt ∈ initial, stmt.Proper)
    (repeated : body.declares = false ∧ body.Proper) :
    (Stmt.forLoop span initial test step body).declares = false ∧
      (Stmt.forLoop span initial test step body).Proper := by
  have loop : (Stmt.forLoop span none test step body).declares = false ∧
      (Stmt.forLoop span none test step body).Proper := by
    cases step with
    | none => exact ⟨rfl, repeated⟩
    | some step => exact ⟨rfl, rfl, repeated.2, trivial, trivial⟩
  cases initial with
  | none => exact loop
  | some stmt => exact ⟨rfl, starts stmt rfl, loop.2, trivial⟩

mutual

/-- A declaration that is parsed is proper. -/
theorem Declaration.proper {attachment : Attachment} {first next : Nat} {lexemes : List Lexeme}
    {stmt : Stmt} : Declaration attachment first lexemes stmt next → stmt.Proper
  | .function _ _ _ _ _ declarations _ => declarations.proper
  | .variable (.declare ..) => trivial
  | .statement stated => stated.proper.2

/-- A statement declares nothing, and it is proper. -/
theorem Statement.proper {attachment : Attachment} {first next : Nat} {lexemes : List Lexeme}
    {stmt : Stmt} {dangling : Bool} :
    Statement attachment first lexemes stmt dangling next → stmt.declares = false ∧ stmt.Proper
  | .forLoop _ _ starts _ _ _ _ repeated =>
      forLoop_eq_countingLoop _ _ _ _ _ ▸ forLoop_proper _ _ _ starts.proper repeated.proper
  | .branch _ _ _ _ chosen => ⟨rfl, chosen.proper⟩
  | .alternative _ _ _ _ chosen _ _ refused => ⟨rfl, chosen.proper, refused.proper⟩
  | .print .. | .giveBack .. => ⟨rfl, trivial⟩
  | .loop _ _ _ _ repeated => ⟨rfl, repeated.proper⟩
  | .block _ declarations _ => ⟨rfl, declarations.proper⟩
  | .expression (.evaluate ..) => ⟨rfl, trivial⟩

/-- Declarations that are parsed are proper. -/
theorem Declarations.proper {attachment : Attachment} {first next : Nat} {lexemes : List Lexeme}
    {stmts : List Stmt} : Declarations attachment first lexemes stmts next → Stmt.ProperAll stmts
  | .none => trivial
  | .more declared declarations => ⟨declared.proper, declarations.proper⟩

end

/-- The visits of a program of the grammar come to different occurrences. -/
theorem Forms.distinct {attachment : Attachment} {lexemes : List Lexeme} {program : Program}
    (forms : Forms attachment lexemes program) : (idsOf (visitProgram program)).Nodup := by
  obtain ⟨occurrences, declarations⟩ := forms
  exact (declarations.numbered [] false).distinct

/-- A program that is parsed is proper. -/
theorem Forms.proper {attachment : Attachment} {lexemes : List Lexeme} {program : Program}
    (forms : Forms attachment lexemes program) : Stmt.ProperAll program := by
  obtain ⟨occurrences, declarations⟩ := forms
  exact declarations.proper

end Grammar

end Lox
