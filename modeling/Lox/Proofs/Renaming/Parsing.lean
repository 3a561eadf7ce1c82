import Lox.Proofs.Renaming.Lexing

namespace Lox.Grammar

open Lox.Parser (Level Operator Spells)

section
variable (new : Renaming)

/-- A renamed lexeme spells the same symbols. -/
theorem spells_renamed {symbol : Symbol} {lexeme : Lexeme} (spelled : Spells symbol lexeme) :
    Spells symbol (new.lexeme lexeme) := by
  obtain ⟨token, text, span⟩ := lexeme
  cases spelled
  rfl

/-- Renamed lexemes reach as far as before. -/
@[simp] theorem extent_renamed (lexemes : List Lexeme) :
    extent (lexemes.map new.lexeme) = extent lexemes := by
  simp [extent, Function.comp_def]

/-- Renaming an operator renames its operands. -/
theorem node_renamed (place : Span) (left right : Expr) (operator : Operator) :
    new.expr (node place left right operator) =
      node place (new.expr left) (new.expr right) operator := by
  cases operator <;> simp [node, Renaming.expr]

mutual

/-- A renamed expression is a sentence for the renamed tree. -/
theorem Expression.renamed {first next : Nat} {lexemes : List Lexeme} {expr : Expr} :
    Expression first lexemes expr next →
      Expression first (lexemes.map new.lexeme) (new.expr expr) next
  | .assign sign assigned => by
      rw [Renaming.expr, ← new.expr_span]
      exact .assign (spells_renamed new sign) assigned.renamed
  | .chain operands => .chain operands.renamed

theorem Operand.renamed {level : Level} {first next : Nat} {lexemes : List Lexeme} {expr : Expr} :
    Operand level first lexemes expr next →
      Operand level first (lexemes.map new.lexeme) (new.expr expr) next
  | .tighter below operands => .tighter below operands.renamed
  | .unary operand => .unary operand.renamed

/-- A renamed chain of operators is a sentence for the renamed tree. -/
theorem Chain.renamed {level : Level} {first next : Nat} {lexemes : List Lexeme} {expr : Expr} :
    Chain level first lexemes expr next →
      Chain level first (lexemes.map new.lexeme) (new.expr expr) next
  | .start operand joined => by
      rw [List.map_append]
      exact .start operand.renamed joined.renamed

/-- A chain goes on from the renamed left operand. -/
theorem ChainAfter.renamed {level : Level} {first next : Nat} {lexemes : List Lexeme}
    {left expr : Expr} : ChainAfter level first left lexemes expr next →
      ChainAfter level first (new.expr left) (lexemes.map new.lexeme) (new.expr expr) next
  | .done => .done
  | .more joins spelled operand joined => by
      have rest := joined.renamed
      rw [node_renamed, ← new.lexeme_span] at rest
      rw [List.map_cons, List.map_append]
      exact .more joins (spells_renamed new spelled) operand.renamed rest

theorem Unary.renamed {first next : Nat} {lexemes : List Lexeme} {expr : Expr} :
    Unary first lexemes expr next → Unary first (lexemes.map new.lexeme) (new.expr expr) next
  | .operator applies spelled applied => by
      have whole := Unary.operator applies (spells_renamed new spelled) applied.renamed
      rw [new.expr_span, new.lexeme_span] at whole
      exact whole
  | .call called => .call called.renamed

/-- A renamed call is a sentence for the renamed tree. -/
theorem Call.renamed {first next : Nat} {lexemes : List Lexeme} {expr : Expr} :
    Call first lexemes expr next → Call first (lexemes.map new.lexeme) (new.expr expr) next
  | .start operand given => by
      rw [List.map_append]
      exact .start operand.renamed given.renamed

/-- The calls go on from the renamed callee. -/
theorem CallAfter.renamed {first next : Nat} {lexemes : List Lexeme} {callee expr : Expr} :
    CallAfter first callee lexemes expr next →
      CallAfter first (new.expr callee) (lexemes.map new.lexeme) (new.expr expr) next
  | .done => .done
  | .more opens arguments closes called => by
      have rest := called.renamed
      rw [Renaming.expr, ← new.expr_span callee, ← new.lexeme_span] at rest
      rw [List.map_cons, List.map_append, List.map_cons]
      exact .more (spells_renamed new opens) arguments.renamed (spells_renamed new closes) rest

theorem ArgumentList.renamed {first next : Nat} {lexemes : List Lexeme} {given : List Expr} :
    ArgumentList first lexemes given next →
      ArgumentList first (lexemes.map new.lexeme) (new.exprs given) next
  | .none => .none
  | .some arguments short => .some arguments.renamed (by rwa [new.exprs_length])

theorem Arguments.renamed {first next : Nat} {lexemes : List Lexeme} {given : List Expr} :
    Arguments first lexemes given next →
      Arguments first (lexemes.map new.lexeme) (new.exprs given) next
  | .last argument => .last argument.renamed
  | .more argument separated arguments => by
      rw [List.map_append, List.map_cons]
      exact .more argument.renamed (spells_renamed new separated) arguments.renamed

/-- A renamed primary expression is a sentence for the renamed tree. -/
theorem Primary.renamed {first next : Nat} {lexemes : List Lexeme} {expr : Expr} :
    Primary first lexemes expr next → Primary first (lexemes.map new.lexeme) (new.expr expr) next
  | .literal denotes => by
      cases denotes <;> exact .literal (by constructor)
  | .variable => .variable
  | .group opens grouped closes => by
      have whole := Primary.group (spells_renamed new opens) grouped.renamed
        (spells_renamed new closes)
      rw [new.lexeme_span, new.lexeme_span] at whole
      rw [List.map_cons, List.map_append]
      exact whole

end

theorem OptionalExpression.renamed {first next : Nat} {lexemes : List Lexeme}
    {given : Option Expr} : OptionalExpression first lexemes given next →
      OptionalExpression first (lexemes.map new.lexeme) (given.map new.expr) next
  | .none => .none
  | .some given => .some (given.renamed new)

/-- A renamed parameter list has the renamed parameters. -/
theorem Parameters.renamed {lexemes : List Lexeme} {names : List Name} :
    Parameters lexemes names → Parameters (lexemes.map new.lexeme) (names.map new.located)
  | .last => .last
  | .more separated parameters => .more (spells_renamed new separated) parameters.renamed

theorem ParameterList.renamed {lexemes : List Lexeme} {names : List Name} :
    ParameterList lexemes names → ParameterList (lexemes.map new.lexeme) (names.map new.located)
  | .none => .none
  | .some parameters short => .some (parameters.renamed new) (by rwa [List.length_map])

theorem Initializer.renamed {first next : Nat} {lexemes : List Lexeme} {value : Option Expr} :
    Initializer first lexemes value next →
      Initializer first (lexemes.map new.lexeme) (value.map new.expr) next
  | .none => .none
  | .some sign value => .some (spells_renamed new sign) (value.renamed new)

/-- A renamed variable's declaration is a sentence for the renamed tree. -/
theorem VariableDeclaration.renamed {first next : Nat} {lexemes : List Lexeme} {stmt : Stmt} :
    VariableDeclaration first lexemes stmt next →
      VariableDeclaration first (lexemes.map new.lexeme) (new.stmt stmt) next
  | .declare opens initializer closes => by
      rw [Renaming.stmt, ← extent_renamed new]
      simp only [List.map_cons, List.map_append, List.map_nil]
      exact .declare (spells_renamed new opens) (initializer.renamed new)
        (spells_renamed new closes)

theorem ExpressionStatement.renamed {first next : Nat} {lexemes : List Lexeme} {stmt : Stmt} :
    ExpressionStatement first lexemes stmt next →
      ExpressionStatement first (lexemes.map new.lexeme) (new.stmt stmt) next
  | .evaluate evaluated closes => by
      rw [Renaming.stmt, ← extent_renamed new]
      simp only [List.map_cons, List.map_append, List.map_nil]
      exact .evaluate (evaluated.renamed new) (spells_renamed new closes)

theorem LoopStart.renamed {first next : Nat} {lexemes : List Lexeme} {initial : Option Stmt} :
    LoopStart first lexemes initial next →
      LoopStart first (lexemes.map new.lexeme) (initial.map new.stmt) next
  | .none closes => .none (spells_renamed new closes)
  | .variable declared => .variable (declared.renamed new)
  | .expression evaluated => .expression (evaluated.renamed new)

/-- A written-out loop is renamed part by part. -/
theorem countingLoop_renamed (span : Span) (initial : Option Stmt) (test step : Option Expr)
    (body : Stmt) :
    new.stmt (countingLoop span initial test step body) =
      countingLoop span (initial.map new.stmt) (test.map new.expr) (step.map new.expr)
        (new.stmt body) := by
  cases initial <;> cases test <;> cases step <;>
    simp [countingLoop, loopTest, loopBody, loopBlock, Renaming.stmt, Renaming.stmts, Renaming.expr]

mutual

/-- A renamed declaration is a sentence for the renamed tree. -/
theorem Declaration.renamed {attachment : Attachment} {first next : Nat} {lexemes : List Lexeme}
    {stmt : Stmt} : Declaration attachment first lexemes stmt next →
      Declaration attachment first (lexemes.map new.lexeme) (new.stmt stmt) next
  | .function opens listOpens parameters listCloses bodyOpens declarations bodyCloses => by
      rw [Renaming.stmt, ← extent_renamed new]
      simp only [List.map_cons, List.map_append, List.map_nil]
      exact .function (spells_renamed new opens) (spells_renamed new listOpens)
        (parameters.renamed new) (spells_renamed new listCloses) (spells_renamed new bodyOpens)
        declarations.renamed (spells_renamed new bodyCloses)
  | .variable declared => .variable (declared.renamed new)
  | .statement stated => .statement stated.renamed

/-- A renamed statement is a sentence for the renamed tree. -/
theorem Statement.renamed {attachment : Attachment} {first next : Nat} {lexemes : List Lexeme}
    {stmt : Stmt} {dangling : Bool} : Statement attachment first lexemes stmt dangling next →
      Statement attachment first (lexemes.map new.lexeme) (new.stmt stmt) dangling next
  | .forLoop opens partsOpen starts tests separates steps partsClose repeated => by
      rw [countingLoop_renamed, ← extent_renamed new]
      simp only [List.map_cons, List.map_append]
      exact .forLoop (spells_renamed new opens) (spells_renamed new partsOpen) (starts.renamed new)
        (tests.renamed new) (spells_renamed new separates) (steps.renamed new)
        (spells_renamed new partsClose) repeated.renamed
  | .branch opens testOpens tests testCloses chosen => by
      rw [Renaming.stmt, ← extent_renamed new]
      simp only [List.map_cons, List.map_append]
      exact .branch (spells_renamed new opens) (spells_renamed new testOpens) (tests.renamed new)
        (spells_renamed new testCloses) chosen.renamed
  | .alternative opens testOpens tests testCloses chosen belongs divides refused => by
      rw [Renaming.stmt, ← extent_renamed new]
      simp only [List.map_cons, List.map_append]
      exact .alternative (spells_renamed new opens) (spells_renamed new testOpens)
        (tests.renamed new) (spells_renamed new testCloses) chosen.renamed belongs
        (spells_renamed new divides) refused.renamed
  | .print opens printed closes => by
      rw [Renaming.stmt, ← extent_renamed new]
      simp only [List.map_cons, List.map_append, List.map_nil]
      exact .print (spells_renamed new opens) (printed.renamed new) (spells_renamed new closes)
  | .giveBack opens given closes => by
      rw [Renaming.stmt, ← extent_renamed new, ← new.lexeme_span]
      simp only [List.map_cons, List.map_append, List.map_nil]
      exact .giveBack (spells_renamed new opens) (given.renamed new) (spells_renamed new closes)
  | .loop opens testOpens tests testCloses repeated => by
      rw [Renaming.stmt, ← extent_renamed new]
      simp only [List.map_cons, List.map_append]
      exact .loop (spells_renamed new opens) (spells_renamed new testOpens) (tests.renamed new)
        (spells_renamed new testCloses) repeated.renamed
  | .block opens declarations closes => by
      rw [Renaming.stmt, ← extent_renamed new]
      simp only [List.map_cons, List.map_append, List.map_nil]
      exact .block (spells_renamed new opens) declarations.renamed (spells_renamed new closes)
  | .expression evaluated => .expression (evaluated.renamed new)

/-- Renamed declarations are sentences for the renamed trees. -/
theorem Declarations.renamed {attachment : Attachment} {first next : Nat} {lexemes : List Lexeme}
    {stmts : List Stmt} : Declarations attachment first lexemes stmts next →
      Declarations attachment first (lexemes.map new.lexeme) (new.stmts stmts) next
  | .none => .none
  | .more declared declarations => by
      rw [List.map_append]
      exact .more declared.renamed declarations.renamed

end

/-- Renamed lexemes form the renamed program. -/
theorem Forms.renamed {attachment : Attachment} {lexemes : List Lexeme} {program : Program}
    (forms : Forms attachment lexemes program) :
    Forms attachment (lexemes.map new.lexeme) (new.stmts program) :=
  forms.imp fun _ declarations => declarations.renamed new

end

end Lox.Grammar

namespace Lox.Parser

open Token

/-- Renamed lexemes are in the order in which they were. -/
theorem inOrder_renamed {lexemes : List Lexeme} (new : Renaming) (inOrder : InOrder lexemes) :
    InOrder (lexemes.map new.lexeme) where
  proper := by
    intro lexeme given
    obtain ⟨before, among, rfl⟩ := List.mem_map.1 given
    rw [new.lexeme_span]
    exact inOrder.proper before among
  ordered := by
    refine inOrder.ordered.map new.lexeme fun first second behind => ?_
    rwa [new.lexeme_span, new.lexeme_span]

/-- A lexeme has the token of its text with the new name, too. -/
theorem spelled_renamed {new : Renaming}
    (spelled : Spelling (.identifier new.name) new.name.toList) {lexeme : Lexeme}
    (before : Spelling lexeme.token lexeme.text.toList) :
    Spelling (new.lexeme lexeme).token (new.lexeme lexeme).text.toList := by
  obtain ⟨token, text, span⟩ := lexeme
  cases token with
  | identifier name =>
      simp only [Renaming.lexeme, Renaming.rename]
      split
      next => exact spelled
      next => exact before
  | symbol | string | number | invalid => exact before

/-- A renamed text is read without errors to the renamed program, apart from spans. -/
theorem parse_renamed (new : Renaming) {text : String} (clean : (parse text).errors = [])
    (spelled : Spelling (.identifier new.name) new.name.toList) :
    ∃ relabeling : Relabeling, relabeling.ids = id ∧
      (parse (new.text text)).program = relabeling.stmts (new.stmts (parse text).program) ∧
      (parse (new.text text)).errors = [] := by
  obtain ⟨lexed, forms⟩ := forms_of_clean clean
  obtain ⟨lexed', texts⟩ := lexemesOf_renamed lexed spelled
  have inOrder := inOrder_renamed new (lexemesOf_inOrder text)
  have before : ∀ lexeme ∈ (lexemesOf text).map new.lexeme,
      lexeme.span.start ≠ text.utf8ByteSize := by
    intro lexeme given
    obtain ⟨first, among, rfl⟩ := List.mem_map.1 given
    rw [new.lexeme_span]
    exact lexemesOf_before text first among
  have tokens : ∀ lexeme ∈ (lexemesOf text).map new.lexeme,
      Spelling lexeme.token lexeme.text.toList := by
    intro lexeme given
    obtain ⟨first, among, rfl⟩ := List.mem_map.1 given
    exact spelled_renamed spelled (lexeme_spelled lexed among)
  obtain ⟨relabeling, keeps, program, errors⟩ := parse_of_lexemes inOrder before tokens lexed'
    texts.symm
  rw [parseLexemes_of_forms (forms.renamed new)] at program errors
  exact ⟨relabeling, keeps, program, List.map_eq_nil_iff.1 errors⟩

end Lox.Parser
