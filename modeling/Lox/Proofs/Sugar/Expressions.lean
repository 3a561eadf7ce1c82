import Lox.Proofs.Label.Renumbering
import Lox.Proofs.Syntax.Grammar

namespace Lox.Grammar

open Lox.Parser (Level Operator Spells)
open Relabeling (unlabeled)

/-- Tokens make a tree of a part of the grammar when all lexemes that have the tokens form this tree
apart from labels, from any number on. -/
def Makes {α β : Type} (form : Nat → List Lexeme → α → Nat → Prop) (shape : α → β)
    (tokens : List Token) (tree : β) : Prop :=
  ∀ first lexemes, lexemes.map Lexeme.token = tokens →
    ∃ read next, form first lexemes read next ∧ shape read = tree

/-- Tokens that make a tree in one form make it in every form that follows. -/
theorem Makes.imp {α β : Type} {form other : Nat → List Lexeme → α → Nat → Prop} {shape : α → β}
    {tokens : List Token} {tree : β} (makes : Makes form shape tokens tree)
    (implied : ∀ {first lexemes read next}, form first lexemes read next →
      other first lexemes read next) : Makes other shape tokens tree := by
  intro first lexemes same
  obtain ⟨read, next, formed, shaped⟩ := makes first lexemes same
  exact ⟨read, next, implied formed, shaped⟩

/-- The last token is that of the last lexeme. -/
theorem split_last {lexemes : List Lexeme} {tokens : List Token} {token : Token}
    (same : lexemes.map Lexeme.token = tokens ++ [token]) :
    ∃ inside last, lexemes = inside ++ [last] ∧ inside.map Lexeme.token = tokens ∧
      last.token = token := by
  obtain ⟨inside, _, rfl, start, behind⟩ := List.map_eq_append_iff.1 same
  obtain ⟨last, _, rfl, closed, finished⟩ := List.map_eq_cons_iff.1 behind
  obtain rfl := List.map_eq_nil_iff.1 finished
  exact ⟨inside, last, rfl, start, closed⟩

/-- Operators are alike without labels if their operands are. -/
theorem node_unlabeled {left right other further : Expr}
    (first : unlabeled.expr other = unlabeled.expr left)
    (second : unlabeled.expr further = unlabeled.expr right) (operator : Operator)
    (place elsewhere : Span) :
    unlabeled.expr (node elsewhere other further operator) =
      unlabeled.expr (node place left right operator) := by
  cases operator <;> simp only [node, Relabeling.expr, first, second] <;> rfl

mutual

/-- The tokens of an expression make its tree, wherever they stand. -/
theorem Expression.makes {first next : Nat} {lexemes : List Lexeme} {expr : Expr} :
    Expression first lexemes expr next →
      Makes Expression unlabeled.expr (lexemes.map Lexeme.token) (unlabeled.expr expr)
  | .assign sign assigned => by
      intro first lexemes same
      obtain ⟨⟨_, text, span⟩, _, rfl, rfl, tail⟩ := List.map_eq_cons_iff.1 same
      obtain ⟨equal, _, rfl, signed, others⟩ := List.map_eq_cons_iff.1 tail
      obtain ⟨value, next, formed, shaped⟩ := assigned.makes (first + 1) _ others
      exact ⟨_, next, .assign (signed.trans sign) formed, congrArg (Expr.assign _ _) shaped⟩
  | .chain operands => operands.makes.imp .chain

/-- The tokens of an operand make its tree. -/
theorem Operand.makes {level : Level} {first next : Nat} {lexemes : List Lexeme} {expr : Expr} :
    Operand level first lexemes expr next →
      Makes (Operand level) unlabeled.expr (lexemes.map Lexeme.token) (unlabeled.expr expr)
  | .tighter below operands => operands.makes.imp (.tighter below)
  | .unary operand => operand.makes.imp .unary

/-- The tokens of a chain make its tree. -/
theorem Chain.makes {level : Level} {first next : Nat} {lexemes : List Lexeme} {expr : Expr} :
    Chain level first lexemes expr next →
      Makes (Chain level) unlabeled.expr (lexemes.map Lexeme.token) (unlabeled.expr expr)
  | .start operand joined => by
      intro first lexemes same
      rw [List.map_append] at same
      obtain ⟨_, _, rfl, start, others⟩ := List.map_eq_append_iff.1 same
      obtain ⟨left, middle, formed, shaped⟩ := operand.makes first _ start
      obtain ⟨expr, next, further, whole⟩ := joined.makes shaped middle _ others
      exact ⟨expr, next, .start formed further, whole⟩

/-- The tokens behind a left operand make the rest of the chain. -/
theorem ChainAfter.makes {level : Level} {first next : Nat} {lexemes : List Lexeme}
    {left other expr : Expr} :
    ChainAfter level first left lexemes expr next → unlabeled.expr other = unlabeled.expr left →
      Makes (ChainAfter level · other) unlabeled.expr (lexemes.map Lexeme.token)
        (unlabeled.expr expr)
  | .done, alike => by
      intro first lexemes same
      obtain rfl := List.map_eq_nil_iff.1 same
      exact ⟨other, first, .done, alike⟩
  | .more joins spelled operand joined, alike => by
      intro first lexemes same
      rw [List.map_cons, List.map_append] at same
      obtain ⟨sign, _, rfl, signed, tail⟩ := List.map_eq_cons_iff.1 same
      obtain ⟨_, _, rfl, start, others⟩ := List.map_eq_append_iff.1 tail
      obtain ⟨right, middle, formed, shaped⟩ := operand.makes first _ start
      obtain ⟨expr, next, further, whole⟩ :=
        joined.makes (node_unlabeled alike shaped _ _ sign.span) middle _ others
      exact ⟨expr, next, .more joins (signed.trans spelled) formed further, whole⟩

/-- The tokens of a prefixed expression make its tree. -/
theorem Unary.makes {first next : Nat} {lexemes : List Lexeme} {expr : Expr} :
    Unary first lexemes expr next →
      Makes Unary unlabeled.expr (lexemes.map Lexeme.token) (unlabeled.expr expr)
  | .operator applies spelled applied => by
      intro first lexemes same
      obtain ⟨sign, _, rfl, signed, others⟩ := List.map_eq_cons_iff.1 same
      obtain ⟨operand, next, formed, shaped⟩ := applied.makes first _ others
      exact ⟨_, next, .operator applies (signed.trans spelled) formed,
        congrArg (Expr.unary _ _) shaped⟩
  | .call called => called.makes.imp .call

/-- The tokens of a call make its tree. -/
theorem Call.makes {first next : Nat} {lexemes : List Lexeme} {expr : Expr} :
    Call first lexemes expr next →
      Makes Call unlabeled.expr (lexemes.map Lexeme.token) (unlabeled.expr expr)
  | .start operand given => by
      intro first lexemes same
      rw [List.map_append] at same
      obtain ⟨_, _, rfl, start, others⟩ := List.map_eq_append_iff.1 same
      obtain ⟨callee, middle, formed, shaped⟩ := operand.makes first _ start
      obtain ⟨expr, next, further, whole⟩ := given.makes shaped middle _ others
      exact ⟨expr, next, .start formed further, whole⟩

/-- The tokens behind a callee make the calls of it. -/
theorem CallAfter.makes {first next : Nat} {lexemes : List Lexeme} {callee other expr : Expr} :
    CallAfter first callee lexemes expr next → unlabeled.expr other = unlabeled.expr callee →
      Makes (CallAfter · other) unlabeled.expr (lexemes.map Lexeme.token) (unlabeled.expr expr)
  | .done, alike => by
      intro first lexemes same
      obtain rfl := List.map_eq_nil_iff.1 same
      exact ⟨other, first, .done, alike⟩
  | .more opens arguments closes called, alike => by
      intro first lexemes same
      rw [List.map_cons, List.map_append, List.map_cons] at same
      obtain ⟨opening, _, rfl, opened, tail⟩ := List.map_eq_cons_iff.1 same
      obtain ⟨_, _, rfl, start, behind⟩ := List.map_eq_append_iff.1 tail
      obtain ⟨closing, _, rfl, closed, others⟩ := List.map_eq_cons_iff.1 behind
      obtain ⟨given, middle, formed, shaped⟩ := arguments.makes first _ start
      have inner : unlabeled.expr (.call (other.span.to closing.span) closing.span other given) =
          _ := congrArg₂ (Expr.call (.empty 0) (.empty 0)) alike shaped
      obtain ⟨expr, next, further, whole⟩ := called.makes inner middle _ others
      exact ⟨expr, next, .more (opened.trans opens) formed (closed.trans closes) further, whole⟩

theorem ArgumentList.makes {first next : Nat} {lexemes : List Lexeme} {given : List Expr} :
    ArgumentList first lexemes given next →
      Makes ArgumentList unlabeled.exprs (lexemes.map Lexeme.token) (unlabeled.exprs given)
  | .none => by
      intro first lexemes same
      obtain rfl := List.map_eq_nil_iff.1 same
      exact ⟨[], first, .none, rfl⟩
  | .some arguments short => by
      intro first lexemes same
      obtain ⟨others, next, formed, shaped⟩ := arguments.makes first lexemes same
      have counts := congrArg List.length shaped
      rw [Relabeling.exprs_length, Relabeling.exprs_length] at counts
      exact ⟨others, next, .some formed (counts ▸ short), shaped⟩

/-- The tokens of arguments make their trees. -/
theorem Arguments.makes {first next : Nat} {lexemes : List Lexeme} {given : List Expr} :
    Arguments first lexemes given next →
      Makes Arguments unlabeled.exprs (lexemes.map Lexeme.token) (unlabeled.exprs given)
  | .last argument => by
      intro first lexemes same
      obtain ⟨expr, next, formed, shaped⟩ := argument.makes first lexemes same
      exact ⟨[expr], next, .last formed, congrArg (· :: []) shaped⟩
  | .more argument separated arguments => by
      intro first lexemes same
      rw [List.map_append, List.map_cons] at same
      obtain ⟨_, _, rfl, start, behind⟩ := List.map_eq_append_iff.1 same
      obtain ⟨comma, _, rfl, separates, others⟩ := List.map_eq_cons_iff.1 behind
      obtain ⟨expr, middle, formed, shaped⟩ := argument.makes first _ start
      obtain ⟨given, next, further, rest⟩ := arguments.makes middle _ others
      exact ⟨expr :: given, next, .more formed (separates.trans separated) further,
        congrArg₂ List.cons shaped rest⟩

/-- The tokens of a primary expression make its tree. -/
theorem Primary.makes {first next : Nat} {lexemes : List Lexeme} {expr : Expr} :
    Primary first lexemes expr next →
      Makes Primary unlabeled.expr (lexemes.map Lexeme.token) (unlabeled.expr expr)
  | .literal denotes => by
      intro first lexemes same
      obtain ⟨⟨_, text, span⟩, _, rfl, rfl, finished⟩ := List.map_eq_cons_iff.1 same
      obtain rfl := List.map_eq_nil_iff.1 finished
      exact ⟨_, first, .literal denotes, rfl⟩
  | .variable => by
      intro first lexemes same
      obtain ⟨⟨_, text, span⟩, _, rfl, rfl, finished⟩ := List.map_eq_cons_iff.1 same
      obtain rfl := List.map_eq_nil_iff.1 finished
      exact ⟨_, first + 1, .variable, rfl⟩
  | .group opens grouped closes => by
      intro first lexemes same
      rw [List.map_cons, List.map_append] at same
      obtain ⟨opening, _, rfl, opened, tail⟩ := List.map_eq_cons_iff.1 same
      obtain ⟨_, closing, rfl, start, closed⟩ := split_last tail
      obtain ⟨inner, next, formed, shaped⟩ := grouped.makes first _ start
      exact ⟨_, next, .group (opened.trans opens) formed (closed.trans closes),
        congrArg (Expr.group _) shaped⟩

end

theorem OptionalExpression.makes {first next : Nat} {lexemes : List Lexeme} {given : Option Expr} :
    OptionalExpression first lexemes given next →
      Makes OptionalExpression (Option.map unlabeled.expr) (lexemes.map Lexeme.token)
        (given.map unlabeled.expr)
  | .none => by
      intro first lexemes same
      obtain rfl := List.map_eq_nil_iff.1 same
      exact ⟨_, first, .none, rfl⟩
  | .some given => by
      intro first lexemes same
      obtain ⟨expr, next, formed, shaped⟩ := given.makes first lexemes same
      exact ⟨_, next, .some formed, congrArg Option.some shaped⟩

/-- The tokens of parameters make the same names. -/
theorem Parameters.makes {lexemes others : List Lexeme} {names : List Name} :
    Parameters lexemes names → others.map Lexeme.token = lexemes.map Lexeme.token →
      ∃ read, Parameters others read ∧
        read.map unlabeled.located = names.map unlabeled.located
  | .last, same => by
      obtain ⟨⟨_, text, span⟩, _, rfl, rfl, finished⟩ := List.map_eq_cons_iff.1 same
      obtain rfl := List.map_eq_nil_iff.1 finished
      exact ⟨_, .last, rfl⟩
  | .more separated parameters, same => by
      obtain ⟨⟨_, text, span⟩, _, rfl, rfl, tail⟩ := List.map_eq_cons_iff.1 same
      obtain ⟨comma, _, rfl, separates, others⟩ := List.map_eq_cons_iff.1 tail
      obtain ⟨names, formed, shaped⟩ := parameters.makes others
      exact ⟨_, .more (separates.trans separated) formed, congrArg (List.cons _) shaped⟩

theorem ParameterList.makes {lexemes others : List Lexeme} {names : List Name} :
    ParameterList lexemes names → others.map Lexeme.token = lexemes.map Lexeme.token →
      ∃ read, ParameterList others read ∧
        read.map unlabeled.located = names.map unlabeled.located
  | .none, same => by
      obtain rfl := List.map_eq_nil_iff.1 same
      exact ⟨[], .none, rfl⟩
  | .some parameters short, same => by
      obtain ⟨names, formed, shaped⟩ := parameters.makes same
      have counts := congrArg List.length shaped
      rw [List.length_map, List.length_map] at counts
      exact ⟨names, .some formed (counts ▸ short), shaped⟩

theorem Initializer.makes {first next : Nat} {lexemes : List Lexeme} {value : Option Expr} :
    Initializer first lexemes value next →
      Makes Initializer (Option.map unlabeled.expr) (lexemes.map Lexeme.token)
        (value.map unlabeled.expr)
  | .none => by
      intro first lexemes same
      obtain rfl := List.map_eq_nil_iff.1 same
      exact ⟨_, first, .none, rfl⟩
  | .some sign value => by
      intro first lexemes same
      obtain ⟨equal, _, rfl, signed, others⟩ := List.map_eq_cons_iff.1 same
      obtain ⟨expr, next, formed, shaped⟩ := value.makes first _ others
      exact ⟨_, next, .some (signed.trans sign) formed, congrArg Option.some shaped⟩

/-- The tokens of a variable's declaration make its tree. -/
theorem VariableDeclaration.makes {first next : Nat} {lexemes : List Lexeme} {stmt : Stmt} :
    VariableDeclaration first lexemes stmt next →
      Makes VariableDeclaration unlabeled.stmt (lexemes.map Lexeme.token) (unlabeled.stmt stmt)
  | .declare opens initializer closes => by
      intro first lexemes same
      rw [List.map_cons, List.map_cons, List.map_append] at same
      obtain ⟨keyword, _, rfl, opened, named⟩ := List.map_eq_cons_iff.1 same
      obtain ⟨⟨_, text, span⟩, _, rfl, rfl, tail⟩ := List.map_eq_cons_iff.1 named
      obtain ⟨_, closing, rfl, start, closed⟩ := split_last tail
      obtain ⟨value, next, formed, shaped⟩ := initializer.makes first _ start
      exact ⟨_, next, .declare (opened.trans opens) formed (closed.trans closes),
        congrArg (Stmt.variable _ _) shaped⟩

/-- An expression is a statement before a semicolon. -/
theorem expressionStatement_makes {tokens : List Token} {value : Expr}
    (evaluated : Makes Expression unlabeled.expr tokens value) :
    Makes ExpressionStatement unlabeled.stmt (tokens ++ [.symbol .semicolon])
      (.expression (.empty 0) value) := by
  intro first lexemes same
  obtain ⟨_, closing, rfl, start, closed⟩ := split_last same
  obtain ⟨value, next, formed, rfl⟩ := evaluated first _ start
  exact ⟨_, next, .evaluate formed closed, rfl⟩

theorem ExpressionStatement.makes {first next : Nat} {lexemes : List Lexeme} {stmt : Stmt} :
    ExpressionStatement first lexemes stmt next →
      Makes ExpressionStatement unlabeled.stmt (lexemes.map Lexeme.token) (unlabeled.stmt stmt)
  | .evaluate evaluated closes => by
      rw [List.map_append, List.map_singleton, closes]
      exact expressionStatement_makes evaluated.makes

/-- The tokens of a loop's start make its statement. -/
theorem LoopStart.makes {first next : Nat} {lexemes : List Lexeme} {initial : Option Stmt} :
    LoopStart first lexemes initial next →
      Makes LoopStart (Option.map unlabeled.stmt) (lexemes.map Lexeme.token)
        (initial.map unlabeled.stmt)
  | .none closes => by
      intro first lexemes same
      obtain ⟨closing, _, rfl, closed, finished⟩ := List.map_eq_cons_iff.1 same
      obtain rfl := List.map_eq_nil_iff.1 finished
      exact ⟨_, first, .none (closed.trans closes), rfl⟩
  | .variable declared => by
      intro first lexemes same
      obtain ⟨stmt, next, formed, shaped⟩ := declared.makes first lexemes same
      exact ⟨_, next, .variable formed, congrArg Option.some shaped⟩
  | .expression evaluated => by
      intro first lexemes same
      obtain ⟨stmt, next, formed, shaped⟩ := evaluated.makes first lexemes same
      exact ⟨_, next, .expression formed, congrArg Option.some shaped⟩

end Lox.Grammar
