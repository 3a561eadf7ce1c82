import Lox.Proofs.Sugar.Expressions

namespace Lox.Grammar

open Lox.Parser (Spells)
open Relabeling (unlabeled)

/-- Tokens make a statement that ends with an `if` without an `else`, or does not do so. -/
abbrev MakesStatement (dangling : Bool) : List Token → Stmt → Prop :=
  Makes (Statement .nearest · · · dangling ·) unlabeled.stmt

abbrev MakesDeclarations : List Token → List Stmt → Prop :=
  Makes (Declarations .nearest) unlabeled.stmts

/-- The tree of a counting loop without labels has its parts without labels. -/
theorem countingLoop_unlabeled (span : Span) (initial : Option Stmt) (test step : Option Expr)
    (body : Stmt) :
    unlabeled.stmt (countingLoop span initial test step body) =
      countingLoop (.empty 0) (initial.map unlabeled.stmt) (test.map unlabeled.expr)
        (step.map unlabeled.expr) (unlabeled.stmt body) := by
  cases initial <;> cases test <;> cases step <;>
    simp [countingLoop, loopTest, loopBody, loopBlock, Relabeling.stmt, Relabeling.stmts,
      Relabeling.expr] <;>
    rfl

section
variable {tokens others further : List Token} {test : Expr} {body consequent other stmt : Stmt}
  {stmts : List Stmt} {inner dangling : Bool}

/-- The parts of a `for` loop make its tree. -/
theorem countingLoop_makes {start middle last : List Token} {initial : Option Stmt}
    {test step : Option Expr}
    (starts : Makes LoopStart (Option.map unlabeled.stmt) start initial)
    (tests : Makes OptionalExpression (Option.map unlabeled.expr) middle test)
    (steps : Makes OptionalExpression (Option.map unlabeled.expr) last step)
    (repeated : MakesStatement dangling tokens body) :
    MakesStatement dangling
      (.symbol .for :: .symbol .leftParen ::
        (start ++ (middle ++ .symbol .semicolon :: (last ++ .symbol .rightParen :: tokens))))
      (countingLoop (.empty 0) initial test step body) := by
  intro first lexemes same
  obtain ⟨keyword, _, rfl, opens, tail⟩ := List.map_eq_cons_iff.1 same
  obtain ⟨opening, _, rfl, partsOpen, parts⟩ := List.map_eq_cons_iff.1 tail
  obtain ⟨_, _, rfl, begin_, parts⟩ := List.map_eq_append_iff.1 parts
  obtain ⟨_, _, rfl, between, parts⟩ := List.map_eq_append_iff.1 parts
  obtain ⟨separator, _, rfl, separates, parts⟩ := List.map_eq_cons_iff.1 parts
  obtain ⟨_, _, rfl, ends, parts⟩ := List.map_eq_append_iff.1 parts
  obtain ⟨closing, _, rfl, partsClose, rest⟩ := List.map_eq_cons_iff.1 parts
  obtain ⟨initial, second, started, rfl⟩ := starts first _ begin_
  obtain ⟨test, third, tested, rfl⟩ := tests second _ between
  obtain ⟨step, fourth, stepped, rfl⟩ := steps third _ ends
  obtain ⟨body, next, formed, rfl⟩ := repeated fourth _ rest
  exact ⟨_, next, .forLoop opens partsOpen started tested separates stepped partsClose formed,
    countingLoop_unlabeled _ initial test step body⟩

/-- What follows a keyword starts with a condition in parentheses. -/
theorem split_condition {symbol : Symbol} {lexemes : List Lexeme}
    (same : lexemes.map Lexeme.token =
      .symbol symbol :: .symbol .leftParen :: (tokens ++ .symbol .rightParen :: others)) :
    ∃ keyword opening inside closing rest,
      lexemes = keyword :: opening :: (inside ++ closing :: rest) ∧ Spells symbol keyword ∧
        Spells .leftParen opening ∧ inside.map Lexeme.token = tokens ∧
        Spells .rightParen closing ∧ rest.map Lexeme.token = others := by
  obtain ⟨keyword, _, rfl, opens, tail⟩ := List.map_eq_cons_iff.1 same
  obtain ⟨opening, _, rfl, testOpens, parts⟩ := List.map_eq_cons_iff.1 tail
  obtain ⟨inside, _, rfl, start, behind⟩ := List.map_eq_append_iff.1 parts
  obtain ⟨closing, rest, rfl, testCloses, further⟩ := List.map_eq_cons_iff.1 behind
  exact ⟨keyword, opening, inside, closing, rest, rfl, opens, testOpens, start, testCloses, further⟩

/-- A condition and a statement make a branch. -/
theorem branch_makes (tests : Makes Expression unlabeled.expr tokens test)
    (chosen : MakesStatement inner others consequent) :
    MakesStatement true
      (.symbol .if :: .symbol .leftParen :: (tokens ++ .symbol .rightParen :: others))
      (.branch (.empty 0) test consequent none) := by
  intro first lexemes same
  obtain ⟨keyword, opening, _, closing, _, rfl, opens, testOpens, start, testCloses, rest⟩ :=
    split_condition same
  obtain ⟨test, second, tested, rfl⟩ := tests first _ start
  obtain ⟨consequent, next, formed, rfl⟩ := chosen second _ rest
  exact ⟨_, next, .branch opens testOpens tested testCloses formed, rfl⟩

/-- A branch is followed by `else` where no other branch could take it. -/
theorem alternative_makes (tests : Makes Expression unlabeled.expr tokens test)
    (chosen : MakesStatement false others consequent)
    (refused : MakesStatement dangling further other) :
    MakesStatement dangling
      (.symbol .if :: .symbol .leftParen ::
        (tokens ++ .symbol .rightParen :: (others ++ .symbol .else :: further)))
      (.branch (.empty 0) test consequent (some other)) := by
  intro first lexemes same
  obtain ⟨keyword, opening, _, closing, _, rfl, opens, testOpens, start, testCloses, parts⟩ :=
    split_condition same
  obtain ⟨_, _, rfl, middle, behind⟩ := List.map_eq_append_iff.1 parts
  obtain ⟨otherwise, _, rfl, divides, rest⟩ := List.map_eq_cons_iff.1 behind
  obtain ⟨test, second, tested, rfl⟩ := tests first _ start
  obtain ⟨consequent, third, formed, rfl⟩ := chosen second _ middle
  obtain ⟨other, next, against, rfl⟩ := refused third _ rest
  exact ⟨_, next,
    .alternative opens testOpens tested testCloses formed (fun _ => rfl) divides against, rfl⟩

/-- A condition and a statement make a loop. -/
theorem loop_makes (tests : Makes Expression unlabeled.expr tokens test)
    (repeated : MakesStatement dangling others body) :
    MakesStatement dangling
      (.symbol .while :: .symbol .leftParen :: (tokens ++ .symbol .rightParen :: others))
      (.loop (.empty 0) test body) := by
  intro first lexemes same
  obtain ⟨keyword, opening, _, closing, _, rfl, opens, testOpens, start, testCloses, rest⟩ :=
    split_condition same
  obtain ⟨test, second, tested, rfl⟩ := tests first _ start
  obtain ⟨body, next, formed, rfl⟩ := repeated second _ rest
  exact ⟨_, next, .loop opens testOpens tested testCloses formed, rfl⟩

/-- Declarations between braces make a block. -/
theorem block_makes (declarations : MakesDeclarations tokens stmts) :
    MakesStatement false (.symbol .leftBrace :: (tokens ++ [.symbol .rightBrace]))
      (.block (.empty 0) stmts) := by
  intro first lexemes same
  obtain ⟨leftBrace, _, rfl, opens, tail⟩ := List.map_eq_cons_iff.1 same
  obtain ⟨_, rightBrace, rfl, inside, closes⟩ := split_last tail
  obtain ⟨body, next, formed, rfl⟩ := declarations first _ inside
  exact ⟨_, next, .block opens formed closes, rfl⟩

theorem none_makes : MakesDeclarations [] [] := by
  intro first lexemes same
  obtain rfl := List.map_eq_nil_iff.1 same
  exact ⟨[], first, .none, rfl⟩

/-- A declaration in front of others makes one tree more. -/
theorem more_makes (declared : Makes (Declaration .nearest) unlabeled.stmt tokens stmt)
    (declarations : MakesDeclarations others stmts) :
    MakesDeclarations (tokens ++ others) (stmt :: stmts) := by
  intro first lexemes same
  obtain ⟨_, _, rfl, start, rest⟩ := List.map_eq_append_iff.1 same
  obtain ⟨stmt, middle, formed, rfl⟩ := declared first _ start
  obtain ⟨stmts, next, further, rfl⟩ := declarations middle _ rest
  exact ⟨_, next, .more formed further, rfl⟩

/-- A name, parameters and a body make a function. -/
theorem function_makes {given : List Lexeme} {names : List Name} {name : String}
    (parameters : ParameterList given names) (declarations : MakesDeclarations tokens stmts) :
    Makes (Declaration .nearest) unlabeled.stmt
      (.symbol .fun :: .identifier name :: .symbol .leftParen ::
        (given.map Lexeme.token ++
          .symbol .rightParen :: .symbol .leftBrace :: (tokens ++ [.symbol .rightBrace])))
      (.function (.empty 0) ⟨name, .empty 0⟩ (names.map unlabeled.located) stmts) := by
  intro first lexemes same
  obtain ⟨keyword, _, rfl, opens, named⟩ := List.map_eq_cons_iff.1 same
  obtain ⟨⟨_, text, span⟩, _, rfl, rfl, tail⟩ := List.map_eq_cons_iff.1 named
  obtain ⟨opening, _, rfl, listOpens, parts⟩ := List.map_eq_cons_iff.1 tail
  obtain ⟨_, _, rfl, listed, parts⟩ := List.map_eq_append_iff.1 parts
  obtain ⟨closing, _, rfl, listCloses, parts⟩ := List.map_eq_cons_iff.1 parts
  obtain ⟨leftBrace, _, rfl, bodyOpens, parts⟩ := List.map_eq_cons_iff.1 parts
  obtain ⟨_, rightBrace, rfl, inside, bodyCloses⟩ := split_last parts
  obtain ⟨names, others, shaped⟩ := parameters.makes listed
  obtain ⟨body, next, formed, rfl⟩ := declarations first _ inside
  exact ⟨_, next, .function opens listOpens others listCloses bodyOpens formed bodyCloses,
    congrArg (Stmt.function _ _ · _) shaped⟩

end

mutual

/-- The tokens of a declaration make its tree. -/
theorem Declaration.makes {first next : Nat} {lexemes : List Lexeme} {stmt : Stmt} :
    Declaration .nearest first lexemes stmt next →
      Makes (Declaration .nearest) unlabeled.stmt (lexemes.map Lexeme.token) (unlabeled.stmt stmt)
  | .function opens listOpens parameters listCloses bodyOpens declarations bodyCloses => by
      simp only [List.map_cons, List.map_append, List.map_nil]
      rw [opens, listOpens, listCloses, bodyOpens, bodyCloses]
      exact function_makes parameters declarations.makes
  | .variable declared => declared.makes.imp .variable
  | .statement stated => stated.makes.imp .statement

/-- The tokens of a statement make its tree. -/
theorem Statement.makes {first next : Nat} {lexemes : List Lexeme} {stmt : Stmt}
    {dangling : Bool} : Statement .nearest first lexemes stmt dangling next →
      MakesStatement dangling (lexemes.map Lexeme.token) (unlabeled.stmt stmt)
  | .forLoop opens partsOpen starts tests separates steps partsClose repeated => by
      simp only [List.map_cons, List.map_append]
      rw [opens, partsOpen, separates, partsClose, countingLoop_unlabeled]
      exact countingLoop_makes starts.makes tests.makes steps.makes repeated.makes
  | .branch opens testOpens tests testCloses chosen => by
      simp only [List.map_cons, List.map_append]
      rw [opens, testOpens, testCloses]
      exact branch_makes tests.makes chosen.makes
  | .alternative opens testOpens tests testCloses chosen belongs divides refused => by
      simp only [List.map_cons, List.map_append]
      rw [opens, testOpens, testCloses, divides]
      exact alternative_makes tests.makes (belongs rfl ▸ chosen.makes) refused.makes
  | .print opens printed closes => by
      intro first lexemes same
      rw [List.map_cons, List.map_append] at same
      obtain ⟨keyword, _, rfl, opened, tail⟩ := List.map_eq_cons_iff.1 same
      obtain ⟨_, closing, rfl, start, closed⟩ := split_last tail
      obtain ⟨value, next, formed, shaped⟩ := printed.makes first _ start
      exact ⟨_, next, .print (opened.trans opens) formed (closed.trans closes),
        congrArg (Stmt.print _) shaped⟩
  | .giveBack opens given closes => by
      intro first lexemes same
      rw [List.map_cons, List.map_append] at same
      obtain ⟨keyword, _, rfl, opened, tail⟩ := List.map_eq_cons_iff.1 same
      obtain ⟨_, closing, rfl, start, closed⟩ := split_last tail
      obtain ⟨value, next, formed, shaped⟩ := given.makes first _ start
      exact ⟨_, next, .giveBack (opened.trans opens) formed (closed.trans closes),
        congrArg (Stmt.giveBack _ _) shaped⟩
  | .loop opens testOpens tests testCloses repeated => by
      simp only [List.map_cons, List.map_append]
      rw [opens, testOpens, testCloses]
      exact loop_makes tests.makes repeated.makes
  | .block opens declarations closes => by
      simp only [List.map_cons, List.map_append, List.map_nil]
      rw [opens, closes]
      exact block_makes declarations.makes
  | .expression evaluated => evaluated.makes.imp .expression

/-- The tokens of declarations make their trees. -/
theorem Declarations.makes {first next : Nat} {lexemes : List Lexeme} {stmts : List Stmt} :
    Declarations .nearest first lexemes stmts next →
      MakesDeclarations (lexemes.map Lexeme.token) (unlabeled.stmts stmts)
  | .none => none_makes
  | .more declared declarations => by
      rw [List.map_append]
      exact more_makes declared.makes declarations.makes

end

end Lox.Grammar
