import Lox.Proofs.Sugar.Statements
import Lox.Proofs.Syntax.Keywords
import Lox.Proofs.Syntax.StatementSentences

namespace Lox.Grammar

open Lox.Parser (Spells leading)
open Relabeling (unlabeled)

/-- Lexemes form a statement before others when no `else` behind them goes on with it. -/
def StatementBefore (context lexemes : List Lexeme) (stmt : Stmt) : Prop :=
  ∃ first dangling next, Statement .nearest first lexemes stmt dangling next ∧
    (dangling = true → leading context ≠ some .else)

/-- A statement to which no `else` belongs stands before anything. -/
theorem StatementBefore.of_closed {first next : Nat} {lexemes : List Lexeme} {stmt : Stmt}
    (form : Statement .nearest first lexemes stmt false next) (context : List Lexeme) :
    StatementBefore context lexemes stmt :=
  ⟨first, false, next, form, fun dangles => absurd dangles Bool.false_ne_true⟩

/-- Tokens make a statement before others when no `else` behind them goes on with it. -/
def MakesBefore (context : List Lexeme) (tokens : List Token) (stmt : Stmt) : Prop :=
  ∃ dangling, MakesStatement dangling tokens stmt ∧ (dangling = true → leading context ≠ some .else)

/-- A statement is read with enough fuel, up to what follows. -/
theorem Statement.read {first next : Nat} {lexemes rest : List Lexeme} {stmt : Stmt}
    {dangling : Bool} (form : Statement .nearest first lexemes stmt dangling next)
    (free : dangling = true → leading rest ≠ some .else) :
    let state : Parser.State := ⟨lexemes ++ rest, 0, first, #[]⟩
    Parser.statement 0 (state.need 18) state =
      .ok stmt ⟨rest, Parser.endOf 0 lexemes, next, #[]⟩ := by
  intro state
  have accepts : Parser.Accepts _ 0 first lexemes stmt next rest :=
    (Parser.statementsAccepted 0 (state.need 18)).statement form free
  have progress := (Parser.statementsProgress 0 (state.need 18)).statement state
  rcases accepts #[] with given | ⟨last, out⟩
  · exact given
  · exact absurd (progress.lacks out) (Nat.lt_irrefl _)

/-- Lexemes start with one statement only. -/
theorem StatementBefore.unique {lexemes others rest further : List Lexeme} {stmt other : Stmt}
    (stands : StatementBefore rest lexemes stmt) (also : StatementBefore further others other)
    (same : lexemes ++ rest = others ++ further) :
    rest = further ∧ unlabeled.stmt stmt = unlabeled.stmt other := by
  obtain ⟨first, dangling, next, form, free⟩ := stands
  obtain ⟨_, ends, _, formed, open_⟩ := also
  obtain ⟨again, last, formed, shaped⟩ := formed.makes first others rfl
  have read := form.read free
  rw [same] at read
  have both := (formed.read open_).symm.trans read
  injection both with tree state
  injection state with behind
  exact ⟨behind.symm, tree ▸ shaped⟩

/-- Behind some lexemes a part of a program holds a statement, and the part stays as it is with
other tokens that make the same statement in its place. -/
def Holds (context before tail : List Lexeme) (whole : List Token → Prop) : Prop :=
  ∃ inner behind stmt, tail = inner ++ behind ∧ StatementBefore (behind ++ context) inner stmt ∧
    ∀ tokens, MakesBefore (behind ++ context) tokens (unlabeled.stmt stmt) →
      whole (before.map Lexeme.token ++ (tokens ++ behind.map Lexeme.token))

namespace Holds

variable {context start before tail others : List Lexeme} {whole other : List Token → Prop}

/-- A place inside tokens is a place inside more tokens around them. -/
theorem within (holds : Holds (others ++ context) before tail whole)
    (carried : ∀ tokens, whole tokens →
      other (start.map Lexeme.token ++ (tokens ++ others.map Lexeme.token))) :
    Holds context (start ++ before) (tail ++ others) other := by
  obtain ⟨inner, behind, stmt, rfl, stands, replaced⟩ := holds
  refine ⟨inner, behind ++ others, stmt, List.append_assoc .., ?_, fun tokens given => ?_⟩
  · rwa [List.append_assoc]
  · rw [List.append_assoc] at given
    simpa only [List.map_append, List.append_assoc] using carried _ (replaced tokens given)

/-- A place is a place behind further tokens. -/
theorem behind (holds : Holds context before tail whole)
    (carried : ∀ tokens, whole tokens → other (start.map Lexeme.token ++ tokens)) :
    Holds context (start ++ before) tail other := by
  obtain ⟨inner, behind, stmt, rfl, stands, replaced⟩ := holds
  refine ⟨inner, behind, stmt, rfl, stands, fun tokens given => ?_⟩
  simpa only [List.map_append, List.append_assoc] using carried _ (replaced tokens given)

end Holds

mutual

/-- A `for` among the lexemes of a declaration is the start of a loop in it. -/
theorem Declaration.holds {context before tail : List Lexeme} {keyword : Lexeme}
    {first next : Nat} {lexemes : List Lexeme} {stmt : Stmt} (opens : Spells .for keyword) :
    Declaration .nearest first lexemes stmt next → leading context ≠ some .else →
      lexemes = before ++ keyword :: tail →
        Holds context before (keyword :: tail)
          (Makes (Declaration .nearest) unlabeled.stmt · (unlabeled.stmt stmt))
  | .variable declared, _, split => declared.plain.absurd opens split
  | .statement stated, free, split => by
      obtain ⟨inner, behind, stmt, same, stands, replaced⟩ :=
        stated.holds opens (fun _ => free) split
      refine ⟨inner, behind, stmt, same, stands, fun tokens given => ?_⟩
      obtain ⟨dangling, makes, -⟩ := replaced tokens given
      exact makes.imp .statement
  | .function begins listOpens parameters listCloses bodyOpens declarations bodyCloses, _,
      split => by
      obtain ⟨later, rfl, inside⟩ := (header_plain begins listOpens parameters listCloses
        bodyOpens).skip opens (by simpa using split)
      obtain ⟨others, body, same⟩ := (Plain.sign bodyCloses .nil).ahead opens inside
      rw [same]
      refine (declarations.holds opens ?_ body).within fun tokens makes => ?_
      · rw [List.cons_append, Parser.leading_cons, Parser.symbol?_eq_some.2 bodyCloses]
        decide
      · rw [header_tokens begins listOpens listCloses bodyOpens, List.map_singleton, bodyCloses]
        exact function_makes parameters makes

/-- A `for` among the lexemes of a statement is the start of a loop in it. -/
theorem Statement.holds {context before tail : List Lexeme} {keyword : Lexeme}
    {first next : Nat} {lexemes : List Lexeme} {stmt : Stmt} {dangling : Bool}
    (opens : Spells .for keyword) :
    Statement .nearest first lexemes stmt dangling next →
      (dangling = true → leading context ≠ some .else) → lexemes = before ++ keyword :: tail →
        Holds context before (keyword :: tail) (MakesBefore context · (unlabeled.stmt stmt))
  | .forLoop begins partsOpen starts tests separates steps partsClose repeated, free, split => by
      have whole := Statement.forLoop begins partsOpen starts tests separates steps partsClose
        repeated
      cases before with
      | nil =>
          rw [List.nil_append] at split
          rw [split] at whole
          refine ⟨keyword :: tail, [], _, by simp, ⟨_, _, _, whole, free⟩, fun tokens given => ?_⟩
          simpa [split] using given
      | cons lexeme before =>
          obtain ⟨rfl, split⟩ := List.cons.inj split
          obtain ⟨later, rfl, inside⟩ := (parts_plain partsOpen starts tests separates steps
            partsClose).skip opens (by simpa using split)
          rw [← List.cons_append]
          refine (repeated.holds opens free inside).behind ?_
          rintro tokens ⟨dangling, makes, ends⟩
          refine ⟨dangling, ?_, ends⟩
          rw [parts_tokens begins partsOpen separates partsClose, countingLoop_unlabeled]
          exact countingLoop_makes starts.makes tests.makes steps.makes makes
  | .branch begins testOpens tests testCloses chosen, free, split => by
      obtain ⟨later, rfl, inside⟩ := (condition_plain begins (by decide) testOpens tests
        testCloses).skip opens (by simpa using split)
      refine (chosen.holds opens (fun _ => free rfl) inside).behind ?_
      rintro tokens ⟨dangling, makes, -⟩
      refine ⟨true, ?_, free⟩
      rw [condition_tokens begins testOpens testCloses]
      exact branch_makes tests.makes makes
  | .alternative begins testOpens tests testCloses chosen belongs divides refused, free, split => by
      obtain ⟨later, rfl, inside⟩ := (condition_plain begins (by decide) testOpens tests
        testCloses).skip opens (by simpa using split)
      have refusing := Parser.symbol?_eq_some.2 divides
      rcases split_at inside with ⟨others, inside, same⟩ | ⟨later, rfl, behind⟩
      · rw [same]
        refine (chosen.holds opens (fun open_ => ?_) inside).within ?_
        · cases open_.symm.trans (belongs rfl)
        rintro tokens ⟨dangling, makes, ends⟩
        -- What stands in the place of the loop does not take the `else` either.
        cases dangling with
        | true => exact absurd refusing (ends rfl)
        | false =>
            refine ⟨_, ?_, free⟩
            rw [condition_tokens begins testOpens testCloses, List.map_cons, divides]
            exact alternative_makes tests.makes makes refused.makes
      · obtain ⟨later, rfl, deeper⟩ := (Plain.sign divides .nil).skip opens behind
        rw [← List.append_assoc, ← List.append_assoc]
        refine (refused.holds opens free deeper).behind ?_
        rintro tokens ⟨dangling, makes, ends⟩
        refine ⟨dangling, ?_, ends⟩
        rw [List.map_append, List.map_append, List.append_assoc, List.append_assoc,
          condition_tokens begins testOpens testCloses, List.map_singleton, divides]
        exact alternative_makes tests.makes (belongs rfl ▸ chosen.makes) makes
  | .print begins printed closes, _, split =>
      (Plain.sign begins (printed.plain.append (.sign closes .nil))).absurd opens split
  | .giveBack begins given closes, _, split => by
      cases before with
      | nil =>
          obtain ⟨rfl, -⟩ := List.cons.inj split
          cases begins.symm.trans opens
      | cons lexeme before =>
          exact (given.plain.append (.sign closes .nil)).absurd opens (List.cons.inj split).2
  | .loop begins testOpens tests testCloses repeated, free, split => by
      obtain ⟨later, rfl, inside⟩ := (condition_plain begins (by decide) testOpens tests
        testCloses).skip opens (by simpa using split)
      refine (repeated.holds opens free inside).behind ?_
      rintro tokens ⟨dangling, makes, ends⟩
      refine ⟨dangling, ?_, ends⟩
      rw [condition_tokens begins testOpens testCloses]
      exact loop_makes tests.makes makes
  | .block begins declarations closes, _, split => by
      obtain ⟨later, rfl, inside⟩ := (Plain.sign begins .nil).skip opens split
      obtain ⟨others, body, same⟩ := (Plain.sign closes .nil).ahead opens inside
      rw [same]
      refine (declarations.holds opens ?_ body).within fun tokens makes => ?_
      · rw [List.cons_append, Parser.leading_cons, Parser.symbol?_eq_some.2 closes]
        decide
      · refine ⟨false, ?_, nofun⟩
        rw [List.map_singleton, List.map_singleton, begins, closes]
        exact block_makes makes
  | .expression evaluated, _, split => evaluated.plain.absurd opens split

/-- A `for` among the lexemes of declarations is the start of a loop in them. -/
theorem Declarations.holds {context before tail : List Lexeme} {keyword : Lexeme}
    {first next : Nat} {lexemes : List Lexeme} {stmts : List Stmt} (opens : Spells .for keyword) :
    Declarations .nearest first lexemes stmts next → leading context ≠ some .else →
      lexemes = before ++ keyword :: tail →
        Holds context before (keyword :: tail) (MakesDeclarations · (unlabeled.stmts stmts))
  | .none, _, split => by simp at split
  | .more declared declarations, free, split => by
      rcases split_at split with ⟨others, inside, same⟩ | ⟨later, rfl, inside⟩
      · rw [same, ← List.nil_append before]
        refine (declared.holds opens ?_ inside).within fun tokens makes => ?_
        · exact Parser.declarations_ne_else declarations free
        · rw [List.map_nil, List.nil_append]
          exact more_makes makes declarations.makes
      · refine (declarations.holds opens free inside).behind fun tokens makes => ?_
        exact more_makes declared.makes makes

end

end Lox.Grammar
