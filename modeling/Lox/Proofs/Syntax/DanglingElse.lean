import Lox.Proofs.Syntax.Grammar

namespace Lox.Grammar

open Lox.Parser (Spells)

/-- An `else` behind the statement of an `if` belongs to that `if`, or the statement takes it. -/
theorem Statement.otherwise {first second third next : Nat}
    {keyword opening closing otherwise : Lexeme} {lexemes rest others : List Lexeme} {test : Expr}
    {consequent other : Stmt} {inner further : Bool}
    (chosen : Statement .nearest second rest consequent inner third) (opens : Spells .if keyword)
    (testOpens : Spells .leftParen opening) (tests : Expression first lexemes test second)
    (testCloses : Spells .rightParen closing)
    (divides : Spells .else otherwise)
    (refused : Statement .nearest third others other further next)
    (absorbs : inner = true →
      ∃ whole ends, Statement .nearest second (rest ++ otherwise :: others) whole ends next) :
    ∃ whole ends, Statement .nearest first
      (keyword :: opening :: (lexemes ++ closing :: (rest ++ otherwise :: others))) whole ends
      next := by
  cases inner with
  | true =>
      obtain ⟨whole, ends, form⟩ := absorbs rfl
      exact ⟨_, true, .branch opens testOpens tests testCloses form⟩
  | false =>
      exact ⟨_, further, .alternative opens testOpens tests testCloses chosen (fun _ => rfl) divides
        refused⟩

/-- A statement that ends with an `if` without an `else` goes on with an `else` behind it. -/
theorem Statement.absorb {first middle last : Nat} {lexemes others : List Lexeme}
    {stmt other : Stmt} {dangling further : Bool} {otherwise : Lexeme} :
    Statement .nearest first lexemes stmt dangling middle → dangling = true →
      Spells .else otherwise → Statement .nearest middle others other further last →
        ∃ whole ends, Statement .nearest first (lexemes ++ otherwise :: others) whole ends last
  | .forLoop opens partsOpen starts tests separates steps partsClose repeated => by
      intro open_ divides refused
      obtain ⟨body, ends, form⟩ := repeated.absorb open_ divides refused
      simp only [List.cons_append, List.append_assoc]
      exact ⟨_, ends, .forLoop opens partsOpen starts tests separates steps partsClose form⟩
  | .branch opens testOpens tests testCloses chosen => by
      intro _ divides refused
      simp only [List.cons_append, List.append_assoc]
      exact chosen.otherwise opens testOpens tests testCloses divides refused fun inner =>
        chosen.absorb inner divides refused
  | .alternative opens testOpens tests testCloses chosen belongs separates given => by
      intro open_ divides refused
      obtain ⟨alternative, ends, form⟩ := given.absorb open_ divides refused
      simp only [List.cons_append, List.append_assoc]
      exact ⟨_, ends, .alternative opens testOpens tests testCloses chosen belongs separates form⟩
  | .loop opens testOpens tests testCloses repeated => by
      intro open_ divides refused
      obtain ⟨body, ends, form⟩ := repeated.absorb open_ divides refused
      simp only [List.cons_append, List.append_assoc]
      exact ⟨_, ends, .loop opens testOpens tests testCloses form⟩
  | .print .. | .giveBack .. | .block .. | .expression .. => nofun

mutual

/-- A declaration has a reading in which each `else` belongs to the nearest branch. -/
theorem Declaration.nearest {first next : Nat} {lexemes : List Lexeme} {stmt : Stmt} :
    Declaration .any first lexemes stmt next →
      ∃ other, Declaration .nearest first lexemes other next
  | .function opens listOpens parameters listCloses bodyOpens declarations bodyCloses => by
      obtain ⟨body, form⟩ := declarations.nearest
      exact ⟨_, .function opens listOpens parameters listCloses bodyOpens form bodyCloses⟩
  | .variable declared => ⟨_, .variable declared⟩
  | .statement stated => by
      obtain ⟨other, dangling, form⟩ := stated.nearest
      exact ⟨other, .statement form⟩

/-- A statement has a reading in which each `else` belongs to the nearest branch. -/
theorem Statement.nearest {first next : Nat} {lexemes : List Lexeme} {stmt : Stmt}
    {dangling : Bool} :
    Statement .any first lexemes stmt dangling next →
      ∃ other open_, Statement .nearest first lexemes other open_ next
  | .forLoop opens partsOpen starts tests separates steps partsClose repeated => by
      obtain ⟨body, open_, form⟩ := repeated.nearest
      exact ⟨_, open_, .forLoop opens partsOpen starts tests separates steps partsClose form⟩
  | .branch opens testOpens tests testCloses chosen => by
      obtain ⟨consequent, open_, form⟩ := chosen.nearest
      exact ⟨_, true, .branch opens testOpens tests testCloses form⟩
  | .alternative opens testOpens tests testCloses chosen _ divides refused => by
      obtain ⟨consequent, inner, formChosen⟩ := chosen.nearest
      obtain ⟨alternative, open_, formRefused⟩ := refused.nearest
      -- The `else` may be nearer to an `if` inside of the statement before it.
      exact formChosen.otherwise opens testOpens tests testCloses divides formRefused fun inner =>
        formChosen.absorb inner divides formRefused
  | .print opens printed closes => ⟨_, _, .print opens printed closes⟩
  | .giveBack opens given closes => ⟨_, _, .giveBack opens given closes⟩
  | .loop opens testOpens tests testCloses repeated => by
      obtain ⟨body, open_, form⟩ := repeated.nearest
      exact ⟨_, open_, .loop opens testOpens tests testCloses form⟩
  | .block opens declarations closes => by
      obtain ⟨body, form⟩ := declarations.nearest
      exact ⟨_, _, .block opens form closes⟩
  | .expression evaluated => ⟨_, _, .expression evaluated⟩

/-- Declarations have a reading in which each `else` belongs to the nearest branch. -/
theorem Declarations.nearest {first next : Nat} {lexemes : List Lexeme} {stmts : List Stmt} :
    Declarations .any first lexemes stmts next →
      ∃ others, Declarations .nearest first lexemes others next
  | .none => ⟨_, .none⟩
  | .more declared declarations => by
      obtain ⟨stmt, form⟩ := declared.nearest
      obtain ⟨others, forms⟩ := declarations.nearest
      exact ⟨_, .more form forms⟩

end

mutual

/-- A declaration where every `else` belongs to the nearest `if` is one of the grammar. -/
theorem Declaration.any {first next : Nat} {lexemes : List Lexeme} {stmt : Stmt} :
    Declaration .nearest first lexemes stmt next → Declaration .any first lexemes stmt next
  | .function opens listOpens parameters listCloses bodyOpens declarations bodyCloses =>
      .function opens listOpens parameters listCloses bodyOpens declarations.any bodyCloses
  | .variable declared => .variable declared
  | .statement stated => .statement stated.any

/-- The nearest reading is one of all readings of a statement. -/
theorem Statement.any {first next : Nat} {lexemes : List Lexeme} {stmt : Stmt}
    {dangling : Bool} :
    Statement .nearest first lexemes stmt dangling next →
      Statement .any first lexemes stmt dangling next
  | .forLoop opens partsOpen starts tests separates steps partsClose repeated =>
      .forLoop opens partsOpen starts tests separates steps partsClose repeated.any
  | .branch opens testOpens tests testCloses chosen =>
      .branch opens testOpens tests testCloses chosen.any
  | .alternative opens testOpens tests testCloses chosen _ divides refused =>
      .alternative opens testOpens tests testCloses chosen.any nofun divides refused.any
  | .print opens printed closes => .print opens printed closes
  | .giveBack opens given closes => .giveBack opens given closes
  | .loop opens testOpens tests testCloses repeated =>
      .loop opens testOpens tests testCloses repeated.any
  | .block opens declarations closes => .block opens declarations.any closes
  | .expression evaluated => .expression evaluated

/-- The nearest reading is one of all readings of declarations. -/
theorem Declarations.any {first next : Nat} {lexemes : List Lexeme} {stmts : List Stmt} :
    Declarations .nearest first lexemes stmts next → Declarations .any first lexemes stmts next
  | .none => .none
  | .more declared declarations => .more declared.any declarations.any

end

/-- The grammar has the same sentences, whether an `else` may belong to any `if` before it or
belongs to the nearest one. -/
theorem forms_nearest_iff (lexemes : List Lexeme) :
    (∃ program, Forms .nearest lexemes program) ↔ ∃ program, Forms .any lexemes program := by
  constructor
  · rintro ⟨program, occurrences, form⟩
    exact ⟨program, occurrences, form.any⟩
  · rintro ⟨program, occurrences, form⟩
    obtain ⟨others, form⟩ := form.nearest
    exact ⟨others, occurrences, form⟩

end Lox.Grammar
