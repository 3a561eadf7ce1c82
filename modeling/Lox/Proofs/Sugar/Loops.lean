import Lox.Proofs.Sugar.Places

namespace Lox

open Lox.Grammar
open Lox.Parser (Spells leading)
open Lox.Relabeling (unlabeled)

/-- A symbol as a lexeme that stands nowhere. -/
def Symbol.lexeme (symbol : Symbol) : Lexeme := ⟨.symbol symbol, symbol.text, .empty 0⟩

/-- The lexemes of a counting loop, part by part. -/
structure CountingLoop where
  keyword : Lexeme
  opening : Lexeme
  start : List Lexeme
  test : List Lexeme
  separator : Lexeme
  step : List Lexeme
  closing : Lexeme
  body : List Lexeme

namespace CountingLoop

/-- `for ( start test ; step ) body`. -/
def lexemes (loop : CountingLoop) : List Lexeme :=
  loop.keyword :: loop.opening ::
    (loop.start ++ (loop.test ++ loop.separator :: (loop.step ++ loop.closing :: loop.body)))

/-- The parts are those of the grammar, and no `else` in front of what follows goes on with the
body. -/
structure FormedBefore (after : List Lexeme) (loop : CountingLoop) : Prop where
  opens : Spells .for loop.keyword
  partsOpen : Spells .leftParen loop.opening
  starts : ∃ first initial next, LoopStart first loop.start initial next
  tests : ∃ first test next, OptionalExpression first loop.test test next
  separates : Spells .semicolon loop.separator
  steps : ∃ first step next, OptionalExpression first loop.step step next
  partsClose : Spells .rightParen loop.closing
  repeated : ∃ body, StatementBefore after loop.body body

/-- Lexemes between braces. -/
def braced (lexemes : List Lexeme) : List Lexeme :=
  Symbol.leftBrace.lexeme :: (lexemes ++ [Symbol.rightBrace.lexeme])

/-- A missing condition is true. -/
def condition (test : List Lexeme) : List Lexeme :=
  if test.isEmpty then [Symbol.true.lexeme] else test

/-- The step comes behind the body, in a block with it. -/
def stepping (body step : List Lexeme) : List Lexeme :=
  if step.isEmpty then body else braced (body ++ (step ++ [Symbol.semicolon.lexeme]))

/-- The first statement comes before the loop, in a block with it. A start of a single lexeme is
only a semicolon. -/
def starting (start loop : List Lexeme) : List Lexeme :=
  if start.length = 1 then loop else braced (start ++ loop)

/-- `while ( test ) body`. -/
def conditional (test body : List Lexeme) : List Lexeme :=
  Symbol.while.lexeme :: Symbol.leftParen.lexeme :: (test ++ Symbol.rightParen.lexeme :: body)

/-- What the loop is short for. -/
def unsugared (loop : CountingLoop) : List Lexeme :=
  starting loop.start (conditional (condition loop.test) (stepping loop.body loop.step))

end CountingLoop

namespace Grammar

variable {first next : Nat} {lexemes : List Lexeme}

/-- A start is only a semicolon exactly if there is no first statement. -/
theorem LoopStart.length_eq_one {initial : Option Stmt} :
    LoopStart first lexemes initial next → (lexemes.length = 1 ↔ initial = Option.none)
  | .none _ => by simp
  | .variable (.declare _ _ _) => by simp
  | .expression (.evaluate evaluated _) => by
      obtain ⟨lexeme, rest, rfl, -⟩ := Parser.expression_opens evaluated
      simp

/-- An expression has lexemes. -/
theorem OptionalExpression.isEmpty_eq {given : Option Expr} :
    OptionalExpression first lexemes given next → lexemes.isEmpty = given.isNone
  | .none => rfl
  | .some given => by
      obtain ⟨lexeme, rest, rfl, -⟩ := Parser.expression_opens given
      rfl

/-- An operand is a chain without operators. -/
theorem Operand.chain {level : Parser.Level} {expr : Expr}
    (operand : Operand level first lexemes expr next) : Chain level first lexemes expr next := by
  have chain := Chain.start operand .done
  rwa [List.append_nil] at chain

/-- What stands without operators is an expression. -/
theorem Primary.expression {expr : Expr} (operand : Primary first lexemes expr next) :
    Expression first lexemes expr next := by
  have called := Call.start operand .done
  rw [List.append_nil] at called
  have factor := (Operand.unary (.call called)).chain
  have term := (Operand.tighter .factor factor).chain
  have comparison := (Operand.tighter .term term).chain
  have equality := (Operand.tighter .comparison comparison).chain
  have conjunction := (Operand.tighter .equality equality).chain
  exact .chain (Operand.tighter .and conjunction).chain

end Grammar

namespace CountingLoop

variable {lexemes others : List Lexeme} {first next : Nat}

/-- Declarations in braces make a block. -/
theorem braced_makes {stmts : List Stmt}
    (declarations : MakesDeclarations (lexemes.map Lexeme.token) stmts) :
    MakesStatement false ((braced lexemes).map Lexeme.token) (.block (.empty 0) stmts) := by
  rw [braced, List.map_cons, List.map_append]
  exact block_makes declarations

/-- A condition that is absent is written out as `true`. -/
theorem condition_makes {test : Option Expr}
    (tests : OptionalExpression first lexemes test next) :
    Makes Expression unlabeled.expr ((condition lexemes).map Lexeme.token)
      (loopTest (.empty 0) (test.map unlabeled.expr)) := by
  rw [condition, tests.isEmpty_eq]
  cases tests with
  | none => exact (Primary.literal .true : Primary 0 [Symbol.true.lexeme] _ 0).expression.makes
  | some given => exact given.makes

/-- A condition and a body make a `while` loop. -/
theorem conditional_makes {test : Expr} {body : Stmt} {dangling : Bool}
    (tests : Makes Expression unlabeled.expr (lexemes.map Lexeme.token) test)
    (repeated : MakesStatement dangling (others.map Lexeme.token) body) :
    MakesStatement dangling ((conditional lexemes others).map Lexeme.token)
      (.loop (.empty 0) test body) := by
  rw [conditional, List.map_cons, List.map_cons, List.map_append, List.map_cons]
  exact loop_makes tests repeated

/-- A step is an expression that is evaluated behind the body. -/
theorem stepping_makes {body : Stmt} {dangling : Bool} {step : Option Expr}
    (steps : OptionalExpression first others step next)
    (repeated : MakesStatement dangling (lexemes.map Lexeme.token) body) :
    ∃ open_, (open_ = true → dangling = true) ∧
      MakesStatement open_ ((stepping lexemes others).map Lexeme.token)
        (loopBody (.empty 0) body (step.map unlabeled.expr)) := by
  rw [stepping, steps.isEmpty_eq]
  cases steps with
  | none => exact ⟨dangling, id, repeated⟩
  | some given =>
      refine ⟨false, nofun, braced_makes ?_⟩
      have last := more_makes ((expressionStatement_makes given.makes).imp fun evaluated =>
        .statement (.expression evaluated)) none_makes
      rw [List.append_nil] at last
      rw [List.map_append, List.map_append]
      simp only [Relabeling.expr_span]
      exact more_makes (repeated.imp .statement) last

/-- A first statement is a declaration in front of the loop. -/
theorem starting_makes {loop : Stmt} {dangling : Bool} {initial : Option Stmt}
    (starts : LoopStart first others initial next)
    (looped : MakesStatement dangling (lexemes.map Lexeme.token) loop) :
    ∃ open_, (open_ = true → dangling = true) ∧
      MakesStatement open_ ((starting others lexemes).map Lexeme.token)
        (loopBlock (.empty 0) loop (initial.map unlabeled.stmt)) := by
  have alone := starts.length_eq_one
  have last := more_makes (looped.imp .statement) none_makes
  rw [List.append_nil] at last
  rw [starting]
  cases starts with
  | none => exact ⟨dangling, id, looped⟩
  | «variable» declared =>
      rw [if_neg (by simp [alone])]
      refine ⟨false, nofun, braced_makes ?_⟩
      rw [List.map_append]
      exact more_makes (declared.makes.imp .variable) last
  | expression evaluated =>
      rw [if_neg (by simp [alone])]
      refine ⟨false, nofun, braced_makes ?_⟩
      rw [List.map_append]
      exact more_makes (evaluated.makes.imp fun stated => .statement (.expression stated)) last

/-- A counting loop is a statement, and what it is short for has the same tree. -/
theorem FormedBefore.unsugared_makesBefore {loop : CountingLoop} {after : List Lexeme}
    (formed : loop.FormedBefore after) :
    ∃ stmt, StatementBefore after loop.lexemes stmt ∧
      MakesBefore after (loop.unsugared.map Lexeme.token) (unlabeled.stmt stmt) := by
  obtain ⟨first, initial, second, starts⟩ := formed.starts
  obtain ⟨_, test, _, tests⟩ := formed.tests
  obtain ⟨_, step, _, steps⟩ := formed.steps
  obtain ⟨body, _, dangling, _, repeated, free⟩ := formed.repeated
  have whole := countingLoop_makes starts.makes tests.makes steps.makes repeated.makes
  rw [← parts_tokens formed.opens formed.partsOpen formed.separates formed.partsClose] at whole
  obtain ⟨stmt, next, form, shaped⟩ := whole first loop.lexemes (by simp [lexemes])
  obtain ⟨inner, less, stepping⟩ := stepping_makes steps repeated.makes
  obtain ⟨open_, fewer, starting⟩ :=
    starting_makes starts (conditional_makes (condition_makes tests) stepping)
  refine ⟨stmt, ⟨first, dangling, next, form, free⟩, open_, ?_, free ∘ less ∘ fewer⟩
  rw [shaped]
  exact starting

end CountingLoop

end Lox
