import Lox.Proofs.Syntax.ExpressionForms

namespace Lox.Parser

open Lox.Computation Grammar

/-- A production that goes on behind a keyword reads the rest of a part of the grammar. -/
def ReadsBehind {α : Type} (symbol : Symbol) (part : Nat → List Lexeme → α → Nat → Prop)
    (production : Nat → Production α) : Prop :=
  ∀ ⦃keyword : Lexeme⦄ ⦃state last : State⦄ ⦃value : α⦄, Spells symbol keyword →
    state.lastStop = keyword.span.stop →
    Gives (production keyword.span.start) state value last →
    last.errors.size ≤ state.errors.size →
      ∃ lexemes, Takes lexemes state last ∧ part state.nextId (keyword :: lexemes) value last.nextId

section
variable (eof fuel : Nat)

/-- Parameters that are read without a new error are within the limit. -/
theorem parameters_reads (length : Nat) :
    Reads (fun first lexemes names next =>
      Parameters lexemes names ∧ length + names.length ≤ listLimit ∧ next = first)
      (parameters eof fuel length) := by
  induction fuel generalizing length with
  | zero => exact .outOfFuel
  | succ fuel ih =>
      intro state last value ended clean
      rw [parameters, gives_bind] at ended
      obtain ⟨_, middle, checked, ended⟩ := ended
      rw [gives_bind] at ended
      obtain ⟨first, behind, named, ended⟩ := ended
      obtain ⟨text, rest, split, rfl⟩ := expectName_eq_ok.1 named
      rw [gives_bind] at ended
      obtain ⟨more, next, separated, ended⟩ := ended
      rcases accept_eq_ok.1 separated with ⟨rfl, comma, rests, splits, spelled, rfl⟩ | ⟨rfl, -, rfl⟩
      · simp only [↓reduceIte, gives_bind] at ended
        obtain ⟨others, final, listed, ended⟩ := ended
        obtain ⟨rfl, rfl⟩ := gives_pure.1 ended
        have grows : middle.errors.size ≤ final.errors.size :=
          (parameters_progress eof fuel _ _).advances listed |>.size_le
        obtain ⟨short, rfl⟩ := checkLength_eq_ok checked (Nat.le_trans grows clean)
        obtain ⟨lexemes, taken, forms, fits, same⟩ := ih _ listed clean
        refine ⟨_, (taken.cons splits).cons split, .more spelled forms, ?_, same⟩
        rw [List.length_cons]
        omega
      · obtain ⟨rfl, rfl⟩ := gives_pure.1 ended
        obtain ⟨short, rfl⟩ := checkLength_eq_ok checked clean
        exact ⟨_, .behind split, .last, short, rfl⟩

/-- A condition is an expression between parentheses. -/
theorem condition_reads :
    Reads (fun first lexemes test next => ∃ opening inner closing,
      lexemes = opening :: (inner ++ [closing]) ∧ Spells .leftParen opening ∧
        Expression first inner test next ∧ Spells .rightParen closing) (condition eof fuel) := by
  intro state last value ended clean
  simp only [condition, discard_bind, gives_bind] at ended
  obtain ⟨_, middle, opened, test, behind, tested, _, final, closed, ended⟩ := ended
  obtain ⟨opening, rest, split, opens, rfl, rfl⟩ := expect_eq_ok.1 opened
  obtain ⟨closing, others, splits, closes, rfl, rfl⟩ := expect_eq_ok.1 closed
  obtain ⟨rfl, rfl⟩ := gives_pure.1 ended
  obtain ⟨inner, taken, form⟩ := (expressionsRead eof fuel).expression tested clean
  exact ⟨_, (taken.trans (.behind splits)).cons split, opening, inner, closing, rfl, opens, form,
    closes⟩

/-- A variable's declaration that is read without a new error is a sentence. -/
theorem variableDeclaration_reads :
    ReadsBehind .var VariableDeclaration (variableDeclaration eof fuel) := by
  intro keyword state last value opens keeps ended clean
  simp only [variableDeclaration, discard_bind] at ended
  rw [gives_bind] at ended
  obtain ⟨name, middle, named, ended⟩ := ended
  rw [gives_bind] at ended
  obtain ⟨present, behind, accepted, ended⟩ := ended
  obtain ⟨text, rest, split, rfl⟩ := expectName_eq_ok.1 named
  have closing {initializer : Option Expr} {middle : State}
      (given : middle.errors.size ≤ state.errors.size →
        ∃ lexemes, Takes lexemes (state.behind ⟨.identifier name.item, text, name.span⟩ rest) middle ∧
          Initializer state.nextId lexemes initializer middle.nextId)
      (ended : Gives (do
        let _ ← expect eof .semicolon
        let span ← spanFrom keyword.span.start
        return Stmt.variable span name initializer) middle value last) :
      ∃ lexemes, Takes lexemes state last ∧
        VariableDeclaration state.nextId (keyword :: lexemes) value last.nextId := by
    rw [gives_bind] at ended
    obtain ⟨_, behind, closed, ended⟩ := ended
    obtain ⟨closing, others, splits, closes, rfl, rfl⟩ := expect_eq_ok.1 closed
    rw [gives_step spanFrom_apply] at ended
    obtain ⟨rfl, rfl⟩ := gives_pure.1 ended
    obtain ⟨lexemes, taken, initializes⟩ := given clean
    have whole := (taken.trans (.behind splits)).cons split
    refine ⟨_, whole, ?_⟩
    rw [whole.extent_cons_eq keeps]
    exact .declare opens initializes closes
  rcases accept_eq_ok.1 accepted with ⟨rfl, equal, others, splits, sign, rfl⟩ | ⟨rfl, -, rfl⟩
  · simp only [↓reduceIte] at ended
    rw [gives_bind] at ended
    obtain ⟨_, final, assigned, ended⟩ := ended
    obtain ⟨value, valued, rfl⟩ := gives_map.1 assigned
    refine closing (fun clean => ?_) ended
    obtain ⟨lexemes, taken, form⟩ := (expressionsRead eof fuel).expression valued clean
    exact ⟨_, taken.cons splits, .some sign form⟩
  · exact closing (fun _ => ⟨[], .nil _, .none⟩) ended

/-- An expression statement that is read without a new error is a sentence. -/
theorem expressionStatement_reads :
    Reads ExpressionStatement (expressionStatement eof fuel) := by
  intro state last value ended clean
  simp only [expressionStatement, discard_bind] at ended
  rw [gives_step here_apply] at ended
  simp only [gives_bind] at ended
  obtain ⟨evaluated, middle, given, _, behind, closed, _, _, spanned, ended⟩ := ended
  obtain ⟨closing, others, splits, closes, rfl, rfl⟩ := expect_eq_ok.1 closed
  obtain ⟨rfl, rfl⟩ := gives_pure.1 ended
  cases spanned
  obtain ⟨lexemes, taken, form⟩ := (expressionsRead eof fuel).expression given clean
  have whole := taken.trans (.behind splits)
  refine ⟨_, whole, ?_⟩
  rw [whole.extent_eq eof (by simp)]
  exact .evaluate form closes

theorem loopStart_reads : Reads LoopStart (loopStart eof fuel) := by
  intro state last value ended clean
  rw [loopStart, gives_bind] at ended
  obtain ⟨present, middle, accepted, ended⟩ := ended
  rcases accept_eq_ok.1 accepted with ⟨rfl, closing, rest, split, closes, rfl⟩ | ⟨rfl, -, rfl⟩
  · obtain ⟨rfl, rfl⟩ := gives_pure.1 ended
    exact ⟨_, .behind split, .none closes⟩
  · simp only [Bool.false_eq_true, ↓reduceIte] at ended
    rw [gives_step isNext_apply] at ended
    split at ended
    next declares =>
      obtain ⟨keyword, rest, split, opens⟩ := State.next?_eq_some.1 (of_decide_eq_true declares)
      rw [gives_step take_apply, here_cons split, State.advance_cons split] at ended
      obtain ⟨stmt, declared, rfl⟩ := gives_map.1 ended
      obtain ⟨lexemes, taken, form⟩ :=
        variableDeclaration_reads eof fuel opens (by rfl) declared clean
      exact ⟨_, taken.cons split, .variable form⟩
    next =>
      obtain ⟨stmt, evaluated, rfl⟩ := gives_map.1 ended
      obtain ⟨lexemes, taken, form⟩ := expressionStatement_reads eof fuel evaluated clean
      exact ⟨lexemes, taken, .expression form⟩

theorem expressionUnless_reads (closing : Symbol) :
    Reads OptionalExpression (expressionUnless eof fuel closing) := by
  intro state last value ended clean
  rw [expressionUnless, gives_step isNext_apply] at ended
  split at ended
  next =>
    obtain ⟨rfl, rfl⟩ := gives_pure.1 ended
    exact ⟨[], .nil state, .none⟩
  next =>
    obtain ⟨value, given, rfl⟩ := gives_map.1 ended
    obtain ⟨lexemes, taken, form⟩ := (expressionsRead eof fuel).expression given clean
    exact ⟨lexemes, taken, .some form⟩

end

/-- A production reads statements when, without a new error, it takes a statement of the grammar
that no `else` follows which could belong to it. -/
def ReadsStatement (part : Nat → List Lexeme → Stmt → Bool → Nat → Prop)
    (production : Production Stmt) : Prop :=
  ∀ ⦃state last : State⦄ ⦃stmt : Stmt⦄, Gives production state stmt last →
    last.errors.size ≤ state.errors.size →
      ∃ lexemes dangling, Takes lexemes state last ∧
        part state.nextId lexemes stmt dangling last.nextId ∧
        (dangling = true → last.next? ≠ some .else)

/-- The productions of statements read their parts of the grammar. -/
structure StatementsRead (eof fuel : Nat) : Prop where
  declaration :
    Reads (fun first lexemes given next =>
      ∃ stmt, given = some stmt ∧ Declaration .nearest first lexemes stmt next)
      (declaration eof fuel)
  functionDeclaration :
    ReadsBehind .fun (Declaration .nearest) (functionDeclaration eof fuel)
  statement : ReadsStatement (Statement .nearest) (statement eof fuel)
  forStatement {keyword : Lexeme} {state last : State} {stmt : Stmt}
    (opens : Spells .for keyword) (keeps : state.lastStop = keyword.span.stop)
    (ended : Gives (forStatement eof fuel keyword.span.start) state stmt last)
    (clean : last.errors.size ≤ state.errors.size) :
    ∃ lexemes dangling, Takes lexemes state last ∧
      Statement .nearest state.nextId (keyword :: lexemes) stmt dangling last.nextId ∧
      (dangling = true → last.next? ≠ some .else)
  blockBody :
    Reads (fun first lexemes stmts next => ∃ inner closing, lexemes = inner ++ [closing] ∧
      Declarations .nearest first inner stmts next ∧ Spells .rightBrace closing)
      (blockBody eof fuel)

/-- A statement that is read without an error is not given up. -/
theorem attempt_reads {production : Production Stmt} {state last : State} {given : Option Stmt}
    {count : Nat} {lack : Prop} (progress : Progress count lack production state)
    (ended : Gives (attempt production) state given last)
    (clean : last.errors.size ≤ state.errors.size) :
    ∃ stmt, given = some stmt ∧ Gives production state stmt last := by
  unfold Gives attempt at ended
  cases tried : production state with
  | ok stmt after =>
      rw [tried] at ended
      cases ended
      exact ⟨stmt, rfl, tried⟩
  | error stop after =>
      rw [tried] at ended
      cases stop with
      | outOfFuel => cases ended
      | error error =>
          cases ended
          have grows := (progress.stopped tried).2.size_le
          simp only [Array.size_push] at clean
          omega

section
variable {eof fuel : Nat} (parts : StatementsRead eof fuel)
include parts

/-- A declaration that is read without a new error is a sentence, and is not dropped. -/
theorem declaration_reads :
    Reads (fun first lexemes given next =>
      ∃ stmt, given = some stmt ∧ Declaration .nearest first lexemes stmt next)
      (declaration eof (fuel + 1)) := by
  intro state last given ended clean
  rw [declaration] at ended
  obtain ⟨stmt, rfl, attempted⟩ :=
    attempt_reads (attempted_progress (statementsProgress eof fuel) state) ended clean
  rw [gives_step here_apply, gives_bind] at attempted
  obtain ⟨isFunction, middle, accepted, attempted⟩ := attempted
  rcases accept_eq_ok.1 accepted with ⟨rfl, keyword, rest, split, opens, rfl⟩ | ⟨rfl, -, rfl⟩
  · rw [here_cons split] at attempted
    obtain ⟨lexemes, taken, form⟩ := parts.functionDeclaration opens (by rfl) attempted clean
    exact ⟨_, taken.cons split, stmt, rfl, form⟩
  simp only [Bool.false_eq_true, ↓reduceIte] at attempted
  rw [gives_bind] at attempted
  obtain ⟨isVariable, middle, accepted, attempted⟩ := attempted
  rcases accept_eq_ok.1 accepted with ⟨rfl, keyword, rest, split, opens, rfl⟩ | ⟨rfl, -, rfl⟩
  · rw [here_cons split] at attempted
    obtain ⟨lexemes, taken, form⟩ :=
      variableDeclaration_reads eof fuel opens (by rfl) attempted clean
    exact ⟨_, taken.cons split, stmt, rfl, .variable form⟩
  · obtain ⟨lexemes, dangling, taken, form, -⟩ := parts.statement attempted clean
    exact ⟨_, taken, stmt, rfl, .statement form⟩

/-- A function that is read without a new error is a sentence. -/
theorem functionDeclaration_reads :
    ReadsBehind .fun (Declaration .nearest) (functionDeclaration eof (fuel + 1)) := by
  intro keyword state last stmt opens keeps ended clean
  simp only [functionDeclaration, discard_bind] at ended
  rw [gives_bind] at ended
  obtain ⟨name, middle, named, ended⟩ := ended
  obtain ⟨text, rest, split, rfl⟩ := expectName_eq_ok.1 named
  rw [gives_bind] at ended
  obtain ⟨_, middle, opened, ended⟩ := ended
  obtain ⟨opening, rests, splits, listOpens, rfl, rfl⟩ := expect_eq_ok.1 opened
  have closing {names : List Name} {middle : State}
      (listed : middle.errors.size ≤ state.errors.size →
        ∃ lexemes,
          Takes lexemes
            ((state.behind ⟨.identifier name.item, text, name.span⟩ rest).behind opening rests)
            middle ∧
          ParameterList lexemes names ∧ middle.nextId = state.nextId)
      (grows : state.errors.size ≤ middle.errors.size)
      (ended : Gives (do
        let _ ← expect eof .rightParen
        let _ ← expect eof .leftBrace
        let body ← blockBody eof fuel
        let span ← spanFrom keyword.span.start
        return Stmt.function span name names body) middle stmt last) :
      ∃ lexemes, Takes lexemes state last ∧
        Declaration .nearest state.nextId (keyword :: lexemes) stmt last.nextId := by
    simp only [gives_bind] at ended
    obtain ⟨_, _, closed, _, _, bodyOpened, body, final, bodied, _, _, spanned, ended⟩ := ended
    obtain ⟨closing, _, splitClosing, listCloses, rfl, rfl⟩ := expect_eq_ok.1 closed
    obtain ⟨leftBrace, _, splitBody, bodyOpens, rfl, rfl⟩ := expect_eq_ok.1 bodyOpened
    cases spanned
    obtain ⟨rfl, rfl⟩ := gives_pure.1 ended
    have grows' : middle.errors.size ≤ final.errors.size :=
      ((statementsProgress eof fuel).blockBody _).advances bodied |>.size_le
    obtain ⟨lexemes, taken, list, same⟩ := listed (Nat.le_trans grows' clean)
    obtain ⟨_, followed, inner, rightBrace, rfl, declarations, bodyCloses⟩ :=
      parts.blockBody bodied (Nat.le_trans clean grows)
    have whole := ((taken.trans ((followed.cons splitBody).cons splitClosing)).cons splits).cons split
    refine ⟨_, whole, ?_⟩
    rw [whole.extent_cons_eq keeps]
    simp only [State.behind_nextId, same] at declarations
    exact .function opens listOpens list listCloses bodyOpens declarations bodyCloses
  rw [gives_step isNext_apply] at ended
  split at ended
  next =>
    rw [gives_step (Computation.pure_apply _ _)] at ended
    exact closing (fun _ => ⟨[], .nil _, .none, rfl⟩) (Nat.le_refl _) ended
  next =>
    rw [gives_bind] at ended
    obtain ⟨names, middle, listed, ended⟩ := ended
    have grows := (parameters_progress eof fuel _ _).advances listed |>.size_le
    refine closing (fun clean => ?_) grows ended
    obtain ⟨lexemes, taken, form, short, same⟩ := parameters_reads eof fuel 0 listed clean
    rw [Nat.zero_add] at short
    exact ⟨lexemes, taken, .some form short, same⟩

/-- A `for` loop that is read without a new error is a sentence for the written-out loop. -/
theorem forStatement_reads {keyword : Lexeme} {state last : State} {stmt : Stmt}
    (opens : Spells .for keyword) (keeps : state.lastStop = keyword.span.stop)
    (ended : Gives (forStatement eof (fuel + 1) keyword.span.start) state stmt last)
    (clean : last.errors.size ≤ state.errors.size) :
    ∃ lexemes dangling, Takes lexemes state last ∧
      Statement .nearest state.nextId (keyword :: lexemes) stmt dangling last.nextId ∧
      (dangling = true → last.next? ≠ some .else) := by
  simp only [forStatement, discard_bind, gives_bind] at ended
  obtain ⟨_, _, opened, initial, second, started, test, third, tested, _, _, separated, step,
    fourth, stepped, _, _, closed, body, final, repeated, _, _, spanned, ended⟩ := ended
  obtain ⟨opening, rest, split, partsOpen, rfl, rfl⟩ := expect_eq_ok.1 opened
  obtain ⟨separator, _, splitSecond, separates, rfl, rfl⟩ := expect_eq_ok.1 separated
  obtain ⟨closing, _, splitThird, partsClose, rfl, rfl⟩ := expect_eq_ok.1 closed
  cases spanned
  obtain ⟨rfl, rfl⟩ := gives_pure.1 ended
  have growsFirst : state.errors.size ≤ second.errors.size :=
    (loopStart_progress eof fuel _).advances started |>.size_le
  have growsSecond := (expressionUnless_progress eof fuel second _).advances tested |>.size_le
  have growsThird : third.errors.size ≤ fourth.errors.size :=
    (expressionUnless_progress eof fuel _ _).advances stepped |>.size_le
  have growsFourth : fourth.errors.size ≤ final.errors.size :=
    ((statementsProgress eof fuel).statement _).advances repeated |>.size_le
  obtain ⟨starting, taken, starts⟩ := loopStart_reads eof fuel started (by
    rw [State.behind_errors]
    omega)
  obtain ⟨testing, takenTest, tests⟩ := expressionUnless_reads eof fuel _ tested (by omega)
  obtain ⟨stepping, takenStep, steps⟩ := expressionUnless_reads eof fuel _ stepped (by
    rw [State.behind_errors]
    omega)
  obtain ⟨repeating, dangling, takenBody, repeats, free⟩ := parts.statement repeated (by
    rw [State.behind_errors]
    omega)
  have whole := (taken.trans (takenTest.trans
    ((takenStep.trans (takenBody.cons splitThird)).cons splitSecond))).cons split
  refine ⟨_, dangling, whole, ?_, free⟩
  rw [whole.extent_cons_eq keeps, forLoop_eq_countingLoop]
  exact .forLoop opens partsOpen starts tests separates steps partsClose repeats

/-- A block that is read without a new error is declarations and a closing brace. -/
theorem blockBody_reads :
    Reads (fun first lexemes stmts next => ∃ inner closing, lexemes = inner ++ [closing] ∧
      Declarations .nearest first inner stmts next ∧ Spells .rightBrace closing)
      (blockBody eof (fuel + 1)) := by
  intro state last stmts ended clean
  simp only [blockBody, discard_bind] at ended
  rw [gives_step isNext_apply, gives_step atEnd_apply] at ended
  split at ended
  next =>
    rw [gives_bind] at ended
    obtain ⟨_, middle, closed, ended⟩ := ended
    obtain ⟨closing, rest, split, closes, rfl, rfl⟩ := expect_eq_ok.1 closed
    obtain ⟨rfl, rfl⟩ := gives_pure.1 ended
    exact ⟨_, .behind split, [], closing, rfl, .none, closes⟩
  next inside =>
    have some : state.rest ≠ [] := by simp_all
    simp only [gives_bind] at ended
    obtain ⟨given, middle, declared, others, final, followed, ended⟩ := ended
    obtain ⟨rfl, rfl⟩ := gives_pure.1 ended
    have progress := statementsProgress eof fuel
    have grows := (progress.declaration state some).advances declared |>.size_le
    have growsRest := (progress.blockBody middle).advances followed |>.size_le
    obtain ⟨lexemes, taken, stmt, rfl, form⟩ := parts.declaration declared (by omega)
    obtain ⟨_, takenRest, inner, closing, rfl, forms, closes⟩ := parts.blockBody followed (by omega)
    refine ⟨_, taken.trans takenRest, lexemes ++ inner, closing, ?_, .more form forms, closes⟩
    rw [List.append_assoc]

/-- What follows the keyword of a branch, whose statement starts with the keyword. -/
theorem branch_reads {keyword : Lexeme} {rest : List Lexeme} {state last : State} {stmt : Stmt}
    (split : state.rest = keyword :: rest) (opens : Spells .if keyword)
    (ended : Gives (do
      let test ← condition eof fuel
      let consequent ← statement eof fuel
      let alternative ← if ← accept .else then some <$> statement eof fuel else pure none
      return Stmt.branch (← spanFrom keyword.span.start) test consequent alternative)
      (state.behind keyword rest) stmt last)
    (clean : last.errors.size ≤ state.errors.size) :
    ∃ lexemes dangling, Takes lexemes state last ∧
      Statement .nearest state.nextId lexemes stmt dangling last.nextId ∧
      (dangling = true → last.next? ≠ some .else) := by
  rw [gives_bind] at ended
  obtain ⟨test, first, tested, ended⟩ := ended
  rw [gives_bind] at ended
  obtain ⟨consequent, second, chosen, ended⟩ := ended
  have growsTest : state.errors.size ≤ first.errors.size :=
    (condition_progress eof fuel _).advances tested |>.size_le
  have growsChosen := ((statementsProgress eof fuel).statement first).advances chosen |>.size_le
  rw [gives_bind] at ended
  obtain ⟨present, third, accepted, ended⟩ := ended
  rcases accept_eq_ok.1 accepted with
    ⟨rfl, otherwise, others, divided, divides, rfl⟩ | ⟨rfl, other, rfl⟩
  · simp only [↓reduceIte, gives_bind] at ended
    obtain ⟨_, final, refused, _, _, spanned, ended⟩ := ended
    obtain ⟨alternative, stated, rfl⟩ := gives_map.1 refused
    cases spanned
    obtain ⟨rfl, rfl⟩ := gives_pure.1 ended
    have growsRefused : second.errors.size ≤ final.errors.size :=
      ((statementsProgress eof fuel).statement _).advances stated |>.size_le
    obtain ⟨_, taken, opening, inner, closing, rfl, testOpens, tests, testCloses⟩ :=
      condition_reads eof fuel tested (by rw [State.behind_errors]; omega)
    obtain ⟨choosing, dangling, takenChosen, chooses, free⟩ := parts.statement chosen (by omega)
    obtain ⟨refusing, open_, takenRefused, refuses, freeRefused⟩ :=
      parts.statement stated (by rw [State.behind_errors]; omega)
    have whole := (taken.trans (takenChosen.trans (takenRefused.cons divided))).cons split
    refine ⟨_, open_, whole, ?_, freeRefused⟩
    have nearest : dangling = false := by
      cases dangling with
      | false => rfl
      | true => exact absurd (State.next?_eq_some.2 ⟨_, _, divided, divides⟩) (free rfl)
    have spanned := whole.extent_eq eof (by simp)
    rw [here_cons split] at spanned
    rw [spanned]
    simp only [List.cons_append, List.append_assoc, List.nil_append]
    exact .alternative opens testOpens tests testCloses chooses (fun _ => nearest) divides refuses
  · simp only [Bool.false_eq_true, ↓reduceIte] at ended
    rw [gives_step (Computation.pure_apply _ _), gives_step spanFrom_apply] at ended
    obtain ⟨rfl, rfl⟩ := gives_pure.1 ended
    obtain ⟨_, taken, opening, inner, closing, rfl, testOpens, tests, testCloses⟩ :=
      condition_reads eof fuel tested (by rw [State.behind_errors]; omega)
    obtain ⟨choosing, dangling, takenChosen, chooses, -⟩ := parts.statement chosen (by omega)
    have whole := (taken.trans takenChosen).cons split
    refine ⟨_, true, whole, ?_, fun _ => other⟩
    have spanned := whole.extent_eq eof (by simp)
    rw [here_cons split] at spanned
    rw [spanned]
    simp only [List.cons_append, List.append_assoc, List.nil_append]
    exact .branch opens testOpens tests testCloses chooses

/-- A statement that is read without a new error is a sentence. -/
theorem statement_reads : ReadsStatement (Statement .nearest) (statement eof (fuel + 1)) := by
  intro state last stmt ended clean
  simp only [statement, discard_bind] at ended
  rw [gives_step here_apply, gives_step peek?_apply] at ended
  have never {next : Option Symbol} (wrong : false = true) : next ≠ some .else :=
    absurd wrong Bool.false_ne_true
  have expressions := expressionsRead eof fuel
  split at ended
  next next =>
    obtain ⟨keyword, rest, split, opens⟩ := State.next?_eq_some.1 next
    rw [gives_step take_apply, here_cons split, State.advance_cons split] at ended
    obtain ⟨lexemes, dangling, taken, form, free⟩ := parts.forStatement opens (by rfl) ended clean
    exact ⟨_, dangling, taken.cons split, form, free⟩
  next next =>
    obtain ⟨keyword, rest, split, opens⟩ := State.next?_eq_some.1 next
    rw [gives_step take_apply, here_cons split, State.advance_cons split] at ended
    exact branch_reads parts split opens ended clean
  next next =>
    obtain ⟨keyword, rest, split, opens⟩ := State.next?_eq_some.1 next
    rw [gives_step take_apply, here_cons split, State.advance_cons split] at ended
    simp only [gives_bind] at ended
    obtain ⟨value, middle, printed, _, _, closed, _, _, spanned, ended⟩ := ended
    obtain ⟨closing, others, splits, closes, rfl, rfl⟩ := expect_eq_ok.1 closed
    cases spanned
    obtain ⟨rfl, rfl⟩ := gives_pure.1 ended
    obtain ⟨lexemes, taken, form⟩ := expressions.expression printed clean
    have whole := taken.trans (.behind splits)
    refine ⟨_, false, whole.cons split, ?_, never⟩
    rw [whole.extent_cons_eq (by rfl)]
    exact .print opens form closes
  next next =>
    obtain ⟨keyword, rest, split, opens⟩ := State.next?_eq_some.1 next
    rw [gives_step take_apply, here_cons split, State.advance_cons split] at ended
    simp only [gives_bind] at ended
    obtain ⟨value, middle, given, _, _, closed, _, _, spanned, ended⟩ := ended
    obtain ⟨closing, others, splits, closes, rfl, rfl⟩ := expect_eq_ok.1 closed
    cases spanned
    obtain ⟨rfl, rfl⟩ := gives_pure.1 ended
    obtain ⟨lexemes, taken, form⟩ := expressionUnless_reads eof fuel _ given clean
    have whole := taken.trans (.behind splits)
    refine ⟨_, false, whole.cons split, ?_, never⟩
    rw [whole.extent_cons_eq (by rfl)]
    exact .giveBack opens form closes
  next next =>
    obtain ⟨keyword, rest, split, opens⟩ := State.next?_eq_some.1 next
    rw [gives_step take_apply, here_cons split, State.advance_cons split] at ended
    simp only [gives_bind] at ended
    obtain ⟨test, middle, tested, body, final, repeated, _, _, spanned, ended⟩ := ended
    cases spanned
    obtain ⟨rfl, rfl⟩ := gives_pure.1 ended
    have growsTest : state.errors.size ≤ middle.errors.size :=
      (condition_progress eof fuel _).advances tested |>.size_le
    have growsBody := ((statementsProgress eof fuel).statement _).advances repeated |>.size_le
    obtain ⟨_, taken, opening, inner, closing, rfl, testOpens, tests, testCloses⟩ :=
      condition_reads eof fuel tested (Nat.le_trans growsBody clean)
    obtain ⟨lexemes, dangling, takenBody, repeats, free⟩ := parts.statement repeated (by omega)
    have whole := taken.trans takenBody
    refine ⟨_, dangling, whole.cons split, ?_, free⟩
    rw [whole.extent_cons_eq (by rfl)]
    simp only [List.cons_append, List.append_assoc, List.nil_append]
    exact .loop opens testOpens tests testCloses repeats
  next next =>
    obtain ⟨keyword, rest, split, opens⟩ := State.next?_eq_some.1 next
    rw [gives_step take_apply, here_cons split, State.advance_cons split] at ended
    simp only [gives_bind] at ended
    obtain ⟨body, middle, bodied, _, _, spanned, ended⟩ := ended
    cases spanned
    obtain ⟨rfl, rfl⟩ := gives_pure.1 ended
    obtain ⟨_, taken, inner, closing, rfl, declarations, closes⟩ := parts.blockBody bodied clean
    refine ⟨_, false, taken.cons split, ?_, never⟩
    rw [taken.extent_cons_eq (by rfl)]
    exact .block opens declarations closes
  next =>
    obtain ⟨lexemes, taken, form⟩ := expressionStatement_reads eof fuel ended clean
    exact ⟨lexemes, false, taken, .expression form, never⟩

end

/-- Statements are read with any amount of fuel. -/
theorem statementsRead (eof fuel : Nat) : StatementsRead eof fuel := by
  induction fuel with
  | zero =>
      exact ⟨.outOfFuel, fun _ _ _ _ _ _ ended => absurd ended not_gives_throw,
        fun _ _ _ ended => absurd ended not_gives_throw,
        fun _ _ ended => absurd ended not_gives_throw, .outOfFuel⟩
  | succ fuel parts =>
      exact ⟨declaration_reads parts, functionDeclaration_reads parts, statement_reads parts,
        forStatement_reads parts, blockBody_reads parts⟩

/-- A program that is read without an error is a sequence of declarations. -/
theorem program_forms {eof fuel : Nat} {state last : State} {statements : Program}
    (ended : Gives (program eof fuel) state statements last)
    (clean : last.errors.size ≤ state.errors.size) :
    Declarations .nearest state.nextId state.rest statements last.nextId := by
  induction fuel generalizing state statements with
  | zero => exact absurd ended not_gives_throw
  | succ fuel ih =>
      rw [program, gives_step atEnd_apply] at ended
      split at ended
      next passed =>
        obtain ⟨rfl, rfl⟩ := gives_pure.1 ended
        rw [List.isEmpty_iff.1 passed]
        exact .none
      next inside =>
        have some : state.rest ≠ [] := by simpa using inside
        simp only [gives_bind] at ended
        obtain ⟨given, middle, declared, others, final, followed, ended⟩ := ended
        obtain ⟨rfl, rfl⟩ := gives_pure.1 ended
        have grows := ((statementsProgress eof fuel).declaration state some).advances declared
          |>.size_le
        have growsRest := (program_progress eof fuel middle).advances followed |>.size_le
        obtain ⟨lexemes, taken, stmt, rfl, form⟩ :=
          (statementsRead eof fuel).declaration declared (by omega)
        rw [taken.rest]
        exact .more form (ih followed (by omega))

end Lox.Parser
