import Lox.Proofs.Syntax.Progress

namespace Lox.Parser

open Lox.Computation

section
variable (eof : Nat)

/-- A state is left where a statement stops: the error there is reported, and reading goes on with
the next statement. -/
def State.givenUp (failed : State) (expected : String) : State :=
  { failed with
    rest := recover failed.rest
    errors := failed.errors.push (failed.unexpected eof expected) }

/-- What is read from one state to another, with the errors that are reported in between. -/
inductive Trail : State → List (Located Error) → State → Prop
  | nil {state : State} : Trail state [] state
  | take {first middle : State} {errors : List (Located Error)} {lexeme : Lexeme}
      {rest : List Lexeme} (before : Trail first errors middle)
      (next : middle.rest = lexeme :: rest) :
      Trail first errors (middle.behind lexeme rest)
  | number {first middle : State} {errors : List (Located Error)}
      (before : Trail first errors middle) :
      Trail first errors { middle with nextId := middle.nextId + 1 }
  | tooMany {first middle : State} {errors : List (Located Error)}
      (before : Trail first errors middle) (listed : Listed) :
      Trail first (errors ++ [⟨.tooMany listed listLimit, middle.here eof⟩])
        { middle with
          errors := middle.errors.push ⟨.tooMany listed listLimit, middle.here eof⟩ }
  | invalidTarget {first middle : State} {errors : List (Located Error)}
      (before : Trail first errors middle) (place : Span) :
      Trail first (errors ++ [⟨.invalidAssignmentTarget, place⟩])
        { middle with errors := middle.errors.push ⟨.invalidAssignmentTarget, place⟩ }
  /-- A declaration inside has a trail of its own up to the lexeme where it stops. -/
  | fails {first middle failed : State} {errors others : List (Located Error)} {expected : String}
      {fuel : Nat} (before : Trail first errors middle) (inside : Trail middle others failed)
      (given : declaration eof fuel middle = .ok none (failed.givenUp eof expected)) :
      Trail first (errors ++ others ++ [failed.unexpected eof expected])
        (failed.givenUp eof expected)

/-- A trail leads from one state to another. -/
def Leads (first last : State) : Prop := ∃ errors, Trail eof first errors last

/-- A production follows a trail, and it only stops at a lexeme that is not expected. -/
def Trails {α : Type} (production : Production α) : Prop :=
  ∀ state, match production state with
  | .ok _ last => Leads eof state last
  | .error (.error error) last =>
      Leads eof state last ∧ ∃ expected, error = last.unexpected eof expected
  | .error .outOfFuel _ => True

end

variable {eof : Nat}

/-- Two trails that meet are one trail. -/
theorem Trail.trans {first middle last : State} {errors others : List (Located Error)}
    (before : Trail eof first errors middle) (behind : Trail eof middle others last) :
    Trail eof first (errors ++ others) last := by
  induction behind with
  | nil => rwa [List.append_nil]
  | take _ next ih => exact (ih before).take next
  | number _ ih => exact (ih before).number
  | tooMany _ listed ih =>
      rw [← List.append_assoc]
      exact (ih before).tooMany listed
  | invalidTarget _ place ih =>
      rw [← List.append_assoc]
      exact (ih before).invalidTarget place
  | fails _ inside given ih _ =>
      rw [← List.append_assoc, ← List.append_assoc]
      exact (ih before).fails inside given

/-- The errors of a trail come behind those that are there before. -/
theorem Trail.errors {first last : State} {errors : List (Located Error)}
    (trail : Trail eof first errors last) : last.errors.toList = first.errors.toList ++ errors := by
  induction trail with
  | nil => exact (List.append_nil _).symm
  | take _ _ ih | number _ ih => exact ih
  | tooMany _ _ ih | invalidTarget _ _ ih => rw [Array.toList_push, ih, List.append_assoc]
  | fails _ _ _ ih other =>
      rw [State.givenUp, Array.toList_push, other, ih, List.append_assoc, List.append_assoc,
        List.append_assoc]

namespace Leads

variable {first middle last state : State}

theorem refl (state : State) : Leads eof state state := ⟨[], .nil⟩

theorem trans (before : Leads eof first middle) (behind : Leads eof middle last) :
    Leads eof first last := by
  obtain ⟨errors, trail⟩ := before
  obtain ⟨others, further⟩ := behind
  exact ⟨_, trail.trans further⟩

/-- A lexeme that is taken leaves a trail. -/
theorem advance (state : State) : Leads eof state state.advance := by
  cases split : state.rest with
  | nil =>
      rw [State.advance, split]
      exact refl state
  | cons lexeme rest =>
      rw [State.advance_cons split]
      exact ⟨_, .take .nil split⟩

end Leads

namespace Trails

variable {α β : Type} {production : Production α} {next : α → Production β}

theorem pure {value : α} : Trails eof (pure value : Production α) := fun state => .refl state

theorem outOfFuel : Trails eof (throw .outOfFuel : Production α) := fun _ => trivial

theorem refuse {expected : String} : Trails eof (refuse eof expected : Production α) :=
  fun state => ⟨.refl state, expected, rfl⟩

theorem bind (start : Trails eof production) (rest : ∀ value, Trails eof (next value)) :
    Trails eof (production >>= next) := by
  intro state
  have before := start state
  cases ended : production state with
  | ok value middle =>
      rw [bind_of_ok ended]
      rw [ended] at before
      have behind := rest value middle
      cases also : next value middle with
      | ok other last =>
          rw [also] at behind
          exact before.trans behind
      | error stop last =>
          rw [also] at behind
          cases stop with
          | error error => exact ⟨before.trans behind.1, behind.2⟩
          | outOfFuel => trivial
  | error stop middle =>
      rw [bind_of_error ended]
      rw [ended] at before
      cases stop with
      | error error => exact before
      | outOfFuel => trivial

theorem map (f : α → β) (trails : Trails eof production) : Trails eof (f <$> production) := by
  rw [map_eq_pure_bind]
  exact trails.bind fun _ => pure

end Trails

section
variable {symbol : Symbol}

theorem get_trails : Trails eof (get : Production State) := fun state => .refl state

theorem peek?_trails : Trails eof peek? := fun state => .refl state

theorem isNext_trails : Trails eof (isNext symbol) := fun state => .refl state

theorem atEnd_trails : Trails eof atEnd := fun state => .refl state

theorem here_trails : Trails eof (here eof) := fun state => .refl state

theorem spanFrom_trails {start : Nat} : Trails eof (spanFrom start) := fun state => .refl state

theorem take_trails : Trails eof (take eof) := fun state => .advance state

theorem freshId_trails : Trails eof freshId := fun _ => ⟨_, .number .nil⟩

theorem accept_trails : Trails eof (accept symbol) := by
  intro state
  by_cases next : state.next? = some symbol
  · rw [accept_of_next next]
    exact .advance state
  · rw [accept_of_other next]
    exact .refl state

theorem expect_trails : Trails eof (expect eof symbol) := by
  intro state
  by_cases next : state.next? = some symbol
  · rw [expect_of_next next]
    exact .advance state
  · rw [expect_of_other next]
    exact ⟨.refl state, _, rfl⟩

theorem expectName_trails {expected : String} : Trails eof (expectName eof expected) := by
  intro state
  rcases expectName_eq eof state expected with ⟨name, text, span, rest, split, taken⟩ | refused
  · rw [taken]
    exact ⟨_, .take .nil split⟩
  · rw [refused]
    exact ⟨.refl state, expected, rfl⟩

/-- An invalid target may be reported at any place. -/
theorem invalidTarget_trails (place : Span) :
    Trails eof (report ⟨.invalidAssignmentTarget, place⟩) := fun _ => ⟨_, .invalidTarget .nil place⟩

/-- A list that is too long is reported on the trail. -/
theorem checkLength_trails {listed : Listed} {length : Nat} :
    Trails eof (checkLength eof listed length) := by
  intro state
  by_cases long : listLimit ≤ length
  · rw [checkLength_of_long long]
    exact ⟨_, .tooMany .nil listed⟩
  · rw [checkLength_of_short (Nat.not_le.1 long)]
    exact .refl state

end

section
variable (eof : Nat)

/-- The productions of expressions follow trails with an amount of fuel. -/
structure ExpressionsTrail (fuel : Nat) : Prop where
  expression : Trails eof (expression eof fuel)
  operand (level : Level) : Trails eof (operand eof fuel level)
  chain (level : Level) : Trails eof (chain eof fuel level)
  chainAfter (level : Level) (left : Expr) : Trails eof (chainAfter eof fuel level left)
  unary : Trails eof (unary eof fuel)
  call : Trails eof (call eof fuel)
  callAfter (callee : Expr) : Trails eof (callAfter eof fuel callee)
  arguments (length : Nat) : Trails eof (arguments eof fuel length)
  primary : Trails eof (primary eof fuel)

variable {eof} {fuel : Nat} (parts : ExpressionsTrail eof fuel)
include parts

/-- One more unit of fuel lets an expression leave a trail. -/
theorem expression_trails : Trails eof (expression eof (fuel + 1)) := by
  rw [expression]
  refine .bind (parts.chain .or) fun target => .bind isNext_trails fun assigns => ?_
  split
  next =>
    refine .bind take_trails fun place => .bind parts.expression fun value => ?_
    split
    next => exact .pure
    next => exact .bind (invalidTarget_trails place) fun _ => .pure
  next => exact .pure

theorem operand_trails (level : Level) : Trails eof (operand eof (fuel + 1) level) := by
  rw [operand]
  split
  next tighter _ => exact parts.chain tighter
  next => exact parts.unary

theorem chain_trails (level : Level) : Trails eof (chain eof (fuel + 1) level) := by
  rw [chain]
  exact .bind (parts.operand level) (parts.chainAfter level)

theorem chainAfter_trails (level : Level) (left : Expr) :
    Trails eof (chainAfter eof (fuel + 1) level left) := by
  rw [chainAfter]
  refine .bind peek?_trails fun next => ?_
  split
  next =>
    refine .bind take_trails fun place => .bind (parts.operand level) fun right => ?_
    exact parts.chainAfter level _
  next => exact .pure

theorem unary_trails : Trails eof (unary eof (fuel + 1)) := by
  rw [unary]
  refine .bind peek?_trails fun next => ?_
  split
  next => exact .bind take_trails fun place => .bind parts.unary fun inner => .pure
  next => exact parts.call

theorem call_trails : Trails eof (call eof (fuel + 1)) := by
  rw [call]
  exact .bind parts.primary parts.callAfter

theorem callAfter_trails (callee : Expr) : Trails eof (callAfter eof (fuel + 1) callee) := by
  rw [callAfter]
  refine .bind accept_trails fun taken => ?_
  split
  next =>
    refine .bind isNext_trails fun closes => ?_
    have closing (given : List Expr) : Trails eof (do
        let paren ← expect eof .rightParen
        callAfter eof fuel (.call (callee.span.to paren) paren callee given)) :=
      .bind expect_trails fun paren => parts.callAfter _
    split
    next => exact .bind .pure closing
    next => exact .bind (parts.arguments 0) closing
  next => exact .pure

theorem arguments_trails (length : Nat) : Trails eof (arguments eof (fuel + 1) length) := by
  rw [arguments]
  refine .bind checkLength_trails fun _ => .bind parts.expression fun first => ?_
  refine .bind accept_trails fun taken => ?_
  split
  next => exact .bind (parts.arguments (length + 1)) fun others => .pure
  next => exact .pure

/-- A primary expression leaves a trail. -/
theorem primary_trails : Trails eof (primary eof (fuel + 1)) := by
  rw [primary]
  refine .bind get_trails fun state => ?_
  split
  next => exact .refuse
  next =>
    split
    next => exact .bind freshId_trails fun id => .bind take_trails fun span => .pure
    next =>
      refine .bind take_trails fun opening => .bind parts.expression fun inner => ?_
      exact .bind expect_trails fun closing => .pure
    next =>
      split
      next => exact .bind take_trails fun place => .pure
      next => exact .refuse

end

/-- Every expression leaves a trail, whatever its fuel is. -/
theorem expressionsTrail (eof fuel : Nat) : ExpressionsTrail eof fuel := by
  induction fuel with
  | zero =>
      exact ⟨.outOfFuel, fun _ => .outOfFuel, fun _ => .outOfFuel, fun _ _ => .outOfFuel,
        .outOfFuel, .outOfFuel, fun _ => .outOfFuel, fun _ => .outOfFuel, .outOfFuel⟩
  | succ fuel parts =>
      exact ⟨expression_trails parts, operand_trails parts, chain_trails parts,
        chainAfter_trails parts, unary_trails parts, call_trails parts, callAfter_trails parts,
        arguments_trails parts, primary_trails parts⟩

section
variable (eof fuel : Nat)

theorem parameters_trails (length : Nat) : Trails eof (parameters eof fuel length) := by
  induction fuel generalizing length with
  | zero => exact .outOfFuel
  | succ fuel ih =>
      rw [parameters]
      refine .bind checkLength_trails fun _ => .bind expectName_trails fun first => ?_
      refine .bind accept_trails fun taken => ?_
      split
      next => exact .bind (ih (length + 1)) fun others => .pure
      next => exact .pure

theorem condition_trails : Trails eof (condition eof fuel) := by
  simp only [condition, discard_bind]
  refine .bind expect_trails fun _ => .bind (expressionsTrail eof fuel).expression fun test => ?_
  exact .bind expect_trails fun _ => .pure

theorem variableDeclaration_trails (start : Nat) :
    Trails eof (variableDeclaration eof fuel start) := by
  simp only [variableDeclaration, discard_bind]
  refine .bind expectName_trails fun name => .bind accept_trails fun taken => ?_
  have closing (initializer : Option Expr) : Trails eof (do
      let _ ← expect eof .semicolon
      let span ← spanFrom start
      return Stmt.variable span name initializer) :=
    .bind expect_trails fun _ => .bind spanFrom_trails fun span => .pure
  split
  next => exact .bind (.map some (expressionsTrail eof fuel).expression) closing
  next => exact .bind .pure closing

theorem expressionStatement_trails : Trails eof (expressionStatement eof fuel) := by
  simp only [expressionStatement, discard_bind]
  refine .bind here_trails fun start => .bind (expressionsTrail eof fuel).expression fun value => ?_
  exact .bind expect_trails fun _ => .bind spanFrom_trails fun span => .pure

theorem loopStart_trails : Trails eof (loopStart eof fuel) := by
  rw [loopStart]
  refine .bind accept_trails fun missing => ?_
  split
  next => exact .pure
  next =>
    refine .bind isNext_trails fun declares => ?_
    split
    next =>
      exact .bind take_trails fun place => .map some (variableDeclaration_trails eof fuel _)
    next => exact .map some (expressionStatement_trails eof fuel)

theorem expressionUnless_trails (closing : Symbol) :
    Trails eof (expressionUnless eof fuel closing) := by
  rw [expressionUnless]
  refine .bind isNext_trails fun missing => ?_
  split
  next => exact .pure
  next => exact .map some (expressionsTrail eof fuel).expression

end

section
variable (eof : Nat)

/-- The productions of statements follow trails with an amount of fuel. -/
structure StatementsTrail (fuel : Nat) : Prop where
  declaration : Trails eof (declaration eof fuel)
  functionDeclaration (start : Nat) : Trails eof (functionDeclaration eof fuel start)
  statement : Trails eof (statement eof fuel)
  forStatement (start : Nat) : Trails eof (forStatement eof fuel start)
  blockBody : Trails eof (blockBody eof fuel)

variable {eof} {fuel : Nat} (parts : StatementsTrail eof fuel)
include parts

/-- What a declaration attempts. -/
theorem attempted_trails :
    Trails eof (do
      let start := (← here eof).start
      if ← accept .fun then
        functionDeclaration eof fuel start
      else if ← accept .var then
        variableDeclaration eof fuel start
      else
        statement eof fuel) := by
  refine .bind here_trails fun start => .bind accept_trails fun declares => ?_
  split
  next => exact parts.functionDeclaration _
  next =>
    refine .bind accept_trails fun declares => ?_
    split
    next => exact variableDeclaration_trails eof fuel _
    next => exact parts.statement

/-- A declaration has a statement, or it is given up at the end of a trail. -/
theorem declaration_cases {state last : State} {found : Option Stmt}
    (ended : declaration eof (fuel + 1) state = .ok found last) :
    (found.isSome ∧ Leads eof state last) ∨
      found = none ∧ ∃ errors failed expected, Trail eof state errors failed ∧
        last = failed.givenUp eof expected := by
  rw [declaration, attempt] at ended
  have trails := attempted_trails parts state
  split at ended
  next stmt after given =>
    rw [given] at trails
    cases ended
    exact .inl ⟨rfl, trails⟩
  next error failed stopped =>
    rw [stopped] at trails
    obtain ⟨⟨errors, trail⟩, expected, rfl⟩ := trails
    cases ended
    exact .inr ⟨rfl, errors, failed, expected, trail, rfl⟩
  next => cases ended

/-- A declaration leaves a trail through its recovery. -/
theorem declaration_trails : Trails eof (declaration eof (fuel + 1)) := by
  intro state
  cases ended : declaration eof (fuel + 1) state with
  | ok found last =>
      rcases declaration_cases parts ended with ⟨-, leads⟩ |
        ⟨rfl, errors, failed, expected, trail, rfl⟩
      · exact leads
      · exact ⟨_, .fails .nil trail ended⟩
  | error stop last =>
      cases stop with
      | error error => exact absurd ended declaration_ne_error
      | outOfFuel => trivial

theorem functionDeclaration_trails (start : Nat) :
    Trails eof (functionDeclaration eof (fuel + 1) start) := by
  simp only [functionDeclaration, discard_bind]
  refine .bind expectName_trails fun name => .bind expect_trails fun _ => ?_
  refine .bind isNext_trails fun closes => ?_
  have closing (given : List Name) : Trails eof (do
      let _ ← expect eof .rightParen
      let _ ← expect eof .leftBrace
      let body ← blockBody eof fuel
      let span ← spanFrom start
      return Stmt.function span name given body) :=
    .bind expect_trails fun _ => .bind expect_trails fun _ =>
      .bind parts.blockBody fun body => .bind spanFrom_trails fun span => .pure
  split
  next => exact .bind .pure closing
  next => exact .bind (parameters_trails eof fuel 0) closing

theorem forStatement_trails (start : Nat) : Trails eof (forStatement eof (fuel + 1) start) := by
  simp only [forStatement, discard_bind]
  refine .bind expect_trails fun _ => .bind (loopStart_trails eof fuel) fun initial => ?_
  refine .bind (expressionUnless_trails eof fuel _) fun test => .bind expect_trails fun _ => ?_
  refine .bind (expressionUnless_trails eof fuel _) fun step => .bind expect_trails fun _ => ?_
  exact .bind parts.statement fun body => .bind spanFrom_trails fun span => .pure

/-- One more unit of fuel lets a statement leave a trail. -/
theorem statement_trails : Trails eof (statement eof (fuel + 1)) := by
  simp only [statement, discard_bind]
  refine .bind here_trails fun start => .bind peek?_trails fun next => ?_
  split
  next => exact .bind take_trails fun _ => parts.forStatement _
  next =>
    refine .bind take_trails fun _ => .bind (condition_trails eof fuel) fun test => ?_
    refine .bind parts.statement fun consequent => .bind accept_trails fun taken => ?_
    have closing (alternative : Option Stmt) : Trails eof (do
        let span ← spanFrom start.start
        return Stmt.branch span test consequent alternative) :=
      .bind spanFrom_trails fun span => .pure
    split
    next => exact .bind (.map some parts.statement) closing
    next => exact .bind .pure closing
  next =>
    refine .bind take_trails fun _ => .bind (expressionsTrail eof fuel).expression fun value => ?_
    exact .bind expect_trails fun _ => .bind spanFrom_trails fun span => .pure
  next =>
    refine .bind take_trails fun _ => .bind (expressionUnless_trails eof fuel _) fun value => ?_
    exact .bind expect_trails fun _ => .bind spanFrom_trails fun span => .pure
  next =>
    refine .bind take_trails fun _ => .bind (condition_trails eof fuel) fun test => ?_
    exact .bind parts.statement fun body => .bind spanFrom_trails fun span => .pure
  next =>
    refine .bind take_trails fun _ => .bind parts.blockBody fun body => ?_
    exact .bind spanFrom_trails fun span => .pure
  next => exact expressionStatement_trails eof fuel

theorem blockBody_trails : Trails eof (blockBody eof (fuel + 1)) := by
  simp only [blockBody, discard_bind]
  refine .bind isNext_trails fun closes => .bind atEnd_trails fun ends => ?_
  split
  next => exact .bind expect_trails fun _ => .pure
  next => exact .bind parts.declaration fun first => .bind parts.blockBody fun others => .pure

end

/-- Every statement leaves a trail, whatever its fuel is. -/
theorem statementsTrail (eof fuel : Nat) : StatementsTrail eof fuel := by
  induction fuel with
  | zero =>
      exact ⟨.outOfFuel, fun _ => .outOfFuel, .outOfFuel, fun _ => .outOfFuel, .outOfFuel⟩
  | succ fuel parts =>
      exact ⟨declaration_trails parts, functionDeclaration_trails parts, statement_trails parts,
        forStatement_trails parts, blockBody_trails parts⟩

/-- A declaration that fails stops at the end of a trail, and it is given up there. -/
theorem declaration_fails {fuel : Nat} {state last : State}
    (ended : declaration eof fuel state = .ok none last) :
    ∃ errors failed expected, Trail eof state errors failed ∧
      last = failed.givenUp eof expected := by
  cases fuel with
  | zero => cases ended
  | succ fuel =>
      rcases declaration_cases (statementsTrail eof fuel) ended with ⟨some, -⟩ | ⟨-, failure⟩
      · cases some
      · exact failure

end Lox.Parser
