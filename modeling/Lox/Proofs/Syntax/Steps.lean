import Lox.Proofs.Computation
import Lox.Tree.Cursor

namespace Lox.Parser

/-- The lexeme is the given symbol. -/
def Spells (symbol : Symbol) (lexeme : Lexeme) : Prop := lexeme.token = .symbol symbol

/-- A lexeme has the symbol that it spells. -/
theorem symbol?_eq_some {lexeme : Lexeme} {symbol : Symbol} :
    lexeme.symbol? = some symbol ↔ Spells symbol lexeme := by
  unfold Lexeme.symbol? Spells
  split
  next same => simp [same]
  all_goals simp_all

/-- The symbol of the next lexeme, if it is one. -/
def State.next? (state : State) : Option Symbol := state.rest.head?.bind Lexeme.symbol?

/-- The state behind a lexeme. -/
def State.behind (state : State) (lexeme : Lexeme) (rest : List Lexeme) : State :=
  { state with rest, lastStop := lexeme.span.stop }

section
variable (state : State) (lexeme : Lexeme) (rest : List Lexeme)

@[simp] theorem State.behind_nextId : (state.behind lexeme rest).nextId = state.nextId := rfl

@[simp] theorem State.behind_errors : (state.behind lexeme rest).errors = state.errors := rfl

end

theorem State.advance_cons {state : State} {lexeme : Lexeme} {rest : List Lexeme}
    (next : state.rest = lexeme :: rest) : state.advance = state.behind lexeme rest := by
  simp only [State.advance, next, State.behind]

/-- The next symbol is spelled by the next lexeme. -/
theorem State.next?_eq_some {state : State} {symbol : Symbol} :
    state.next? = some symbol ↔
      ∃ lexeme rest, state.rest = lexeme :: rest ∧ Spells symbol lexeme := by
  unfold State.next?
  cases state.rest with
  | nil => simp
  | cons lexeme rest => simp [symbol?_eq_some]

variable {eof : Nat} {α : Type} {state after : State} {symbol : Symbol}

@[simp] theorem peek?_apply : peek? state = .ok state.next? state := rfl

@[simp] theorem isNext_apply :
    isNext symbol state = .ok (decide (state.next? = some symbol)) state := rfl

@[simp] theorem atEnd_apply : atEnd state = .ok state.rest.isEmpty state := rfl

@[simp] theorem here_apply : here eof state = .ok (state.here eof) state := rfl

@[simp] theorem take_apply : take eof state = .ok (state.here eof) state.advance := rfl

@[simp] theorem spanFrom_apply {start : Nat} :
    spanFrom start state = .ok ⟨start, state.lastStop⟩ state := rfl

@[simp] theorem report_apply {error : Located Error} :
    report error state = .ok () { state with errors := state.errors.push error } := rfl

@[simp] theorem freshId_apply :
    freshId state = .ok state.nextId { state with nextId := state.nextId + 1 } := rfl

/-- A symbol that is next is taken. -/
theorem accept_of_next (next : state.next? = some symbol) :
    accept symbol state = .ok true state.advance := by
  rw [accept, Computation.bind_of_ok isNext_apply, decide_eq_true next]
  rfl

/-- A symbol that is not next is not taken. -/
theorem accept_of_other (other : state.next? ≠ some symbol) :
    accept symbol state = .ok false state := by
  rw [accept, Computation.bind_of_ok isNext_apply, decide_eq_false other]
  rfl

/-- An expected symbol that is next is taken. -/
theorem expect_of_next (next : state.next? = some symbol) :
    expect eof symbol state = .ok (state.here eof) state.advance := by
  rw [expect, Computation.bind_of_ok isNext_apply, decide_eq_true next]
  rfl

/-- An expected symbol that is not next is an error. -/
theorem expect_of_other (other : state.next? ≠ some symbol) :
    expect eof symbol state =
      .error (.error (state.unexpected eof (expectation symbol))) state := by
  rw [expect, Computation.bind_of_ok isNext_apply, decide_eq_false other]
  rfl

theorem here_cons {lexeme : Lexeme} {rest : List Lexeme} (next : state.rest = lexeme :: rest) :
    state.here eof = lexeme.span := by
  simp only [State.here, next]

/-- An expected symbol is taken if it comes next. -/
theorem expect_eq_ok {span : Span} :
    expect eof symbol state = .ok span after ↔
      ∃ lexeme rest, state.rest = lexeme :: rest ∧ Spells symbol lexeme ∧
        span = lexeme.span ∧ after = state.behind lexeme rest := by
  by_cases next : state.next? = some symbol
  · obtain ⟨lexeme, rest, split, spelled⟩ := State.next?_eq_some.1 next
    rw [expect_of_next next, here_cons split, State.advance_cons split]
    constructor
    · intro same
      cases same
      exact ⟨lexeme, rest, split, spelled, rfl, rfl⟩
    · rintro ⟨other, behind, again, -, rfl, rfl⟩
      cases split.symm.trans again
      rfl
  · rw [expect_of_other next]
    constructor
    · intro same
      cases same
    · rintro ⟨lexeme, rest, split, spelled, -⟩
      exact absurd (State.next?_eq_some.2 ⟨lexeme, rest, split, spelled⟩) next

/-- An optional symbol is taken if it comes next, and otherwise nothing is. -/
theorem accept_eq_ok {taken : Bool} :
    accept symbol state = .ok taken after ↔
      (taken = true ∧ ∃ lexeme rest, state.rest = lexeme :: rest ∧ Spells symbol lexeme ∧
        after = state.behind lexeme rest) ∨
      (taken = false ∧ state.next? ≠ some symbol ∧ after = state) := by
  by_cases next : state.next? = some symbol
  · obtain ⟨lexeme, rest, split, spelled⟩ := State.next?_eq_some.1 next
    rw [accept_of_next next, State.advance_cons split]
    constructor
    · intro same
      cases same
      exact .inl ⟨rfl, lexeme, rest, split, spelled, rfl⟩
    · rintro (⟨rfl, other, behind, again, -, rfl⟩ | ⟨-, different, -⟩)
      · cases split.symm.trans again
        rfl
      · exact absurd next different
  · rw [accept_of_other next]
    constructor
    · intro same
      cases same
      exact .inr ⟨rfl, next, rfl⟩
    · rintro (⟨-, lexeme, rest, split, spelled, -⟩ | ⟨rfl, -, rfl⟩)
      · exact absurd (State.next?_eq_some.2 ⟨lexeme, rest, split, spelled⟩) next
      · rfl

/-- An identifier is taken as a name. -/
theorem expectName_cons {expected name text : String} {span : Span} {rest : List Lexeme}
    (next : state.rest = ⟨.identifier name, text, span⟩ :: rest) :
    expectName eof expected state =
      .ok ⟨name, span⟩ (state.behind ⟨.identifier name, text, span⟩ rest) := by
  rw [expectName, Computation.bind_of_ok (Computation.get_apply _), next]
  simp only
  rw [Computation.bind_of_ok take_apply, here_cons next, State.advance_cons next]
  rfl

/-- A name is taken if an identifier comes next, and otherwise the production stops. -/
theorem expectName_eq (eof : Nat) (state : State) (expected : String) :
    (∃ name text span rest, state.rest = ⟨.identifier name, text, span⟩ :: rest ∧
      expectName eof expected state =
        .ok ⟨name, span⟩ (state.behind ⟨.identifier name, text, span⟩ rest)) ∨
    expectName eof expected state =
      .error (.error (state.unexpected eof expected)) state := by
  rcases split : state.rest with _ | ⟨⟨token, text, span⟩, rest⟩
  · right
    rw [expectName, Computation.bind_of_ok (Computation.get_apply _), split]
    rfl
  · cases token with
    | identifier name => exact .inl ⟨name, text, span, rest, rfl, expectName_cons split⟩
    | _ =>
        right
        rw [expectName, Computation.bind_of_ok (Computation.get_apply _), split]
        rfl

/-- A name is taken only from an identifier. -/
theorem expectName_eq_ok {expected : String} {name : Name} :
    expectName eof expected state = .ok name after ↔
      ∃ text rest, state.rest = ⟨.identifier name.item, text, name.span⟩ :: rest ∧
        after = state.behind ⟨.identifier name.item, text, name.span⟩ rest := by
  constructor
  · intro named
    rcases expectName_eq eof state expected with
      ⟨item, text, span, rest, split, taken⟩ | refused
    · cases named.symm.trans taken
      exact ⟨text, rest, split, rfl⟩
    · cases named.symm.trans refused
  · rintro ⟨text, rest, split, rfl⟩
    exact expectName_cons split

/-- A list within the limit passes the check. -/
theorem checkLength_of_short {listed : Listed} {length : Nat} (short : length < listLimit) :
    checkLength eof listed length state = .ok () state := by
  rw [checkLength, if_neg (Nat.not_le.2 short)]
  rfl

/-- A list beyond the limit is reported, and reading goes on. -/
theorem checkLength_of_long {listed : Listed} {length : Nat} (long : listLimit ≤ length) :
    checkLength eof listed length state =
      .ok () { state with
        errors := state.errors.push ⟨.tooMany listed listLimit, state.here eof⟩ } := by
  rw [checkLength, if_pos long, Computation.bind_of_ok here_apply]
  rfl

/-- A list that is not reported is shorter than the limit. -/
theorem checkLength_eq_ok {listed : Listed} {length : Nat}
    (checked : checkLength eof listed length state = .ok () after)
    (clean : after.errors.size ≤ state.errors.size) : length + 1 ≤ listLimit ∧ after = state := by
  by_cases long : listLimit ≤ length
  · cases (checkLength_of_long long).symm.trans checked
    simp only [Array.size_push] at clean
    omega
  · have short := Nat.not_le.1 long
    cases (checkLength_of_short short).symm.trans checked
    exact ⟨short, rfl⟩

/-- An identifier that is read gets the next number. -/
theorem variable_cons {name : String} {lexeme : Lexeme} {rest : List Lexeme}
    (next : state.rest = lexeme :: rest) :
    (do
      let id ← freshId
      return Expr.variable ⟨id, name, ← take eof⟩) state =
      .ok (.variable ⟨state.nextId, name, lexeme.span⟩)
        { state.behind lexeme rest with nextId := state.nextId + 1 } := by
  rw [Computation.bind_of_ok freshId_apply, Computation.bind_of_ok take_apply]
  simp only [State.here, State.advance, next, Computation.pure_apply, State.behind]

end Lox.Parser
