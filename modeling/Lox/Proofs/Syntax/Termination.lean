import Lox.Proofs.Lexing.Slices
import Lox.Proofs.Syntax.Positions
import Lox.Proofs.Syntax.Walking

namespace Lox.Parser

open Lox.Computation Text

/-- A production has a value with some fuel, and more fuel changes nothing. -/
def Settles {α : Type} (production : Nat → Production α) (state : State) (value : α)
    (last : State) : Prop :=
  ∃ fuel, ∀ more, fuel ≤ more → production more state = .ok value last

/-- The lexemes of a text before any of them is read, with the errors of the lexer. -/
def startOf (text : String) : State := ⟨lexemesOf text, 0, 0, (lexErrorsOf text).toArray⟩

section
variable {eof fuel : Nat} {state first last : State}

theorem still_state (state : State) : still.state eof [] state = state := by
  rw [Move.state, still_lexeme, still_error]
  simp [still]

/-- A production that reads alike with any fuel settles as soon as it does not lack fuel. -/
theorem settles_of_mirrors {α : Type} {image : α → α} {production : Nat → Production α} {value : α}
    (keeps : ∀ value, image value = value)
    (mirrors : ∀ more, Mirrors still eof [] image (production fuel) (production more) state)
    (enough : ∀ more, fuel ≤ more → ∀ after, production more state ≠ .error .outOfFuel after)
    (ended : production fuel state = .ok value last) : Settles production state value last := by
  refine ⟨fuel, fun more further => ?_⟩
  have alike := mirrors more
  unfold Mirrors at alike
  rw [still_state, ended] at alike
  cases also : production more state with
  | ok other after =>
      rw [also] at alike
      obtain ⟨-, rfl, rfl⟩ := alike
      rw [keeps, still_state]
  | error stop after =>
      rw [also] at alike
      cases stop with
      | error error => exact alike.elim
      | outOfFuel => exact absurd also (enough more further after)

theorem option_stmt_still (found : Option Stmt) :
    found.map still.relabeling.stmt = found := by
  cases found with
  | none => rfl
  | some stmt => exact congrArg some (still_relabeling ▸ Relabeling.stmt_identity stmt)

/-- Where a lexeme is left a declaration settles, and it passes a lexeme. -/
theorem declaration_settles (apart : Apart eof state) (inside : state.rest ≠ []) :
    ∃ found last, Settles (declaration eof) state found last ∧ Advances 1 state last := by
  have progress (fuel : Nat) := (statementsProgress eof fuel).declaration state inside
  have enough (more : Nat) (further : state.need 19 ≤ more) (after : State) :
      declaration eof more state ≠ .error .outOfFuel after := fun lacking =>
    absurd ((progress more).lacks lacking) (Nat.not_lt.2 further)
  cases ended : declaration eof (state.need 19) state with
  | ok found last =>
      have mirrors (more : Nat) :=
        (statementsMirror still eof [] (state.need 19) more).declaration apart
      exact ⟨found, last, settles_of_mirrors option_stmt_still mirrors enough ended,
        (progress _).advances ended⟩
  | error stop after =>
      cases stop with
      | error error => exact absurd ended declaration_ne_error
      | outOfFuel => exact absurd ended (enough _ (Nat.le_refl _) after)

/-- A declaration that is left out stops at an error, which is reported, and goes on behind it. -/
theorem declaration_none (ended : declaration eof fuel state = .ok none last) :
    ∃ read failed expected, Path eof state read failed ∧ last.rest = recover failed.rest ∧
      last.errors = failed.errors.push (failed.unexpected eof expected) := by
  cases fuel with
  | zero => cases ended
  | succ fuel =>
      rw [declaration, attempt] at ended
      have walks := attempted_walks (statementsWalk eof fuel) state
      split at ended
      next => cases ended
      next error failed stopped =>
        cases ended
        obtain ⟨⟨read, path, -⟩, expected, rfl⟩ := walks.stopped stopped
        exact ⟨read, failed, expected, path, rfl, rfl⟩
      next => cases ended

/-- A program is read up to the end of its text. -/
theorem program_ends {stmts : Program} (ended : program eof fuel state = .ok stmts last) :
    last.rest = [] := by
  induction fuel generalizing state stmts with
  | zero => cases ended
  | succ fuel ih =>
      rw [program, bind_of_ok atEnd_apply] at ended
      split at ended
      next none =>
        cases ended
        exact List.isEmpty_iff.1 none
      next =>
        obtain ⟨found, middle, -, ended⟩ := bind_eq_ok.1 ended
        obtain ⟨others, after, further, ended⟩ := bind_eq_ok.1 ended
        cases ended
        exact ih further

/-- The text in an error that is reported along a path is that of a lexeme at its place. -/
theorem Path.reported {read : List Lexeme} (path : Path eof first read last)
    {error : Located Error} {text : String} (named : error.item.text? = some text)
    (reported : error ∈ last.errors.toList) :
    error ∈ first.errors.toList ∨
      ∃ lexeme ∈ first.rest, error.span = lexeme.span ∧ text = lexeme.text := by
  induction path with
  | nil => exact .inl reported
  | @cons first middle last _ _ step _ ih =>
      rcases ih reported with early | ⟨lexeme, given, place⟩
      · cases step with
        | take | read => exact .inl early
        | report silent =>
            simp only [Array.toList_push, List.mem_append, List.mem_singleton] at early
            rcases early with early | rfl
            · exact .inl early
            · cases silent.symm.trans named
        | giveUp =>
            simp only [Array.toList_push, List.mem_append, List.mem_singleton] at early
            rcases early with early | rfl
            · exact .inl early
            · unfold State.unexpected at named ⊢
              split at named
              next => cases named
              next lexeme rest next =>
                cases named
                exact .inr ⟨lexeme, by simp [next], rfl, rfl⟩
      · exact .inr ⟨lexeme, step.suffix.subset given, place⟩

end

/-- A program that is read with the fuel of the parser is read alike with any more fuel. -/
theorem program_settles {text : String} {stmts : Program} {last : State}
    (ended : program text.utf8ByteSize (enoughFuel (lexemesOf text)) (startOf text) = .ok stmts last) :
    Settles (program text.utf8ByteSize) (startOf text) stmts last := by
  refine settles_of_mirrors (fun stmts => still_relabeling ▸ Relabeling.stmts_identity stmts)
    (fun more => program_mirrors _ more (lexemesOf_apart text _)) (fun more further after lacking => ?_)
    ended
  have short := (program_progress _ more (startOf text)).lacks lacking
  simp only [State.need, startOf, enoughFuel, fuelPerLexeme] at short further
  omega

/-- The reading of a text ends. Its productions go along paths from its first lexeme, and the position
of the next lexeme stays within the lexemes there. -/
structure ReadsToEnd (text : String) : Prop where
  expressions : ∀ fuel, ExpressionsWalk text.utf8ByteSize fuel
  statements : ∀ fuel, StatementsWalk text.utf8ByteSize fuel
  within : ∀ {read state}, Path text.utf8ByteSize (startOf text) read state →
    ∃ current, AtPosition (lexemesOf text) current state
  forwards : ∀ {first last read current next}, Path text.utf8ByteSize first read last →
    AtPosition (lexemesOf text) current first → AtPosition (lexemesOf text) next last →
    current ≤ next
  /-- Where lexemes are left, a declaration ends behind the next one, found or not. -/
  passes : ∀ {state current}, AtPosition (lexemesOf text) current state →
    current < (lexemesOf text).length →
    ∃ found last next, Settles (declaration text.utf8ByteSize) state found last ∧
      AtPosition (lexemesOf text) next last ∧ current < next
  /-- A declaration that is not found is left where the next statement is looked for. -/
  recovers : ∀ {state last current}, AtPosition (lexemesOf text) current state →
    Settles (declaration text.utf8ByteSize) state none last →
    ∃ failed place next expected, AtPosition (lexemesOf text) place failed ∧ current ≤ place ∧
      synchronize? (lexemesOf text) place = some next ∧ AtPosition (lexemesOf text) next last ∧
      last.errors = failed.errors.push (failed.unexpected text.utf8ByteSize expected)
  /-- The search never looks before the first lexeme. -/
  searches : ∀ current ≤ (lexemesOf text).length, synchronize? (lexemesOf text) current ≠ none
  slices : ∀ lexeme ∈ lexemesOf text, slice? text.toList lexeme.span = some lexeme.text.toList
  messages : ∀ error ∈ (parse text).errors, ∀ named ∈ error.item.text?,
    slice? text.toList error.span = some named.toList
  ends : ∃ read last, Path text.utf8ByteSize (startOf text) read last ∧ last.rest = [] ∧
    Settles (program text.utf8ByteSize) (startOf text) (parse text).program last ∧
    last.errors.toList = (parse text).errors

/-- The text in an error of a parse is the slice at its span. -/
theorem parse_slice {text named : String} {error : Located Error}
    (given : error ∈ (parse text).errors) (names : error.item.text? = some named) :
    slice? text.toList error.span = some named.toList := by
  obtain ⟨program, last, ended, same, -⟩ := parse_reads text
  obtain ⟨read, path, -⟩ := (program_walks _ _ _).reaches ended
  rw [same] at given
  rcases path.reported names given with lexed | ⟨lexeme, among, place, rfl⟩
  · exact lexErrorsOf_slice lexed names
  · rw [place]
    exact lexemesOf_slice among

section
variable {text : String} {state last : State} {current : Nat}

/-- Where lexemes are left a declaration settles at a position behind the next one. -/
theorem declaration_passes (position : AtPosition (lexemesOf text) current state)
    (inside : current < (lexemesOf text).length) :
    ∃ found last next, Settles (declaration text.utf8ByteSize) state found last ∧
      AtPosition (lexemesOf text) next last ∧ current < next := by
  have apart : Apart text.utf8ByteSize state := fun lexeme given =>
    lexemesOf_apart text _ lexeme (List.mem_of_mem_drop (position.left ▸ given))
  obtain ⟨found, last, settles, advances⟩ :=
    declaration_settles apart (position.rest_ne_nil.2 inside)
  obtain ⟨taken, split, passed⟩ := advances.passed
  exact ⟨found, last, _, settles, position.passed split, by omega⟩

/-- A declaration that is not found goes on where the search from its error ends. -/
theorem declaration_recovers (position : AtPosition (lexemesOf text) current state)
    (settles : Settles (declaration text.utf8ByteSize) state none last) :
    ∃ failed place next expected, AtPosition (lexemesOf text) place failed ∧ current ≤ place ∧
      synchronize? (lexemesOf text) place = some next ∧ AtPosition (lexemesOf text) next last ∧
      last.errors = failed.errors.push (failed.unexpected text.utf8ByteSize expected) := by
  obtain ⟨fuel, settled⟩ := settles
  obtain ⟨read, failed, expected, path, behind, reported⟩ :=
    declaration_none (settled fuel (Nat.le_refl _))
  obtain ⟨place, failing, forwards⟩ := path.position position
  obtain ⟨next, found, after, -⟩ := synchronize?_eq failing behind
  exact ⟨failed, place, next, expected, failing, forwards, found, after, reported⟩

end

/-- Every text is read to its end, however malformed it is. -/
theorem parse_terminates (text : String) : ReadsToEnd text where
  expressions := expressionsWalk _
  statements := statementsWalk _
  within path := by
    obtain ⟨current, position, -⟩ := path.position (.start 0 0 _)
    exact ⟨current, position⟩
  forwards path before behind := by
    obtain ⟨next, position, forwards⟩ := path.position before
    exact position.unique behind ▸ forwards
  passes := declaration_passes
  recovers := declaration_recovers
  searches current within := synchronize?_ne_none within
  slices _ among := lexemesOf_slice among
  messages _ given _ names := parse_slice given (Option.mem_def.1 names)
  ends := by
    obtain ⟨stmts, last, ended, same, -⟩ := parse_reads text
    obtain ⟨read, path, -⟩ := (program_walks _ _ _).reaches ended
    rw [same]
    exact ⟨read, last, path, program_ends ended, program_settles ended, rfl⟩

end Lox.Parser
