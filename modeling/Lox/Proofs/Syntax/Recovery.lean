import Mathlib.Order.Bounds.Defs
import Lox.Proofs.Joining.Parsing
import Lox.Proofs.Layout.Nesting
import Lox.Proofs.Syntax.Termination
import Lox.Proofs.Syntax.Trails

namespace Lox.Parser

open Lox.Computation

section
variable (eof : Nat) (lexemes : List Lexeme)

/-- The span of the lexeme at a position, or the empty span at the end of the text. -/
def spanAt (position : Nat) : Span := (lexemes[position]?.map Lexeme.span).getD (.empty eof)

/-- A statement may begin behind a semicolon or with a keyword that only a statement starts with, and
the end of the lexemes ends the search for one. -/
inductive MayBegin (position : Nat) : Prop
  | behind {before : Nat} {lexeme : Lexeme} (next : position = before + 1)
      (found : lexemes[before]? = some lexeme) (ends : Spells .semicolon lexeme)
  | keyword {symbol : Symbol} {lexeme : Lexeme} (found : lexemes[position]? = some lexeme)
      (spelled : Spells symbol lexeme)
      (starts : symbol ∈ [.fun, .var, .for, .if, .while, .print, .return])
  | ends (last : position = lexemes.length)

/-- A declaration fails at one position of the lexemes, and reading goes on at another one. -/
structure FailsAt (first last : State) (place next : Nat) : Prop where
  /-- It stops at the end of a trail, and one error at the lexeme there comes behind those that are
  reported on the way. -/
  stops : ∃ errors failed expected, Trail eof first errors failed ∧
    AtPosition lexemes place failed ∧
    (failed.unexpected eof expected).span = spanAt eof lexemes place ∧
    last.errors.toList = first.errors.toList ++ errors ++ [failed.unexpected eof expected]
  resumes : AtPosition lexemes next last
  least : place < lexemes.length → IsLeast {next | place < next ∧ MayBegin lexemes next} next
  stays : place = lexemes.length → next = place

/-- Declarations that are read one after another at the top level give some statements. -/
inductive ReadsTo : State → Program → State → Prop
  | nil {state : State} : ReadsTo state [] state
  | cons {first middle last : State} {found : Option Stmt} {others : Program}
      (inside : first.rest ≠ []) (read : Settles (declaration eof) first found middle)
      (further : ReadsTo middle others last) : ReadsTo first (found.toList ++ others) last

end

section
variable {eof : Nat} {lexemes : List Lexeme} {first middle last state : State}

/-- A trail passes some lexemes or none. -/
theorem Trail.suffix {errors : List (Located Error)} (trail : Trail eof first errors last) :
    last.rest <:+ first.rest := by
  induction trail with
  | nil => exact List.suffix_refl _
  | take _ next ih => exact (next ▸ List.suffix_cons _ _).trans ih
  | number _ ih | tooMany _ _ ih | invalidTarget _ _ ih => exact ih
  | fails _ _ _ ih inner => exact (recover_suffix _).trans (inner.trans ih)

/-- A trail ends at a position among the lexemes. -/
theorem Trail.position {errors : List (Located Error)} {current : Nat}
    (trail : Trail eof first errors last) (position : AtPosition lexemes current first) :
    ∃ next, AtPosition lexemes next last ∧ current ≤ next := by
  obtain ⟨taken, split⟩ := trail.suffix
  exact ⟨_, position.passed split.symm, Nat.le_add_right _ _⟩

/-- An unexpected lexeme is reported at its position. -/
theorem unexpected_span {place : Nat} (position : AtPosition lexemes place state)
    (expected : String) : (state.unexpected eof expected).span = spanAt eof lexemes place := by
  have next : lexemes[place]? = state.rest.head? := by rw [position.left, List.head?_drop]
  rw [spanAt, next, State.unexpected]
  cases state.rest <;> rfl

/-- The parser looks for the keywords that only a statement starts with. -/
theorem startsStatement_iff {lexeme : Lexeme} :
    startsStatement lexeme.symbol? = true ↔
      ∃ symbol ∈ [.fun, .var, .for, .if, .while, .print, .return], Spells symbol lexeme := by
  simp only [← symbol?_eq_some]
  cases lexeme.symbol? with
  | none => simp [startsStatement]
  | some symbol => cases symbol <;> simp [startsStatement]

/-- A position where a statement may begin is one of the lexemes or their end. -/
theorem MayBegin.within {position : Nat} (begins : MayBegin lexemes position) :
    position ≤ lexemes.length := by
  cases begins with
  | behind next found =>
      have inside := (List.getElem?_eq_some_iff.1 found).1
      omega
  | keyword found => exact Nat.le_of_lt (List.getElem?_eq_some_iff.1 found).1
  | ends last => exact Nat.le_of_eq last

/-- What is left behind an error begins at the next position where a statement may begin. -/
theorem recover_least {place : Nat} (within : place < lexemes.length) :
    ∃ next, IsLeast {next | place < next ∧ MayBegin lexemes next} next ∧
      recover (lexemes.drop place) = lexemes.drop next := by
  rw [List.drop_eq_getElem_cons within]
  by_cases inside : place + 1 < lexemes.length
  · rw [List.drop_eq_getElem_cons inside, recover]
    split
    next stops =>
      refine ⟨place + 1, ⟨⟨Nat.lt_succ_self _, ?_⟩, fun other beyond => beyond.1⟩,
        (List.drop_eq_getElem_cons inside).symm⟩
      rcases Bool.or_eq_true_iff.1 stops with ends | starts
      · exact .behind rfl (List.getElem?_eq_getElem within)
          (symbol?_eq_some.1 (of_decide_eq_true ends))
      · obtain ⟨symbol, among, spelled⟩ := startsStatement_iff.1 starts
        exact .keyword (List.getElem?_eq_getElem inside) spelled among
    next goes =>
      obtain ⟨next, ⟨⟨behind, begins⟩, least⟩, same⟩ := recover_least inside
      rw [List.drop_eq_getElem_cons inside] at same
      refine ⟨next, ⟨⟨Nat.lt_of_succ_lt behind, begins⟩, fun other beyond => ?_⟩, same⟩
      rcases Nat.eq_or_lt_of_le beyond.1 with rfl | further
      · refine absurd ?_ goes
        rw [Bool.or_eq_true_iff]
        cases beyond.2 with
        | behind next found ends =>
            cases next
            cases (List.getElem?_eq_getElem within).symm.trans found
            exact .inl (decide_eq_true (symbol?_eq_some.2 ends))
        | keyword found spelled starts =>
            cases (List.getElem?_eq_getElem inside).symm.trans found
            exact .inr (startsStatement_iff.2 ⟨_, starts, spelled⟩)
        | ends same => exact absurd inside (Nat.not_lt.2 (Nat.le_of_eq same.symm))
      · exact least ⟨further, beyond.2⟩
  · have ends : place + 1 = lexemes.length := by omega
    refine ⟨place + 1, ⟨⟨Nat.lt_succ_self _, .ends ends⟩, fun other beyond => beyond.1⟩, ?_⟩
    rw [List.drop_eq_nil_of_le (Nat.le_of_eq ends.symm), recover]
termination_by lexemes.length - place

/-- A state that is given up goes on at the next position where a statement may begin. -/
theorem givenUp_resumes {place : Nat} (position : AtPosition lexemes place state)
    (expected : String) :
    ∃ next, AtPosition lexemes next (state.givenUp eof expected) ∧
      (place < lexemes.length → IsLeast {next | place < next ∧ MayBegin lexemes next} next) ∧
      (place = lexemes.length → next = place) := by
  by_cases within : place < lexemes.length
  · obtain ⟨next, least, same⟩ := recover_least within
    refine ⟨next, ⟨least.1.2.within, ?_⟩, fun _ => least, fun ends => ?_⟩
    · rw [State.givenUp, position.left, same]
    · exact absurd within (Nat.not_lt.2 (Nat.le_of_eq ends.symm))
  · refine ⟨place, ⟨position.within, ?_⟩, fun inside => absurd inside within, fun _ => rfl⟩
    rw [State.givenUp, position.left, List.drop_eq_nil_of_le (Nat.le_of_not_lt within), recover]

/-- A declaration that fails is given up at the lexeme where it stops. -/
theorem declaration_failsAt {fuel current : Nat} (position : AtPosition lexemes current state)
    (ended : declaration eof fuel state = .ok none last) :
    ∃ place next, current ≤ place ∧ FailsAt eof lexemes state last place next := by
  obtain ⟨errors, failed, expected, trail, rfl⟩ := declaration_fails ended
  obtain ⟨place, failing, forwards⟩ := trail.position position
  obtain ⟨next, resumes, least, stays⟩ := givenUp_resumes failing expected
  refine ⟨place, next, forwards, ⟨errors, failed, expected, trail, failing,
    unexpected_span failing expected, ?_⟩, resumes, least, stays⟩
  rw [State.givenUp, Array.toList_push, trail.errors]

/-- Where lexemes are left a program reads a declaration and goes on behind it. -/
theorem settles_behind {stmts : Program} {found : Option Stmt} {after : State}
    (settles : Settles (program eof) first stmts after) (inside : first.rest ≠ [])
    (read : Settles (declaration eof) first found middle) :
    ∃ others, Settles (program eof) middle others after ∧ stmts = found.toList ++ others := by
  obtain ⟨fuel, whole⟩ := settles
  obtain ⟨extra, part⟩ := read
  have goes (more : Nat) (enough : max fuel extra ≤ more) :
      ∃ others, program eof more middle = .ok others after ∧ stmts = found.toList ++ others := by
    have ended := whole (more + 1) (by omega)
    have left : first.rest.isEmpty = false := List.isEmpty_eq_false_iff.2 inside
    rw [program, bind_of_ok atEnd_apply, left] at ended
    simp only [Bool.false_eq_true, if_false] at ended
    rw [bind_of_ok (part more (by omega))] at ended
    obtain ⟨others, last, given, same⟩ := bind_eq_ok.1 ended
    cases same
    exact ⟨others, given, rfl⟩
  obtain ⟨others, -, same⟩ := goes (max fuel extra) (Nat.le_refl _)
  refine ⟨others, ⟨max fuel extra, fun more enough => ?_⟩, same⟩
  obtain ⟨again, given, also⟩ := goes more enough
  rw [List.append_cancel_left (same.symm.trans also)]
  exact given

/-- A program that is read to a state goes on from there. -/
theorem ReadsTo.settles {stmts whole : Program} {after : State}
    (reads : ReadsTo eof first stmts last) (settles : Settles (program eof) first whole after) :
    ∃ others, Settles (program eof) last others after ∧ whole = stmts ++ others := by
  induction reads generalizing whole with
  | nil => exact ⟨whole, settles, rfl⟩
  | cons inside read _ ih =>
      obtain ⟨rest, further, rfl⟩ := settles_behind settles inside read
      obtain ⟨others, behind, rfl⟩ := ih further
      exact ⟨others, behind, (List.append_assoc _ _ _).symm⟩

/-- What a declaration gives does not hang on its fuel. -/
theorem settles_of_declared {fuel : Nat} {found : Option Stmt} (apart : Apart eof first)
    (inside : first.rest ≠ []) (ended : declaration eof fuel first = .ok found last) :
    Settles (declaration eof) first found last := by
  obtain ⟨other, after, ⟨more, given⟩, -⟩ := declaration_settles apart inside
  have mirrors : Mirrors still eof [] (Option.map still.relabeling.stmt) (declaration eof fuel)
      (declaration eof more) first := (statementsMirror still eof [] fuel more).declaration apart
  unfold Mirrors at mirrors
  rw [still_state, ended, given more (Nat.le_refl _)] at mirrors
  obtain ⟨-, rfl, rfl⟩ := mirrors
  rw [option_stmt_still, still_state] at given
  exact ⟨more, given⟩

/-- A program is read by one declaration after another. -/
theorem program_reads_to {fuel : Nat} {stmts : Program} (apart : Apart eof first)
    (ended : program eof fuel first = .ok stmts last) : ReadsTo eof first stmts last := by
  induction fuel generalizing first stmts with
  | zero => cases ended
  | succ fuel ih =>
      rw [program, bind_of_ok atEnd_apply] at ended
      split at ended
      next =>
        cases ended
        exact .nil
      next some =>
        obtain ⟨found, middle, given, ended⟩ := bind_eq_ok.1 ended
        obtain ⟨others, after, further, ended⟩ := bind_eq_ok.1 ended
        cases ended
        have inside : first.rest ≠ [] := fun none => some (List.isEmpty_iff.2 none)
        have leads := (statementsTrail eof fuel).declaration first
        rw [given] at leads
        obtain ⟨errors, trail⟩ := leads
        have later : Apart eof middle := fun lexeme left =>
          apart lexeme (trail.suffix.subset left)
        exact .cons inside (settles_of_declared apart inside given) (ih later further)

/-- Two readings that meet are one. -/
theorem ReadsTo.append {stmts others : Program} (before : ReadsTo eof first stmts middle)
    (behind : ReadsTo eof middle others last) : ReadsTo eof first (stmts ++ others) last := by
  induction before with
  | nil => exact behind
  | cons inside read _ ih =>
      rw [List.append_assoc]
      exact .cons inside read (ih behind)

/-- Lexemes in order are apart. -/
theorem apart_of_inOrder (order : InOrder state.rest) : Apart eof state := by
  intro lexeme given ends
  have proper := order.proper lexeme given
  rw [ends] at proper
  exact Nat.lt_irrefl eof proper

/-- An error at a lexeme, or at the end of the text, stays where it is if nothing is moved. -/
theorem error_unmoved {lastStop first : Nat} {error : Located Error} (order : InOrder lexemes)
    (placed : Placed lexemes eof error) : (following 0 lastStop first).error eof error = error := by
  cases placed with
  | lexeme among same =>
      have proper := order.proper _ among
      rw [← same] at proper
      have apart : error.span ≠ .empty eof := fun ends => by
        rw [ends] at proper
        exact Nat.lt_irrefl eof proper
      rw [Move.error, if_neg apart]
      exact congrArg (Located.mk error.item) (following_spans proper)
  | ends same _ =>
      rw [Move.error, if_pos same]
      exact congrArg (Located.mk error.item) same.symm

/-- Lexemes are read alike whether others are read before them or not. The numbers of the
occurrences begin later, and the errors come behind those that are there. -/
theorem settles_alone {others : Program} (order : InOrder state.rest)
    (settles : Settles (program eof) state others last) :
    let alone := parseLexemes eof state.rest []
    others = (Relabeling.shift 0 state.nextId).stmts alone.program ∧
      last.errors.toList = state.errors.toList ++ alone.errors := by
  intro alone
  let move := following 0 state.lastStop state.nextId
  obtain ⟨fuel, whole⟩ := settles
  obtain ⟨stmts, after, ended, -⟩ := program_reads eof state.rest #[]
  have same : alone = ⟨stmts, after.errors.toList⟩ := by
    change parseLexemes eof state.rest [] = _
    unfold parseLexemes EStateM.run
    rw [ended]
  obtain ⟨⟨stop, sequence⟩, placed⟩ :
    (∃ stop, Stmt.InSequence state.rest 0 stop alone.program) ∧
      ∀ error ∈ alone.errors, Placed state.rest eof error := parseLexemes_laidOut order eof
  have lexemes : ∀ lexeme ∈ state.rest, move.lexeme lexeme = lexeme := fun lexeme given =>
    congrArg (Lexeme.mk lexeme.token lexeme.text) (following_spans (order.proper lexeme given))
  have start : move.state eof state.errors.toList ⟨state.rest, 0, 0, #[]⟩ = state := by
    have rest : state.rest.map move.lexeme = state.rest :=
      (List.map_congr_left lexemes).trans (List.map_id _)
    rw [Move.state, rest]
    simp [move, following]
  have apart : Apart eof ⟨state.rest, 0, 0, #[]⟩ := apart_of_inOrder order
  have mirrors : Mirrors move eof state.errors.toList move.relabeling.stmts
      (program eof (enoughFuel state.rest)) (program eof fuel) ⟨state.rest, 0, 0, #[]⟩ :=
    program_mirrors _ _ apart
  unfold Mirrors at mirrors
  rw [start, ended, whole fuel (Nat.le_refl _)] at mirrors
  obtain ⟨-, rfl, rfl⟩ := mirrors
  rw [same] at sequence placed ⊢
  constructor
  · refine Relabeling.stmts_congr _ (fun span given => ?_) fun _ _ => rfl
    have laid : Stmt.LaidOutIn state.rest ⟨0, stop⟩ stmts :=
      sequence.laidOutIn (Nat.le_refl _) (Nat.le_refl _)
    exact following_spans (laid.spans order span given).proper
  · have errors : after.errors.toList.map (move.error eof) = after.errors.toList := by
      refine (List.map_congr_left fun error given => ?_).trans (List.map_id _)
      exact error_unmoved order (placed error given)
    simp [Move.state, errors]

end

/-- Reading goes on at the next statement after an error, and nowhere else. -/
structure RecoversFromErrors : Prop where
  /-- Every declaration that fails does so at a lexeme behind it, or at the end. -/
  fails : ∀ {eof fuel current : Nat} {lexemes : List Lexeme} {state last : State},
    AtPosition lexemes current state → declaration eof fuel state = .ok none last →
      ∃ place next, current ≤ place ∧ FailsAt eof lexemes state last place next
  /-- A text is read by one declaration after another. -/
  reads : ∀ text : String, ∃ last,
    ReadsTo text.utf8ByteSize (startOf text) (parse text).program last ∧ last.rest = [] ∧
      last.errors.toList = (parse text).errors
  /-- When one of them fails, the lexemes from the position where reading goes on are read as they
  are alone. -/
  resumes : ∀ {text : String} {stmts : Program} {state last : State} {next : Nat},
    ReadsTo text.utf8ByteSize (startOf text) stmts state → state.rest ≠ [] →
      Settles (declaration text.utf8ByteSize) state none last →
      AtPosition (lexemesOf text) next last →
      let alone := parseLexemes text.utf8ByteSize ((lexemesOf text).drop next) []
      parse text = ⟨stmts ++ (Relabeling.shift 0 last.nextId).stmts alone.program,
        last.errors.toList ++ alone.errors⟩

/-- Every text is read on behind its errors. -/
theorem parse_recovers : RecoversFromErrors where
  fails := declaration_failsAt
  reads text := by
    obtain ⟨stmts, last, ended, same, -⟩ := parse_reads text
    rw [same]
    exact ⟨last, program_reads_to (lexemesOf_apart text _) ended, program_ends ended, rfl⟩
  resumes {text stmts state last next} reads inside fails position := by
    obtain ⟨whole, final, ended, same, -⟩ := parse_reads text
    have failed : ReadsTo text.utf8ByteSize (startOf text) stmts last :=
      List.append_nil stmts ▸ reads.append (.cons inside fails .nil)
    obtain ⟨others, settles, rfl⟩ := failed.settles (program_settles ended)
    have order : InOrder last.rest := by
      have split := (lexemesOf text).take_append_drop next
      rw [position.left]
      exact (InOrder.append (split ▸ lexemesOf_inOrder text)).2
    obtain ⟨program, errors⟩ := settles_alone order settles
    rw [same, program, errors, position.left]

/-- A block goes on behind an error of its own, and the program behind an error outside of it. -/
example :
    (parse "\x7b print; \x7d ) ; print nil;").errors =
        [⟨.unexpectedToken ";" "expression", ⟨7, 8⟩⟩,
          ⟨.unexpectedToken ")" "expression", ⟨11, 12⟩⟩] ∧
      (parse "\x7b print; \x7d ) ; print nil;").program.length = 2 := by
  decide +kernel

end Lox.Parser
