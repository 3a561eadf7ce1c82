import Lox.Proofs.Scope.Occurrences
import Lox.Proofs.Syntax.Steps

namespace Lox

/-- The text of the source that an error names. -/
def Error.text? : Error → Option String
  | .unexpectedInput text | .unexpectedToken text _ => some text
  | .writeFailed _ | .ownInitializer _ | .alreadyDefined _ | .notDefined _
  | .invalidAssignmentTarget | .returnOutsideFunction | .tooMany .. | .unexpectedEnd _
  | .unterminatedString | .arityMismatch .. | .notCallable _ | .binaryOperands ..
  | .unaryOperand .. => none

namespace Parser

open Lox.Computation

section
variable (eof : Nat)

/-- One step of reading, with the identifiers that it reads as expressions. -/
inductive Step : State → List Lexeme → State → Prop
  | take {state : State} {lexeme : Lexeme} {rest : List Lexeme}
      (next : state.rest = lexeme :: rest) : Step state [] (state.behind lexeme rest)
  | read {state : State} {name text : String} {span : Span} {rest : List Lexeme}
      (next : state.rest = ⟨.identifier name, text, span⟩ :: rest) :
      Step state [⟨.identifier name, text, span⟩]
        { state.behind ⟨.identifier name, text, span⟩ rest with nextId := state.nextId + 1 }
  | report {state : State} {error : Located Error} (silent : error.item.text? = none) :
      Step state [] { state with errors := state.errors.push error }
  /-- A statement is left behind where something else is expected. -/
  | giveUp {state : State} {expected : String} :
      Step state [] { state with
        rest := recover state.rest, errors := state.errors.push (state.unexpected eof expected) }

/-- Steps that follow one another, with the identifiers that they read as expressions. -/
inductive Path : State → List Lexeme → State → Prop
  | nil {state : State} : Path state [] state
  | cons {first middle last : State} {read others : List Lexeme} (step : Step eof first read middle)
      (further : Path middle others last) : Path first (read ++ others) last

/-- An occurrence has the number of its lexeme among the identifiers that are read, where numbers
begin at a first one. -/
def Identified (first : Nat) (read : List Lexeme) (target : Occurrence) : Prop :=
  ∃ index text, target.id = first + index ∧
    read[index]? = some ⟨.identifier target.name, text, target.span⟩

/-- A state is reached along a path that identifies some occurrences. -/
def Reaches (origin : State) (targets : List Occurrence) (state : State) : Prop :=
  ∃ read, Path eof origin read state ∧ ∀ target ∈ targets, Identified origin.nextId read target

/-- A production goes along a path that identifies the occurrences in its value, or it stops at a
lexeme that is not expected. -/
def Walks {α : Type} (origin : State) (targets : α → List Occurrence) (production : Production α)
    (state : State) : Prop :=
  match production state with
  | .ok value last => Reaches eof origin (targets value) last
  | .error (.error error) last =>
      Reaches eof origin [] last ∧ ∃ expected, error = last.unexpected eof expected
  | .error .outOfFuel _ => True

/-- No occurrence is in what a production gives. -/
def nowhere {α : Type} (_ : α) : List Occurrence := []

end

variable {eof : Nat}

theorem Step.path {first last : State} {read : List Lexeme} (step : Step eof first read last) :
    Path eof first read last := by
  have path := Path.cons step .nil
  rwa [List.append_nil] at path

/-- Two paths that meet are one path. -/
theorem Path.append {first middle last : State} {read others : List Lexeme}
    (before : Path eof first read middle) (behind : Path eof middle others last) :
    Path eof first (read ++ others) last := by
  induction before with
  | nil => exact behind
  | cons step _ ih =>
      rw [List.append_assoc]
      exact .cons step (ih behind)

/-- Every identifier that is read as an expression gets a number, and nothing else does. -/
theorem Path.numbered {first last : State} {read : List Lexeme} (path : Path eof first read last) :
    last.nextId = first.nextId + read.length := by
  induction path with
  | nil => rfl
  | cons step _ ih =>
      rw [ih, List.length_append, ← Nat.add_assoc]
      cases step <;> rfl

section
variable {first : Nat} {read others : List Lexeme} {target : Occurrence}

theorem Identified.left (identified : Identified first read target) :
    Identified first (read ++ others) target := by
  obtain ⟨index, text, number, given⟩ := identified
  exact ⟨index, text, number, List.getElem?_append_left (List.getElem?_eq_some_iff.1 given).1 ▸ given⟩

theorem Identified.right (identified : Identified (first + read.length) others target) :
    Identified first (read ++ others) target := by
  obtain ⟨index, text, number, given⟩ := identified
  refine ⟨read.length + index, text, by omega, ?_⟩
  rw [List.getElem?_append_right (Nat.le_add_right _ _), Nat.add_sub_cancel_left, given]

/-- An identified occurrence is numbered by a lexeme that was read. -/
theorem Identified.within (identified : Identified first read target) :
    first ≤ target.id ∧ target.id < first + read.length := by
  obtain ⟨index, text, number, given⟩ := identified
  have inside := (List.getElem?_eq_some_iff.1 given).1
  omega

end

namespace Reaches

variable {origin state middle last : State} {targets sofar fewer : List Occurrence}

theorem refl (state : State) : Reaches eof state [] state := ⟨[], .nil, nofun⟩

theorem of_path {read : List Lexeme} (path : Path eof origin read state) :
    Reaches eof origin [] state := ⟨read, path, nofun⟩

/-- A parser that reaches a state with occurrences reaches it with fewer. -/
theorem subset (reached : Reaches eof origin targets state) (less : fewer ⊆ targets) :
    Reaches eof origin fewer state := by
  obtain ⟨read, path, identified⟩ := reached
  exact ⟨read, path, fun target given => identified target (less given)⟩

/-- What is identified along two paths is identified along both together. -/
theorem append (before : Reaches eof origin sofar middle) (behind : Reaches eof middle targets last) :
    Reaches eof origin (sofar ++ targets) last := by
  obtain ⟨read, path, identified⟩ := before
  obtain ⟨others, further, also⟩ := behind
  refine ⟨read ++ others, path.append further, fun target given => ?_⟩
  rcases List.mem_append.1 given with early | late
  · exact (identified target early).left
  · exact (path.numbered ▸ also target late).right

/-- A step reaches one state further. -/
theorem step {read : List Lexeme} (before : Reaches eof origin sofar middle)
    (step : Step eof middle read last) : Reaches eof origin sofar last :=
  List.append_nil sofar ▸ before.append (.of_path step.path)

theorem advance (before : Reaches eof origin sofar middle) :
    Reaches eof origin sofar middle.advance := by
  cases split : middle.rest with
  | nil => rwa [State.advance, split]
  | cons lexeme rest =>
      rw [State.advance_cons split]
      exact before.step (.take split)

/-- An identifier that is read is an occurrence. -/
theorem read {name text : String} {span : Span} {rest : List Lexeme}
    (next : state.rest = ⟨.identifier name, text, span⟩ :: rest) :
    Reaches eof state [⟨state.nextId, name, span⟩]
      { state.behind ⟨.identifier name, text, span⟩ rest with nextId := state.nextId + 1 } := by
  refine ⟨_, (Step.read next).path, fun target given => ?_⟩
  obtain rfl := List.mem_singleton.1 given
  exact ⟨0, text, rfl, rfl⟩

end Reaches

namespace Walks

variable {α β : Type} {origin state middle last : State} {targets : α → List Occurrence}
  {others : β → List Occurrence} {sofar : List Occurrence} {production : Production α}
  {next : α → Production β}

/-- A production that ends has reached its last state. -/
theorem reaches {value : α} (walks : Walks eof origin targets production state)
    (ended : production state = .ok value last) : Reaches eof origin (targets value) last := by
  unfold Walks at walks
  rwa [ended] at walks

/-- A production that is stopped has reached the state where it is. -/
theorem stopped {error : Located Error} (walks : Walks eof origin targets production state)
    (ended : production state = .error (.error error) last) :
    Reaches eof origin [] last ∧ ∃ expected, error = last.unexpected eof expected := by
  unfold Walks at walks
  rwa [ended] at walks

theorem pure {value : α} (reached : Reaches eof origin (targets value) state) :
    Walks eof origin targets (pure value : Production α) state := reached

theorem outOfFuel : Walks eof origin targets (throw .outOfFuel : Production α) state := trivial

theorem refuse {expected : String} (reached : Reaches eof origin sofar state) :
    Walks eof origin targets (refuse eof expected : Production α) state :=
  ⟨reached.subset (List.nil_subset _), expected, rfl⟩

/-- A step whose result is known leads on from there. -/
theorem step {value : α} (start : production state = .ok value middle)
    (rest : Walks eof origin others (next value) middle) :
    Walks eof origin others (production >>= next) state := by
  unfold Walks
  rw [bind_of_ok start]
  exact rest

/-- A production goes on where another one has led, and identifies more occurrences. -/
theorem bind (reached : Reaches eof origin sofar state)
    (start : Walks eof state targets production state)
    (rest : ∀ value middle, Reaches eof origin (sofar ++ targets value) middle →
      Walks eof origin others (next value) middle) :
    Walks eof origin others (production >>= next) state := by
  cases ended : production state with
  | ok value middle => exact step ended (rest value middle (reached.append (start.reaches ended)))
  | error stop middle =>
      unfold Walks
      rw [bind_of_error ended]
      cases stop with
      | error error =>
          obtain ⟨further, expected⟩ := start.stopped ended
          exact ⟨(reached.append further).subset (List.nil_subset _), expected⟩
      | outOfFuel => trivial

/-- A production without occurrences only goes on. -/
theorem silent (reached : Reaches eof origin sofar state)
    (start : Walks eof state nowhere production state)
    (rest : ∀ value middle, Reaches eof origin sofar middle →
      Walks eof origin others (next value) middle) :
    Walks eof origin others (production >>= next) state :=
  bind reached start fun value middle reached =>
    rest value middle (by rwa [nowhere, List.append_nil] at reached)

/-- The last step of a production goes on behind the others. -/
theorem final (reached : Reaches eof origin [] state)
    (start : Walks eof state targets production state) :
    Walks eof origin targets production state := by
  unfold Walks at *
  cases ended : production state with
  | ok value last =>
      rw [ended] at start
      exact reached.append start
  | error stop last =>
      rw [ended] at start
      cases stop with
      | error error => exact ⟨reached.append start.1, start.2⟩
      | outOfFuel => trivial

theorem map (f : α → β) (same : ∀ value, others (f value) = targets value)
    (walks : Walks eof origin targets production state) :
    Walks eof origin others (f <$> production) state := by
  rw [map_eq_pure_bind]
  cases ended : production state with
  | ok value last =>
      refine step ended (pure ?_)
      rw [same]
      exact walks.reaches ended
  | error stop last =>
      unfold Walks at *
      rw [bind_of_error ended]
      rw [ended] at walks
      cases stop with
      | error error => exact walks
      | outOfFuel => trivial

end Walks

section
variable {state : State} {symbol : Symbol}

theorem take_walks : Walks eof state nowhere (take eof) state := (Reaches.refl state).advance

theorem expect_walks : Walks eof state nowhere (expect eof symbol) state := by
  unfold Walks
  by_cases next : state.next? = some symbol
  · rw [expect_of_next next]
    exact (Reaches.refl state).advance
  · rw [expect_of_other next]
    exact ⟨.refl state, _, rfl⟩

theorem accept_walks : Walks eof state nowhere (accept symbol) state := by
  unfold Walks
  by_cases next : state.next? = some symbol
  · rw [accept_of_next next]
    exact (Reaches.refl state).advance
  · rw [accept_of_other next]
    exact .refl state

theorem expectName_walks {expected : String} :
    Walks eof state nowhere (expectName eof expected) state := by
  unfold Walks
  rcases expectName_eq eof state expected with ⟨name, text, span, rest, split, taken⟩ | refused
  · rw [taken]
    exact (Reaches.refl state).step (.take split)
  · rw [refused]
    exact ⟨.refl state, expected, rfl⟩

/-- An error that shows no text may be reported anywhere. -/
theorem report_walks {error : Located Error} (silent : error.item.text? = none) :
    Walks eof state nowhere (report error) state :=
  (Reaches.refl state).step (.report silent)

theorem checkLength_walks {listed : Listed} {length : Nat} :
    Walks eof state nowhere (checkLength eof listed length) state := by
  unfold Walks
  by_cases long : listLimit ≤ length
  · rw [checkLength_of_long long]
    exact (Reaches.refl state).step (.report rfl)
  · rw [checkLength_of_short (Nat.not_le.1 long)]
    exact .refl state

end

/-- The occurrences in a statement that may be missing. -/
def stmtTargets (given : Option Stmt) : List Occurrence := Stmt.targetsAll given.toList

theorem stmtTargets_some (stmt : Stmt) : stmtTargets (some stmt) = stmt.targets :=
  List.append_nil _

/-- The occurrences of a statement that may be absent come before those of the others. -/
theorem stmtTargets_append (given : Option Stmt) (stmts : List Stmt) :
    Stmt.targetsAll (given.toList ++ stmts) = stmtTargets given ++ Stmt.targetsAll stmts := by
  cases given with
  | none => rfl
  | some stmt => rw [stmtTargets_some]; rfl

/-- A statement that stops at an error is left behind. -/
theorem attempt_walks {statement : Production Stmt} {state : State}
    (walks : Walks eof state Stmt.targets statement state) :
    Walks eof state stmtTargets (attempt statement) state := by
  unfold Walks attempt
  cases ended : statement state with
  | ok stmt last =>
      have reached := walks.reaches ended
      rwa [← stmtTargets_some] at reached
  | error stop last =>
      cases stop with
      | outOfFuel => trivial
      | error error =>
          obtain ⟨reached, expected, rfl⟩ := walks.stopped ended
          exact reached.step .giveUp

end Parser

end Lox
