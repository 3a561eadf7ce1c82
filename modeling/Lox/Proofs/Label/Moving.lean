import Lox.Proofs.Label.Relabeling
import Lox.Proofs.Syntax.Steps
import Lox.Tree.Parser

namespace Lox

/-- A move gives new offsets to the starts and to the ends of the lexemes and lets the numbers of
the occurrences begin later. -/
structure Move where
  starts : Nat → Nat
  stops : Nat → Nat
  first : Nat

namespace Move

variable (move : Move)

def relabeling : Relabeling :=
  ⟨fun span => ⟨move.starts span.start, move.stops span.stop⟩, fun id => move.first + id⟩

def lexeme (given : Lexeme) : Lexeme := { given with span := move.relabeling.spans given.span }

/-- The end of the text moves like the start of a lexeme. -/
def error (eof : Nat) (given : Located Error) : Located Error :=
  if given.span = .empty eof then ⟨given.item, .empty (move.starts eof)⟩
  else move.relabeling.located given

/-- The moved state stands behind earlier errors. -/
def state (eof : Nat) (earlier : List (Located Error)) (given : Parser.State) : Parser.State :=
  ⟨given.rest.map move.lexeme, move.stops given.lastStop, move.first + given.nextId,
    (earlier ++ given.errors.toList.map (move.error eof)).toArray⟩

/-- The span from one span to another one is moved with both. -/
@[simp] theorem relabeling_to (first last : Span) :
    move.relabeling.spans (first.to last) =
      (move.relabeling.spans first).to (move.relabeling.spans last) := rfl

end Move

namespace Parser

open Lox.Computation

section
variable (move : Move) (eof : Nat) (earlier : List (Located Error))

/-- No lexeme that is left looks like the end of the text. -/
def Apart (state : State) : Prop := ∀ lexeme ∈ state.rest, lexeme.span ≠ .empty eof

/-- Two productions go on alike, one of them where the lexemes have been moved to, unless one of them
runs out of fuel. -/
def Mirrors {α β : Type} (image : α → β) (production : Production α) (moved : Production β)
    (state : State) : Prop :=
  match production state, moved (move.state eof earlier state) with
  | .ok value last, .ok other after =>
      Apart eof last ∧ other = image value ∧ after = move.state eof earlier last
  | .error (.error error) last, .error (.error other) after =>
      Apart eof last ∧ other = move.error eof error ∧ after = move.state eof earlier last
  | .error .outOfFuel _, _ => True
  | _, .error .outOfFuel _ => True
  | _, _ => False

end

section
variable {move : Move} {eof : Nat} {earlier : List (Located Error)} {state : State}

/-- A moved state has the same next symbol. -/
@[simp] theorem next?_moved : (move.state eof earlier state).next? = state.next? := by
  unfold State.next? Move.state
  cases state.rest <;> rfl

/-- A moved state is at its end when the state is. -/
@[simp] theorem isEmpty_moved :
    (move.state eof earlier state).rest.isEmpty = state.rest.isEmpty := List.isEmpty_map

/-- A moved state stands at the moved place. -/
theorem here_moved :
    ((move.state eof earlier state).here (move.starts eof)).start =
      move.starts (state.here eof).start := by
  unfold State.here Move.state
  cases state.rest <;> rfl

/-- The lexemes of a moved state are the moved lexemes. -/
theorem rest_moved {lexeme : Lexeme} {rest : List Lexeme} (next : state.rest = lexeme :: rest) :
    (move.state eof earlier state).rest = move.lexeme lexeme :: rest.map move.lexeme := by
  simp [Move.state, next]

/-- A state may be moved before or after it takes a lexeme. -/
theorem advance_moved :
    (move.state eof earlier state).advance = move.state eof earlier state.advance := by
  unfold State.advance Move.state
  cases split : state.rest <;> simp [Move.lexeme, Move.relabeling, split]

/-- A state may be moved before or after it reports an error. -/
theorem report_moved (error : Located Error) :
    move.state eof earlier { state with errors := state.errors.push error } =
      { move.state eof earlier state with
        errors := (move.state eof earlier state).errors.push (move.error eof error) } := by
  simp [Move.state]

/-- Lexemes stay apart when one of them is taken. -/
theorem Apart.advance (apart : Apart eof state) : Apart eof state.advance := by
  unfold State.advance
  split
  next => exact apart
  next lexeme rest next =>
    exact fun other given => apart other (by simp [next, show other ∈ rest from given])

/-- An error at the next lexeme, or at the end of the text, moves along. -/
theorem error_here (apart : Apart eof state) (item : Error) :
    move.error eof ⟨item, state.here eof⟩ =
      ⟨item, (move.state eof earlier state).here (move.starts eof)⟩ := by
  unfold State.here Move.state Move.error
  cases split : state.rest with
  | nil => exact if_pos rfl
  | cons lexeme rest => exact if_neg (apart lexeme (by simp [split]))

/-- A moved state reports the moved error. -/
theorem unexpected_moved (apart : Apart eof state) (expected : String) :
    (move.state eof earlier state).unexpected (move.starts eof) expected =
      move.error eof (state.unexpected eof expected) := by
  unfold State.unexpected Move.state Move.error
  cases split : state.rest with
  | nil => exact (if_pos rfl).symm
  | cons lexeme rest => exact (if_neg (apart lexeme (by simp [split]))).symm

namespace Mirrors

variable {α β γ δ : Type} {image : α → β} {result : γ → δ}
  {production : Production α} {moved : Production β}
  {follow : α → Production γ} {other : β → Production δ}

/-- Nothing is asked of a production that runs out of fuel. -/
theorem of_left {after : State} (stuck : production state = .error .outOfFuel after) :
    Mirrors move eof earlier image production moved state := by
  unfold Mirrors
  rw [stuck]
  cases moved (move.state eof earlier state) with
  | ok => trivial
  | error stop => cases stop <;> trivial

/-- Nothing is to be mirrored where the moved production runs out of fuel. -/
theorem of_right {after : State}
    (stuck : moved (move.state eof earlier state) = .error .outOfFuel after) :
    Mirrors move eof earlier image production moved state := by
  unfold Mirrors
  rw [stuck]
  cases production state with
  | ok => trivial
  | error stop => cases stop <;> trivial

/-- A production without fuel is mirrored by anything. -/
theorem outOfFuel_left :
    Mirrors move eof earlier image (throw .outOfFuel : Production α) moved state := of_left rfl

/-- A production is mirrored by one without fuel. -/
theorem outOfFuel_right :
    Mirrors move eof earlier image production (throw .outOfFuel : Production β) state :=
  of_right rfl

theorem pure {value : α} (apart : Apart eof state) :
    Mirrors move eof earlier image (pure value : Production α) (pure (image value)) state :=
  ⟨apart, rfl, rfl⟩

/-- A refusal is mirrored by one at the moved place. -/
theorem refuse {expected : String} (apart : Apart eof state) :
    Mirrors move eof earlier image (refuse eof expected) (refuse (move.starts eof) expected)
      state :=
  ⟨apart, unexpected_moved apart expected, rfl⟩

/-- Steps whose results are known lead on from there. -/
theorem step {value : α} {given : β} {middle : State} (start : production state = .ok value middle)
    (also : moved (move.state eof earlier state) = .ok given (move.state eof earlier middle))
    (goes : Mirrors move eof earlier result (follow value) (other given) middle) :
    Mirrors move eof earlier result (production >>= follow) (moved >>= other) state := by
  unfold Mirrors
  rw [bind_of_ok start, bind_of_ok also]
  exact goes

/-- Two productions go on alike where their first steps have come to. -/
theorem bind (start : Mirrors move eof earlier image production moved state)
    (goes : ∀ value middle, Apart eof middle →
      Mirrors move eof earlier result (follow value) (other (image value)) middle) :
    Mirrors move eof earlier result (production >>= follow) (moved >>= other) state := by
  unfold Mirrors at start
  cases ended : production state with
  | ok value middle =>
      cases also : moved (move.state eof earlier state) with
      | ok given after =>
          rw [ended, also] at start
          obtain ⟨apart, rfl, rfl⟩ := start
          exact step ended also (goes value middle apart)
      | error stop after =>
          rw [ended, also] at start
          cases stop with
          | error error => exact start.elim
          | outOfFuel => exact of_right (bind_of_error also _)
  | error stop middle =>
      cases stop with
      | outOfFuel => exact of_left (bind_of_error ended _)
      | error error =>
          cases also : moved (move.state eof earlier state) with
          | ok given after =>
              rw [ended, also] at start
              exact start.elim
          | error stop after =>
              rw [ended, also] at start
              unfold Mirrors
              rw [bind_of_error ended, bind_of_error also]
              cases stop <;> exact start

theorem map {f : α → γ} {g : β → δ} (same : ∀ value, g (image value) = result (f value))
    (start : Mirrors move eof earlier image production moved state) :
    Mirrors move eof earlier result (f <$> production) (g <$> moved) state := by
  rw [map_eq_pure_bind, map_eq_pure_bind]
  apply start.bind
  intro value middle apart
  rw [same]
  exact pure apart

/-- A part that may be missing is there. -/
theorem mapSome (start : Mirrors move eof earlier image production moved state) :
    Mirrors move eof earlier (Option.map image) (some <$> production) (some <$> moved) state :=
  start.map fun _ => rfl

section
variable {symbol : Symbol} {follow : Bool → Production γ} {other : Bool → Production δ}

/-- A look at the next symbol is mirrored if what follows it is. -/
theorem isNext
    (goes : Mirrors move eof earlier result (follow (decide (state.next? = some symbol)))
      (other (decide (state.next? = some symbol))) state) :
    Mirrors move eof earlier result (isNext symbol >>= follow) (isNext symbol >>= other) state :=
  step isNext_apply (by rw [isNext_apply, next?_moved]) goes

/-- A look for the end is mirrored if what follows it is. -/
theorem atEnd
    (goes : Mirrors move eof earlier result (follow state.rest.isEmpty) (other state.rest.isEmpty)
      state) :
    Mirrors move eof earlier result (atEnd >>= follow) (atEnd >>= other) state :=
  step atEnd_apply (by rw [atEnd_apply, isEmpty_moved]) goes

/-- A symbol that may be taken is mirrored if both ways to go on are. -/
theorem accept (apart : Apart eof state)
    (taken : ∀ middle, Apart eof middle →
      Mirrors move eof earlier result (follow true) (other true) middle)
    (kept : Mirrors move eof earlier result (follow false) (other false) state) :
    Mirrors move eof earlier result (accept symbol >>= follow) (accept symbol >>= other) state := by
  by_cases next : state.next? = some symbol
  · have also : (move.state eof earlier state).next? = some symbol := next?_moved.trans next
    refine step (accept_of_next next) ?_ (taken _ apart.advance)
    rw [accept_of_next also, advance_moved]
  · have also : (move.state eof earlier state).next? ≠ some symbol := by
      rwa [next?_moved]
    exact step (accept_of_other next) (accept_of_other also) kept

end

/-- The next symbol is mirrored if what follows it is. -/
theorem peek? {follow : Option Symbol → Production γ} {other : Option Symbol → Production δ}
    (goes : Mirrors move eof earlier result (follow state.next?) (other state.next?) state) :
    Mirrors move eof earlier result (peek? >>= follow) (peek? >>= other) state :=
  step peek?_apply (by rw [peek?_apply, next?_moved]) goes

/-- The span of the next lexeme is mirrored if what follows it is. -/
theorem here {follow : Span → Production γ} {other : Span → Production δ}
    (goes : Mirrors move eof earlier result (follow (state.here eof))
      (other ((move.state eof earlier state).here (move.starts eof))) state) :
    Mirrors move eof earlier result (here eof >>= follow) (here (move.starts eof) >>= other) state :=
  step here_apply here_apply goes

/-- A span up to the last lexeme is mirrored by the moved one. -/
theorem spanFrom {start : Nat} {follow : Span → Production γ} {other : Span → Production δ}
    (goes : Mirrors move eof earlier result (follow ⟨start, state.lastStop⟩)
      (other (move.relabeling.spans ⟨start, state.lastStop⟩)) state) :
    Mirrors move eof earlier result (spanFrom start >>= follow)
      (spanFrom (move.starts start) >>= other) state :=
  step spanFrom_apply spanFrom_apply goes

/-- A fresh number is mirrored by the moved one. -/
theorem freshId {follow : Nat → Production γ} {other : Nat → Production δ}
    (apart : Apart eof state)
    (goes : ∀ middle, middle.rest = state.rest → Apart eof middle →
      Mirrors move eof earlier result (follow state.nextId)
        (other (move.relabeling.ids state.nextId)) middle) :
    Mirrors move eof earlier result (freshId >>= follow) (freshId >>= other) state :=
  step freshId_apply freshId_apply (goes _ rfl apart)

/-- A reported error is mirrored by the moved one. -/
theorem report {error : Located Error} {given : Located Error} {follow : Unit → Production γ}
    {other : Unit → Production δ} (same : given = move.error eof error)
    (goes : Mirrors move eof earlier result (follow ()) (other ())
      { state with errors := state.errors.push error }) :
    Mirrors move eof earlier result (report error >>= follow) (report given >>= other) state := by
  refine step report_apply ?_ goes
  rw [report_apply, report_moved, same]

/-- A lexeme that is taken is mirrored by the moved one. -/
theorem take {lexeme : Lexeme} {rest : List Lexeme} {follow : Span → Production γ}
    {other : Span → Production δ} (apart : Apart eof state) (next : state.rest = lexeme :: rest)
    (goes : ∀ middle, Apart eof middle →
      Mirrors move eof earlier result (follow lexeme.span)
        (other (move.relabeling.spans lexeme.span)) middle) :
    Mirrors move eof earlier result (take eof >>= follow) (take (move.starts eof) >>= other)
      state := by
  have start : Lox.Parser.take eof state = .ok lexeme.span state.advance := by
    rw [take_apply, here_cons next]
  refine step start ?_ (goes _ apart.advance)
  rw [take_apply, here_cons (rest_moved next), advance_moved]
  rfl

/-- A symbol that comes next is taken. -/
theorem takeSymbol {symbol : Symbol} {follow : Span → Production γ} {other : Span → Production δ}
    (apart : Apart eof state) (next : state.next? = some symbol)
    (goes : ∀ span middle, Apart eof middle →
      Mirrors move eof earlier result (follow span) (other (move.relabeling.spans span)) middle) :
    Mirrors move eof earlier result (Parser.take eof >>= follow)
      (Parser.take (move.starts eof) >>= other) state := by
  obtain ⟨lexeme, rest, split, -⟩ := State.next?_eq_some.1 next
  exact take apart split (goes lexeme.span)

/-- The check of a length is mirrored if what follows it is. -/
theorem checkLength {listed : Listed} {length : Nat} {follow : Unit → Production γ}
    {other : Unit → Production δ} (apart : Apart eof state)
    (goes : ∀ middle, Apart eof middle →
      Mirrors move eof earlier result (follow ()) (other ()) middle) :
    Mirrors move eof earlier result (checkLength eof listed length >>= follow)
      (checkLength (move.starts eof) listed length >>= other) state := by
  by_cases long : listLimit ≤ length
  · refine step (checkLength_of_long long) ?_ (goes _ apart)
    rw [checkLength_of_long long, report_moved, error_here apart]
  · have short := Nat.not_le.1 long
    exact step (checkLength_of_short short) (checkLength_of_short short) (goes state apart)

end Mirrors

/-- An expected symbol is mirrored at the moved place. -/
theorem expect_mirrors (symbol : Symbol) (apart : Apart eof state) :
    Mirrors move eof earlier move.relabeling.spans (expect eof symbol)
      (expect (move.starts eof) symbol) state := by
  by_cases next : state.next? = some symbol
  · obtain ⟨lexeme, rest, split, -⟩ := State.next?_eq_some.1 next
    unfold Mirrors
    rw [expect_of_next next, expect_of_next (next?_moved.trans next), here_cons split,
      here_cons (rest_moved split)]
    exact ⟨apart.advance, rfl, advance_moved⟩
  · have also : (move.state eof earlier state).next? ≠ some symbol := by
      rwa [next?_moved]
    unfold Mirrors
    rw [expect_of_other next, expect_of_other also]
    exact ⟨apart, unexpected_moved apart _, rfl⟩

/-- An expected name is mirrored at the moved place. -/
theorem expectName_mirrors (expected : String) (apart : Apart eof state) :
    Mirrors move eof earlier move.relabeling.located (expectName eof expected)
      (expectName (move.starts eof) expected) state := by
  rcases expectName_eq eof state expected with ⟨name, text, span, rest, split, taken⟩ | refused
  · unfold Mirrors
    rw [taken, expectName_cons (rest_moved split), ← State.advance_cons split]
    exact ⟨apart.advance, rfl, (State.advance_cons (rest_moved split)).symm.trans advance_moved⟩
  · rcases expectName_eq (move.starts eof) (move.state eof earlier state) expected with
      ⟨name, text, span, rest, split, -⟩ | also
    · obtain ⟨⟨token, spelling, place⟩, others, given, same, -⟩ := List.map_eq_cons_iff.1 split
      cases same
      cases refused.symm.trans (expectName_cons given)
    · unfold Mirrors
      rw [refused, also]
      exact ⟨apart, unexpected_moved apart _, rfl⟩

end

end Parser

end Lox
