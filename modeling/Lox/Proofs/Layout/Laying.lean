import Lox.Proofs.Layout.Tree
import Lox.Proofs.Syntax.Steps
import Lox.Tree.Parser

namespace Lox.Parser

open Lox.Computation

section
variable (lexemes : List Lexeme) (eof : Nat)

/-- An error is at a lexeme. Only where something is missing or a list is too long it can also be at
the end of the text. -/
inductive Placed (error : Located Error) : Prop
  | lexeme {lexeme : Lexeme} (among : lexeme ∈ lexemes) (same : error.span = lexeme.span)
  | ends (same : error.span = .empty eof)
      (early : (∃ expected, error.item = .unexpectedEnd expected) ∨
        ∃ listed, error.item = .tooMany listed listLimit)

/-- A state stands in a text when its lexemes are the last ones, none of them starts before the last
one taken ends, and its errors are at their places. -/
structure Standing (state : State) : Prop where
  split : ∃ before, lexemes = before ++ state.rest
  behind : ∀ lexeme ∈ state.rest, state.lastStop ≤ lexeme.span.start
  errors : ∀ error ∈ state.errors.toList, Placed lexemes eof error

/-- One lexeme is passed. -/
structure Passes (state : State) (lexeme : Lexeme) (middle : State) : Prop where
  among : lexeme ∈ lexemes
  next : state.rest = lexeme :: middle.rest
  before : state.lastStop ≤ lexeme.span.start
  proper : lexeme.span.start < lexeme.span.stop
  stop : middle.lastStop = lexeme.span.stop
  standing : Standing lexemes eof middle

/-- A production does not fall back behind an offset and ends with a given value and state, or it
stops at an error that is at its place, or for lack of fuel. -/
def Lays {α : Type} (floor : Nat) (production : Production α) (state : State)
    (given : α → State → Prop) : Prop :=
  match production state with
  | .ok value last => Standing lexemes eof last ∧ floor ≤ last.lastStop ∧ given value last
  | .error (.error error) last =>
      Standing lexemes eof last ∧ floor ≤ last.lastStop ∧ Placed lexemes eof error
  | .error .outOfFuel _ => True

end

section
variable {lexemes rest : List Lexeme} {eof floor : Nat} {state : State} {lexeme : Lexeme}
  {symbol : Symbol}

/-- The next lexeme is one of those that are parsed. -/
theorem Standing.among (standing : Standing lexemes eof state) (next : lexeme ∈ state.rest) :
    lexeme ∈ lexemes := by
  obtain ⟨before, split⟩ := standing.split
  rw [split]
  exact List.mem_append_right before next

/-- A state that takes its next lexeme has passed it. -/
theorem Standing.passes (order : InOrder lexemes) (standing : Standing lexemes eof state)
    (next : state.rest = lexeme :: rest) :
    Passes lexemes eof state lexeme (state.behind lexeme rest) := by
  have first : lexeme ∈ state.rest := by simp [next]
  obtain ⟨before, split⟩ := id standing.split
  refine ⟨standing.among first, next, standing.behind lexeme first,
    order.proper lexeme (standing.among first), rfl, ⟨before ++ [lexeme], ?_⟩, ?_, standing.errors⟩
  · simp [split, next, State.behind]
  · have ordered := order.ordered
    rw [split, next] at ordered
    exact (List.pairwise_cons.1 (List.pairwise_append.1 ordered).2.1).1

/-- A number that is given away does not matter. -/
theorem Standing.withId (standing : Standing lexemes eof state) (nextId : Nat) :
    Standing lexemes eof { state with nextId } := ⟨standing.split, standing.behind, standing.errors⟩

/-- A state that reports a placed error stands as before. -/
theorem Standing.report (standing : Standing lexemes eof state) {error : Located Error}
    (placed : Placed lexemes eof error) :
    Standing lexemes eof { state with errors := state.errors.push error } := by
  refine ⟨standing.split, standing.behind, fun other given => ?_⟩
  simp only [Array.toList_push, List.mem_append, List.mem_singleton] at given
  rcases given with given | rfl
  · exact standing.errors other given
  · exact placed

/-- The last stop does not go back. -/
theorem Passes.le {middle : State} (passes : Passes lexemes eof state lexeme middle) :
    state.lastStop ≤ middle.lastStop := by
  have before := passes.before
  have proper := passes.proper
  rw [passes.stop]
  omega

theorem Passes.here {middle : State} (passes : Passes lexemes eof state lexeme middle) :
    state.here eof = lexeme.span := here_cons passes.next

/-- An error about an unexpected lexeme is placed at it, or at the end. -/
theorem Standing.unexpected (standing : Standing lexemes eof state) (expected : String) :
    Placed lexemes eof (state.unexpected eof expected) := by
  unfold State.unexpected
  split
  next => exact .ends rfl (.inl ⟨expected, rfl⟩)
  next lexeme rest next =>
    exact .lexeme (standing.among (by simp [next])) rfl

namespace Lays

variable {α β : Type} {production : Production α} {follow : α → Production β}
  {given more : α → State → Prop} {result : β → State → Prop}

theorem outOfFuel : Lays lexemes eof floor (throw .outOfFuel : Production α) state given := trivial

theorem pure {value : α} (standing : Standing lexemes eof state) (above : floor ≤ state.lastStop)
    (holds : given value state) : Lays lexemes eof floor (pure value : Production α) state given :=
  ⟨standing, above, holds⟩

/-- A production does what follows from what it does. -/
theorem weaken {lower : Nat} (lays : Lays lexemes eof floor production state given)
    (below : lower ≤ floor)
    (implied : ∀ value last, floor ≤ last.lastStop → given value last → more value last) :
    Lays lexemes eof lower production state more := by
  unfold Lays at *
  split
  next ended =>
    rw [ended] at lays
    obtain ⟨standing, above, holds⟩ := lays
    exact ⟨standing, Nat.le_trans below above, implied _ _ above holds⟩
  next ended =>
    rw [ended] at lays
    obtain ⟨standing, above, placed⟩ := lays
    exact ⟨standing, Nat.le_trans below above, placed⟩
  next => trivial

/-- A step whose result is known leads on from there. -/
theorem step {value : α} {middle : State} (start : production state = .ok value middle)
    (goes : Lays lexemes eof floor (follow value) middle result) :
    Lays lexemes eof floor (production >>= follow) state result := by
  unfold Lays
  rw [bind_of_ok start]
  exact goes

/-- A production goes on where its first step has come to. -/
theorem bind {base : Nat} (start : Lays lexemes eof base production state given)
    (above : floor ≤ base)
    (goes : ∀ value middle, Standing lexemes eof middle → base ≤ middle.lastStop →
      given value middle → Lays lexemes eof floor (follow value) middle result) :
    Lays lexemes eof floor (production >>= follow) state result := by
  unfold Lays at start
  cases ended : production state with
  | ok value middle =>
      rw [ended] at start
      obtain ⟨standing, reached, holds⟩ := start
      exact step ended (goes value middle standing reached holds)
  | error stop last =>
      rw [ended] at start
      unfold Lays
      rw [bind_of_error ended]
      cases stop with
      | error error =>
          obtain ⟨standing, reached, placed⟩ := start
          exact ⟨standing, Nat.le_trans above reached, placed⟩
      | outOfFuel => trivial

theorem map (f : α → β) (start : Lays lexemes eof floor production state given)
    (implied : ∀ value last, floor ≤ last.lastStop → given value last → result (f value) last) :
    Lays lexemes eof floor (f <$> production) state result := by
  rw [map_eq_pure_bind]
  refine start.bind (Nat.le_refl _) fun value middle standing reached holds => ?_
  exact .pure standing reached (implied value middle reached holds)

/-- A part that may be missing is there. -/
theorem mapSome (start : Lays lexemes eof floor production state given) :
    Lays lexemes eof floor (some <$> production) state fun found last =>
      ∀ value ∈ found, given value last :=
  start.map some fun _ _ _ holds _ same => Option.some.inj same ▸ holds

/-- A production that refuses its lexeme places its error there. -/
theorem refuse {expected : String} (standing : Standing lexemes eof state)
    (above : floor ≤ state.lastStop) :
    Lays lexemes eof floor (refuse eof expected : Production α) state given :=
  ⟨standing, above, standing.unexpected expected⟩

section
variable (order : InOrder lexemes) (standing : Standing lexemes eof state)
include order standing

/-- A lexeme that is taken is passed. -/
theorem take {follow : Span → Production β} (next : state.rest = lexeme :: rest)
    (goes : ∀ middle, Passes lexemes eof state lexeme middle →
      Lays lexemes eof floor (follow lexeme.span) middle result) :
    Lays lexemes eof floor (take eof >>= follow) state result := by
  refine step take_apply ?_
  rw [here_cons next, State.advance_cons next]
  exact goes _ (standing.passes order next)

/-- A symbol that is next is taken. -/
theorem takeSymbol {follow : Span → Production β} (next : state.next? = some symbol)
    (goes : ∀ lexeme middle, Spells symbol lexeme → Passes lexemes eof state lexeme middle →
      Lays lexemes eof floor (follow lexeme.span) middle result) :
    Lays lexemes eof floor (Parser.take eof >>= follow) state result := by
  obtain ⟨lexeme, rest, split, spelled⟩ := State.next?_eq_some.1 next
  exact take order standing split fun middle passes => goes lexeme middle spelled passes

/-- An expected symbol is passed, or its absence is an error in place. -/
theorem expect {follow : Span → Production β} (above : floor ≤ state.lastStop)
    (goes : ∀ lexeme middle, Spells symbol lexeme → Passes lexemes eof state lexeme middle →
      Lays lexemes eof floor (follow lexeme.span) middle result) :
    Lays lexemes eof floor (expect eof symbol >>= follow) state result := by
  by_cases next : state.next? = some symbol
  · refine step (expect_of_next next) ?_
    exact takeSymbol order standing next goes
  · unfold Lays
    rw [bind_of_error (expect_of_other next)]
    exact ⟨standing, above, standing.unexpected _⟩

/-- A symbol that may be taken is passed when it is there. -/
theorem accept {follow : Bool → Production β}
    (taken : ∀ lexeme middle, Spells symbol lexeme → Passes lexemes eof state lexeme middle →
      Lays lexemes eof floor (follow true) middle result)
    (other : Lays lexemes eof floor (follow false) state result) :
    Lays lexemes eof floor (accept symbol >>= follow) state result := by
  by_cases next : state.next? = some symbol
  · obtain ⟨lexeme, rest, split, spelled⟩ := State.next?_eq_some.1 next
    refine step (accept_of_next next) ?_
    rw [State.advance_cons split]
    exact taken lexeme _ spelled (standing.passes order split)
  · exact step (accept_of_other next) other

/-- An expected name stands at its span, behind what was read before. -/
theorem expectName {expected : String} {follow : Name → Production β}
    (above : floor ≤ state.lastStop)
    (goes : ∀ name middle, Stands lexemes name.item name.span →
      state.lastStop ≤ name.span.start → middle.lastStop = name.span.stop →
      Standing lexemes eof middle → Lays lexemes eof floor (follow name) middle result) :
    Lays lexemes eof floor (expectName eof expected >>= follow) state result := by
  rcases expectName_eq eof state expected with
    ⟨name, text, span, rest, split, taken⟩ | refused
  · have passes := standing.passes order split
    refine step taken (goes ⟨name, span⟩ _ ⟨_, passes.among, rfl, rfl⟩ passes.before ?_
      passes.standing)
    exact passes.stop
  · unfold Lays
    rw [bind_of_error refused]
    exact ⟨standing, above, standing.unexpected _⟩

end

/-- The check of a list's length moves past nothing. -/
theorem checkLength {listed : Listed} {length : Nat} {follow : Unit → Production β}
    (standing : Standing lexemes eof state)
    (goes : ∀ middle, Standing lexemes eof middle → middle.lastStop = state.lastStop →
      Lays lexemes eof floor (follow ()) middle result) :
    Lays lexemes eof floor (checkLength eof listed length >>= follow) state result := by
  by_cases long : listLimit ≤ length
  · refine step (checkLength_of_long long) (goes _ (standing.report ?_) rfl)
    unfold State.here
    split
    next => exact .ends rfl (.inr ⟨listed, rfl⟩)
    next lexeme rest next => exact .lexeme (standing.among (by simp [next])) rfl
  · exact step (checkLength_of_short (Nat.not_le.1 long)) (goes state standing rfl)

end Lays

end

end Lox.Parser
