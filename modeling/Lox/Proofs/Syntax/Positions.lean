import Mathlib.Data.Nat.PSub
import Lox.Proofs.Syntax.Paths

namespace Lox.Parser

section
variable (lexemes : List Lexeme)

/-- So many of the lexemes are passed, and the others are left. -/
structure AtPosition (current : Nat) (state : State) : Prop where
  within : current ≤ lexemes.length
  left : state.rest = lexemes.drop current

/-- The position behind an error from a position on: it is behind a semicolon or at a symbol that only
a statement starts with. The lexeme before a position is looked at, and there is no answer if it is
before the first lexeme. -/
def search? (current : Nat) : Option Nat :=
  if inside : current < lexemes.length then do
    let previous ← current.ppred
    if lexemes[previous]?.bind Lexeme.symbol? = some .semicolon ||
        startsStatement lexemes[current].symbol? then
      return current
    else
      search? (current + 1)
  else
    some current
termination_by lexemes.length - current

/-- The position where reading goes on after an error at a position. The lexeme there is passed in any
case, if there is one. -/
def synchronize? (current : Nat) : Option Nat :=
  search? lexemes (if current < lexemes.length then current + 1 else current)

end

variable {lexemes : List Lexeme} {eof current : Nat} {state first last : State}

theorem AtPosition.start (lastStop nextId : Nat) (errors : Array (Located Error)) :
    AtPosition lexemes 0 ⟨lexemes, lastStop, nextId, errors⟩ :=
  ⟨Nat.zero_le _, rfl⟩

/-- As many lexemes are left as the position says. -/
theorem AtPosition.rest_length (position : AtPosition lexemes current state) :
    state.rest.length = lexemes.length - current := by
  rw [position.left, List.length_drop]

/-- A state is at one position only. -/
theorem AtPosition.unique {other : Nat} (position : AtPosition lexemes current state)
    (also : AtPosition lexemes other state) : current = other := by
  have same := position.rest_length.symm.trans also.rest_length
  have within := position.within
  have within' := also.within
  omega

/-- Lexemes are left exactly before the end. -/
theorem AtPosition.rest_ne_nil (position : AtPosition lexemes current state) :
    state.rest ≠ [] ↔ current < lexemes.length := by
  rw [← List.length_pos_iff, position.rest_length]
  omega

/-- Where lexemes are passed the position moves forwards by their number. -/
theorem AtPosition.passed {taken : List Lexeme} (position : AtPosition lexemes current first)
    (split : first.rest = taken ++ last.rest) :
    AtPosition lexemes (current + taken.length) last := by
  have total := position.rest_length
  have within := position.within
  rw [split, List.length_append] at total
  refine ⟨by omega, ?_⟩
  rw [← List.drop_drop, ← position.left, split, List.drop_left]

/-- Recovery drops lexemes in front. -/
theorem recover_suffix (rest : List Lexeme) : recover rest <:+ rest := by
  fun_induction recover rest with
  | case1 => exact List.suffix_refl _
  | case2 => exact List.nil_suffix
  | case3 => exact List.suffix_cons _ _
  | case4 lexeme next rest _ ih => exact ih.trans (List.suffix_cons _ _)

/-- A step passes some lexemes or none. -/
theorem Step.suffix {read : List Lexeme} (step : Step eof first read last) :
    last.rest <:+ first.rest := by
  cases step with
  | take next | read next =>
      rw [next]
      exact List.suffix_cons _ _
  | report => exact List.suffix_refl _
  | giveUp => exact recover_suffix _

/-- A path leaves the lexemes behind it. -/
theorem Path.suffix {read : List Lexeme} (path : Path eof first read last) :
    last.rest <:+ first.rest := by
  induction path with
  | nil => exact List.suffix_refl _
  | cons step _ ih => exact ih.trans step.suffix

/-- Along a path the position stays within the lexemes and never moves backwards. -/
theorem Path.position {read : List Lexeme} (path : Path eof first read last)
    (position : AtPosition lexemes current first) :
    ∃ next, AtPosition lexemes next last ∧ current ≤ next := by
  obtain ⟨taken, split⟩ := path.suffix
  exact ⟨_, position.passed split.symm, Nat.le_add_right _ _⟩

/-- Behind a first lexeme the search has an answer, which leaves out what is left out after an error
at the lexeme before. -/
theorem search?_eq {current : Nat} (within : current < lexemes.length) :
    ∃ next, search? lexemes (current + 1) = some next ∧ current < next ∧ next ≤ lexemes.length ∧
      lexemes.drop next = recover (lexemes.drop current) := by
  rw [List.drop_eq_getElem_cons within, search?]
  split
  next inside =>
    rw [List.drop_eq_getElem_cons inside, recover]
    simp only [Nat.ppred, List.getElem?_eq_getElem within, Option.bind_some,
      Option.bind_eq_bind]
    split
    next stops =>
      exact ⟨current + 1, rfl, Nat.lt_succ_self _, within, List.drop_eq_getElem_cons inside⟩
    next goes =>
      obtain ⟨next, found, behind, within, same⟩ := search?_eq inside
      rw [List.drop_eq_getElem_cons inside] at same
      exact ⟨next, found, Nat.lt_of_succ_lt behind, within, same⟩
  next outside =>
    have ends : lexemes.drop (current + 1) = [] := List.drop_eq_nil_of_le (Nat.le_of_not_lt outside)
    rw [ends, recover]
    exact ⟨current + 1, rfl, Nat.lt_succ_self _, within, ends⟩
termination_by lexemes.length - current

/-- After an error reading goes on at a position that is found without looking before the first
lexeme, and behind the error if it is at a lexeme. -/
theorem synchronize?_eq (position : AtPosition lexemes current state)
    (behind : last.rest = recover state.rest) :
    ∃ next, synchronize? lexemes current = some next ∧ AtPosition lexemes next last ∧
      (current < lexemes.length → current < next) := by
  unfold synchronize?
  split
  next within =>
    obtain ⟨next, found, forwards, within, same⟩ := search?_eq within
    exact ⟨next, found, ⟨within, by rw [behind, position.left, same]⟩, fun _ => forwards⟩
  next outside =>
    have ends := List.drop_eq_nil_of_le (Nat.le_of_not_lt outside)
    refine ⟨current, by rw [search?, dif_neg outside], ⟨position.within, ?_⟩, fun inside =>
      absurd inside outside⟩
    rw [behind, position.left, ends, recover]

/-- The search for a boundary stays within the lexemes. -/
theorem synchronize?_ne_none (within : current ≤ lexemes.length) :
    synchronize? lexemes current ≠ none := by
  intro missing
  let last : State := ⟨recover (lexemes.drop current), 0, 0, #[]⟩
  have position : AtPosition lexemes current ⟨lexemes.drop current, 0, 0, #[]⟩ := ⟨within, rfl⟩
  have behind : last.rest = recover (lexemes.drop current) := rfl
  obtain ⟨next, found, -⟩ := synchronize?_eq position behind
  cases missing.symm.trans found

end Lox.Parser
