import Lox.Proofs.Syntax.Steps
import Lox.Tree.Parser

namespace Lox.Parser

/-- One state is reached from another by passing at least a number of lexemes. -/
structure Advances (count : Nat) (first last : State) : Prop where
  passed : ∃ taken, first.rest = taken ++ last.rest ∧ count ≤ taken.length
  numbered : first.nextId ≤ last.nextId
  reported : ∃ found, last.errors.toList = first.errors.toList ++ found ∧
    ∀ error ∈ found, error.item.phase = .static

namespace Advances

theorem refl (state : State) : Advances 0 state state :=
  ⟨⟨[], rfl, Nat.le_refl 0⟩, Nat.le_refl _, ⟨[], by simp⟩⟩

theorem trans {count more : Nat} {first middle last : State} (start : Advances count first middle)
    (rest : Advances more middle last) : Advances (count + more) first last := by
  obtain ⟨taken, split, enough⟩ := start.passed
  obtain ⟨others, splitOthers, enoughOthers⟩ := rest.passed
  obtain ⟨found, reported, static⟩ := start.reported
  obtain ⟨later, reportedLater, staticLater⟩ := rest.reported
  refine ⟨⟨taken ++ others, ?_, ?_⟩, Nat.le_trans start.numbered rest.numbered,
    ⟨found ++ later, ?_, ?_⟩⟩
  · rw [split, splitOthers, List.append_assoc]
  · rw [List.length_append]
    omega
  · rw [reportedLater, reported, List.append_assoc]
  · intro error given
    rcases List.mem_append.1 given with early | late
    · exact static error early
    · exact staticLater error late

/-- A parser that takes some lexemes takes at least fewer. -/
theorem weaken {count fewer : Nat} {first last : State} (advances : Advances count first last)
    (less : fewer ≤ count) : Advances fewer first last := by
  obtain ⟨taken, split, enough⟩ := advances.passed
  exact ⟨⟨taken, split, Nat.le_trans less enough⟩, advances.numbered, advances.reported⟩

/-- The lexemes that are left become fewer. -/
theorem length_le {count : Nat} {first last : State} (advances : Advances count first last) :
    last.rest.length + count ≤ first.rest.length := by
  obtain ⟨taken, split, enough⟩ := advances.passed
  rw [split, List.length_append]
  omega

theorem behind {state : State} {lexeme : Lexeme} {rest : List Lexeme}
    (next : state.rest = lexeme :: rest) : Advances 1 state (state.behind lexeme rest) :=
  ⟨⟨[lexeme], next, Nat.le_refl 1⟩, Nat.le_refl _, ⟨[], by simp⟩⟩

end Advances

/-- The fuel that a production of a rank needs for the lexemes that are left. -/
def State.need (state : State) (rank : Nat) : Nat := fuelPerLexeme * state.rest.length + rank

/-- Every lexeme that is passed makes up for the ranks of the productions behind it. -/
theorem Advances.lack {count rank base fuel : Nat} {origin state : State}
    (advances : Advances count origin state) (small : rank ≤ 20 * count + base)
    (lacking : fuel < state.need rank) : fuel < origin.need base := by
  have fewer := advances.length_le
  simp only [State.need, fuelPerLexeme] at *
  omega

/-- Each lexeme that is taken pays for the fuel of the productions between two lexemes. -/
theorem Advances.lack_succ {count rank base fuel : Nat} {origin state : State}
    (advances : Advances count origin state) (small : rank + 1 ≤ 20 * count + base)
    (lacking : fuel < state.need rank) : fuel + 1 < origin.need base := by
  have fewer := advances.length_le
  simp only [State.need, fuelPerLexeme] at *
  omega

/-- A production ends a number of lexemes behind an origin, or it stops at an error of the text,
or it lacks fuel for a given reason. -/
def Arrives {α : Type} (origin : State) (count : Nat) (lack : Prop) (production : Production α)
    (state : State) : Prop :=
  match production state with
  | .ok _ last => Advances count origin last
  | .error (.error error) last => error.item.phase = .static ∧ Advances 0 origin last
  | .error .outOfFuel _ => lack

/-- A production makes progress when it arrives behind the state that it starts in. -/
def Progress {α : Type} (count : Nat) (lack : Prop) (production : Production α) (state : State) :
    Prop :=
  Arrives state count lack production state

namespace Progress

variable {α : Type} {count : Nat} {lack : Prop} {state last : State} {production : Production α}

/-- A production that has a value has advanced. -/
theorem advances {value : α} (progress : Progress count lack production state)
    (ended : production state = .ok value last) : Advances count state last := by
  unfold Progress Arrives at progress
  rwa [ended] at progress

/-- A production that is stopped reports an error that is found before the run. -/
theorem stopped {error : Located Error} (progress : Progress count lack production state)
    (ended : production state = .error (.error error) last) :
    error.item.phase = .static ∧ Advances 0 state last := by
  unfold Progress Arrives at progress
  rwa [ended] at progress

/-- A production runs out of fuel only where it lacks it. -/
theorem lacks (progress : Progress count lack production state)
    (ended : production state = .error .outOfFuel last) : lack := by
  unfold Progress Arrives at progress
  rwa [ended] at progress

end Progress

namespace Arrives

variable {α β : Type} {count passed more : Nat} {lack lack' : Prop} {origin state middle : State}
  {production : Production α} {next : α → Production β}

theorem pure (sofar : Advances passed origin state) (value : α) (enough : count ≤ passed) :
    Arrives origin count lack (pure value : Production α) state :=
  sofar.weaken enough

theorem outOfFuel (lacking : lack) :
    Arrives origin count lack (throw .outOfFuel : Production α) state := lacking

/-- The last step of a production adds what it passes. -/
theorem final (sofar : Advances passed origin state)
    (progress : Progress more lack' production state) (implied : lack' → lack)
    (enough : count ≤ passed + more) : Arrives origin count lack production state := by
  unfold Arrives
  cases ended : production state with
  | ok value last => exact (sofar.trans (progress.advances ended)).weaken enough
  | error stop last =>
      cases stop with
      | error error =>
          obtain ⟨static, advances⟩ := progress.stopped ended
          exact ⟨static, (sofar.trans advances).weaken (Nat.zero_le _)⟩
      | outOfFuel => exact implied (progress.lacks ended)

/-- A step whose result is known leads on from there. -/
theorem step {value : α} (start : production state = .ok value middle)
    (rest : Arrives origin count lack (next value) middle) :
    Arrives origin count lack (production >>= next) state := by
  unfold Arrives
  rw [Computation.bind_of_ok start]
  exact rest

/-- A step adds what it passes, and the rest of the production goes on behind it. -/
theorem bind (sofar : Advances passed origin state)
    (progress : Progress more lack' production state) (implied : lack' → lack)
    (rest : ∀ value middle, Advances (passed + more) origin middle →
      Arrives origin count lack (next value) middle) :
    Arrives origin count lack (production >>= next) state := by
  cases ended : production state with
  | ok value middle => exact step ended (rest value middle (sofar.trans (progress.advances ended)))
  | error stop last =>
      unfold Arrives
      rw [Computation.bind_of_error ended]
      cases stop with
      | error error =>
          obtain ⟨static, advances⟩ := progress.stopped ended
          exact ⟨static, (sofar.trans advances).weaken (Nat.zero_le _)⟩
      | outOfFuel => exact implied (progress.lacks ended)

theorem map (f : α → β) (arrives : Arrives origin count lack production state) :
    Arrives origin count lack (f <$> production) state := by
  unfold Arrives at *
  rw [map_eq_pure_bind]
  cases ended : production state with
  | ok value last =>
      rw [Computation.bind_of_ok ended]
      rwa [ended] at arrives
  | error stop last =>
      rw [Computation.bind_of_error ended]
      rw [ended] at arrives
      cases stop with
      | error error => exact arrives
      | outOfFuel => exact arrives

/-- An optional symbol decides between two ways to go on. -/
theorem accept {symbol : Symbol} {next : Bool → Production β} (sofar : Advances passed origin state)
    (taken : ∀ middle, Advances (passed + 1) origin middle →
      Arrives origin count lack (next true) middle)
    (other : Arrives origin count lack (next false) state) :
    Arrives origin count lack (accept symbol >>= next) state := by
  by_cases present : state.next? = some symbol
  · obtain ⟨lexeme, rest, split, -⟩ := State.next?_eq_some.1 present
    have advances := Advances.behind split
    rw [← State.advance_cons split] at advances
    exact step (accept_of_next present) (taken _ (sofar.trans advances))
  · exact step (accept_of_other present) other

end Arrives

section
variable {eof : Nat} {state : State} {symbol : Symbol}

/-- An unexpected lexeme is an error that is found before the run. -/
theorem unexpected_static (expected : String) :
    (state.unexpected eof expected).item.phase = .static := by
  unfold State.unexpected
  split <;> rfl

/-- A production that refuses its lexeme makes any progress. -/
theorem refuse_progress {α : Type} {expected : String} (count : Nat) :
    Progress count False (refuse eof expected : Production α) state :=
  ⟨unexpected_static expected, .refl state⟩

theorem report_progress {error : Located Error} (static : error.item.phase = .static) :
    Progress 0 False (report error) state :=
  ⟨⟨[], rfl, Nat.le_refl 0⟩, Nat.le_refl _, ⟨[error], by simp, by simpa using static⟩⟩

theorem freshId_progress : Progress 0 False freshId state :=
  ⟨⟨[], rfl, Nat.le_refl 0⟩, Nat.le_succ _, ⟨[], by simp⟩⟩

/-- A lexeme that is taken is progress. -/
theorem take_progress (some : state.rest ≠ []) : Progress 1 False (take eof) state := by
  obtain ⟨lexeme, rest, split⟩ := List.exists_cons_of_ne_nil some
  unfold Progress Arrives
  rw [take_apply, State.advance_cons split]
  exact .behind split

/-- An expected symbol is progress, or its absence is an error. -/
theorem expect_progress : Progress 1 False (expect eof symbol) state := by
  unfold Progress Arrives
  by_cases next : state.next? = some symbol
  · obtain ⟨lexeme, rest, split, -⟩ := State.next?_eq_some.1 next
    rw [expect_of_next next, State.advance_cons split]
    exact .behind split
  · rw [expect_of_other next]
    exact ⟨unexpected_static _, .refl state⟩

theorem expectName_progress {expected : String} :
    Progress 1 False (expectName eof expected) state := by
  unfold Progress Arrives
  rcases expectName_eq eof state expected with
    ⟨name, text, span, rest, split, taken⟩ | refused
  · rw [taken]
    exact .behind split
  · rw [refused]
    exact ⟨unexpected_static _, .refl state⟩

theorem checkLength_progress {listed : Listed} {length : Nat} :
    Progress 0 False (checkLength eof listed length) state := by
  by_cases long : listLimit ≤ length
  · rw [checkLength, if_pos long]
    exact .step here_apply (report_progress rfl)
  · rw [checkLength, if_neg long]
    exact Advances.refl state

/-- A next symbol is a lexeme that is left. -/
theorem State.rest_ne_nil (next : state.next? = some symbol) : state.rest ≠ [] := by
  obtain ⟨lexeme, rest, split, -⟩ := State.next?_eq_some.1 next
  simp [split]

end

end Lox.Parser
