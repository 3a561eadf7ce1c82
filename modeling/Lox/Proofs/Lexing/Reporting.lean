import Lox.Proofs.Lexing.Tokenization

namespace Lox.Token

open Text (byteLength byteLength_append)

/-- Pieces that pass a test and have no neighbour that passes it. -/
structure IsRun (q : Located Piece → Bool) (cut before run after : List (Located Piece)) :
    Prop where
  split : cut = before ++ (run ++ after)
  some : run ≠ []
  all : ∀ piece ∈ run, q piece = true
  starts : ∀ piece ∈ before.getLast?, q piece = false
  ends : ∀ piece ∈ after.head?, q piece = false

def isInvalidPiece (piece : Located Piece) : Bool :=
  match piece.item.kind with
  | .invalid => true
  | .blank | .token _ | .unterminated => false

/-- Text that forms no token is reported: a run of invalid characters gives one error, and so does a
string without its closing quote. There is no lexeme for it, neither from the lexer nor for the
parser. -/
structure Reported (text : String) : Prop where
  valid : ∀ lexeme, .lexeme lexeme ∈ lex text → lexeme.token ≠ .invalid
  runs : ∀ before run after, IsRun isInvalidPiece (pieces 0 text.toList) before run after →
    (∀ piece ∈ after.head?, piece.item.kind ≠ .unterminated) →
    overlapping (spanFrom (byteLength (charsOf before)) run) (lex text) =
      [unexpected (charsOf run) (spanFrom (byteLength (charsOf before)) run)]
  strings : ∀ before piece after, pieces 0 text.toList = before ++ piece :: after →
    piece.item.kind = .unterminated →
    (∀ other ∈ before.getLast?, isInvalidPiece other = false) →
    overlapping piece.span (lex text) = [.error ⟨.unterminatedString,
      ⟨byteLength (charsOf before), byteLength text.toList⟩⟩]
  parsed : ∀ lexeme ∈ Parser.lexemesOf text, lexeme.token ≠ .invalid

/-- Between two errors there are not only white space and comments. -/
def Separate (cut : List (Located Piece)) : Prop :=
  ∀ first blanks second, first :: (blanks ++ [second]) <:+: cut → isErrorPiece first = true →
    isErrorPiece second = true → (∀ piece ∈ blanks, isBlankPiece piece = true) → blanks = []

section
variable {pieces group rest before after : List (Located Piece)} {item : Item} {given : List Item}

theorem Separate.append (group : List (Located Piece)) (separate : Separate (group ++ rest)) :
    Separate rest :=
  fun first blanks second inside =>
    separate first blanks second (inside.trans (List.suffix_append group rest).isInfix)

/-- In separate pieces, no blanks stand between a gathered error and the next one. -/
theorem Separate.of_gathers {blanks : List (Located Piece)} {piece : Located Piece}
    (separate : Separate (group ++ (blanks ++ piece :: rest))) (gathered : Gathers group item)
    (between : ∀ piece ∈ blanks, isBlankPiece piece = true) (error : isErrorPiece piece = true) :
    blanks = [] := by
  obtain ⟨front, last, rfl⟩ := (List.eq_nil_or_concat group).resolve_left gathered.ne_nil
  refine separate last blanks piece ⟨front, rest, by simp⟩ ?_ error between
  exact gathered.errors last (by simp)

/-- Behind other pieces a run is a run of its own. -/
theorem IsRun.append {q : Located Piece → Bool} (front : List (Located Piece))
    (run : IsRun q (front ++ rest) (front ++ before) group after) :
    IsRun q rest before group after where
  split := List.append_cancel_left (run.split.trans (List.append_assoc ..))
  some := run.some
  all := run.all
  starts piece given := run.starts piece (by
    rw [List.getLast?_append, Option.mem_def.1 given]
    rfl)
  ends := run.ends

/-- A run of errors is that of the pieces, or it is behind them. -/
theorem IsRun.cases {others : List (Located Piece)}
    (run : IsRun isErrorPiece (group ++ rest) before others after) (some : group ≠ [])
    (errors : ∀ piece ∈ group, isErrorPiece piece = true)
    (ends : ∀ piece ∈ rest.head?, isErrorPiece piece = false) :
    others = group ∨ ∃ before', IsRun isErrorPiece rest before' others after := by
  rcases List.append_eq_append_iff.1 run.split with ⟨further, rfl, same⟩ | ⟨inner, rfl, same⟩
  · exact .inr ⟨further, run.append _⟩
  have first : before = [] := by
    rcases List.eq_nil_or_concat before with rfl | ⟨front, last, rfl⟩
    · rfl
    · have wrong := errors last (by simp)
      cases wrong.symm.trans (run.starts last (by simp))
  subst first
  refine .inl ?_
  rcases List.append_eq_append_iff.1 same with ⟨more, rfl, rfl⟩ | ⟨more, rfl, rfl⟩
  · rcases more with _ | ⟨piece, more⟩
    · exact (List.append_nil _).symm
    · cases (errors piece (by simp)).symm.trans (run.ends piece rfl)
  · rcases more with _ | ⟨piece, more⟩
    · exact List.append_nil _
    · cases (run.all piece (by simp)).symm.trans (ends piece rfl)

/-- No run of errors starts with a piece that is none. -/
theorem IsRun.tail {piece : Located Piece}
    (run : IsRun isErrorPiece (piece :: rest) before group after)
    (valid : isErrorPiece piece = false) :
    ∃ before', IsRun isErrorPiece rest before' group after := by
  rcases before with _ | ⟨first, before⟩
  · obtain ⟨first, more, rfl⟩ := List.exists_cons_of_ne_nil run.some
    obtain ⟨rfl, -⟩ := List.cons.inj run.split
    cases valid.symm.trans (run.all _ List.mem_cons_self)
  · obtain ⟨rfl, -⟩ := List.cons.inj run.split
    exact ⟨before, run.append [piece]⟩

/-- A run of errors in pieces is that of an item, unless there is an error left over. -/
theorem Groups.gathers (groups : Groups pieces given) (separate : Separate pieces)
    (run : IsRun isErrorPiece pieces before group after) :
    ∃ item ∈ given, Gathers group item := by
  induction groups generalizing before with
  | nil =>
      have none : before = [] ∧ group = [] ∧ after = [] := by simpa using run.split
      exact absurd none.2.1 run.some
  | @blank piece rest given blank further ih =>
      obtain ⟨before', run⟩ := run.tail (not_error_of_blank blank)
      exact ih (separate.append [piece]) run
  | token further ih =>
      obtain ⟨before', run⟩ := run.tail rfl
      obtain ⟨item, among, gathered⟩ := ih (separate.append [_]) run
      exact ⟨item, List.mem_cons_of_mem _ among, gathered⟩
  | @error front rest item given gathered ends further ih =>
      have ends : ∀ piece ∈ rest.head?, isErrorPiece piece = false := fun piece first => by
        obtain ⟨behind, rfl⟩ := List.head?_eq_some_iff.1 first
        by_contra wrong
        have error := (Bool.not_eq_false _).mp wrong
        exact wrong (ends piece (visible?_cons (not_blank_of_error error) behind))
      rcases run.cases gathered.ne_nil gathered.errors ends with rfl | ⟨before', run⟩
      · exact ⟨item, List.mem_cons_self, gathered⟩
      · obtain ⟨item, among, gathered⟩ := ih (separate.append _) run
        exact ⟨item, List.mem_cons_of_mem _ among, gathered⟩
  | @leftover front blanks rest piece item given gathered some between error further ih =>
      exact absurd (separate.of_gathers gathered between error) some

/-- What is behind a piece that is not at the start is behind it in the rest, too. -/
theorem exists_before {piece first : Located Piece} {others : List (Located Piece)}
    (split : piece :: rest = before ++ first :: others) (wrong : isErrorPiece first = true)
    (valid : isErrorPiece piece = false) : ∃ before', rest = before' ++ first :: others := by
  rcases before with _ | ⟨other, before⟩
  · obtain ⟨rfl, -⟩ := List.cons.inj split
    cases valid.symm.trans wrong
  · exact ⟨before, (List.cons.inj split).2⟩

/-- An error that is apart from the one before it is left over, or another one is. -/
theorem Groups.invalid (groups : Groups pieces given) {first second : Located Piece}
    {blanks : List (Located Piece)}
    (split : pieces = before ++ first :: (blanks ++ second :: after))
    (wrong : isErrorPiece first = true) (error : isErrorPiece second = true) (some : blanks ≠ [])
    (between : ∀ piece ∈ blanks, isBlankPiece piece = true) :
    ∃ lexeme, .lexeme lexeme ∈ given ∧ lexeme.token = .invalid := by
  induction groups generalizing before with
  | nil => simp at split
  | blank blank further ih =>
      obtain ⟨before, split⟩ := exists_before split wrong (not_error_of_blank blank)
      exact ih split
  | token further ih =>
      obtain ⟨before, split⟩ := exists_before split wrong rfl
      obtain ⟨lexeme, among, same⟩ := ih split
      exact ⟨lexeme, List.mem_cons_of_mem _ among, same⟩
  | @error front rest item given gathered ends further ih =>
      have later {before : List (Located Piece)}
          (split : rest = before ++ first :: (blanks ++ second :: after)) :
          ∃ lexeme, .lexeme lexeme ∈ item :: given ∧ lexeme.token = .invalid := by
        obtain ⟨lexeme, among, same⟩ := ih split
        exact ⟨lexeme, List.mem_cons_of_mem _ among, same⟩
      rcases List.append_eq_append_iff.1 split with ⟨further, rfl, same⟩ | ⟨inner, rfl, same⟩
      · exact later same
      rcases inner with _ | ⟨other, inner⟩
      · exact later (show rest = [] ++ _ from same.symm)
      obtain ⟨rfl, tails⟩ := List.cons.inj same
      rcases inner with _ | ⟨other, inner⟩
      · obtain rfl : blanks ++ second :: after = rest := tails
        rw [visible?_append between, visible?_cons (not_blank_of_error error)] at ends
        cases error.symm.trans (ends second rfl)
      · obtain ⟨blank, others, rfl⟩ := List.exists_cons_of_ne_nil some
        obtain ⟨rfl, -⟩ := List.cons.inj tails
        have blank := between _ List.mem_cons_self
        cases (not_error_of_blank blank).symm.trans (gathered.errors _ (by simp))
  | leftover => exact ⟨_, List.mem_cons_of_mem _ List.mem_cons_self, rfl⟩

/-- There is no lexeme for an error that is not apart from others. -/
theorem Groups.valid (groups : Groups pieces given) (separate : Separate pieces)
    (tokens : ∀ piece ∈ pieces, piece.item.kind ≠ .token .invalid) :
    ∀ lexeme, .lexeme lexeme ∈ given → lexeme.token ≠ .invalid := by
  intro lexeme among wrong
  induction groups with
  | nil => cases among
  | @blank piece rest given blank further ih =>
      exact ih (separate.append [piece]) (List.forall_mem_cons.1 tokens).2 among
  | token further ih =>
      obtain ⟨first, tokens⟩ := List.forall_mem_cons.1 tokens
      rcases List.mem_cons.1 among with same | among
      · cases same
        obtain rfl : _ = Token.invalid := wrong
        exact first rfl
      · exact ih (separate.append [_]) tokens among
  | error gathered ends further ih =>
      rcases List.mem_cons.1 among with same | among
      · cases gathered <;> cases same
      · exact ih (separate.append _) (fun piece given => tokens piece (by simp [given])) among
  | @leftover front blanks rest piece item given gathered some between error further ih =>
      exact some (separate.of_gathers gathered between error)

end

/-- A string without its closing quote is not in front of other pieces. -/
theorem Scans.last {start : Nat} {cs : List Char} {before after : List (Located Piece)}
    {next piece : Located Piece} (scans : Scans start cs (before ++ next :: after))
    (last : piece ∈ before.getLast?) : piece.item.kind ≠ .unterminated := by
  obtain ⟨front, rfl⟩ := List.getLast?_eq_some_iff.1 last
  intro kind
  rw [List.append_assoc] at scans
  obtain ⟨rest, -, later⟩ := scans.append
  cases later.unterminated kind

theorem error_of_isInvalidPiece {piece : Located Piece} (invalid : isInvalidPiece piece = true) :
    isErrorPiece piece = true := by
  obtain ⟨⟨kind, text⟩, span⟩ := piece
  cases kind <;> cases invalid
  rfl

/-- An error other than an open string is an unrecognized character. -/
theorem isErrorPiece_cases {piece : Located Piece} (other : piece.item.kind ≠ .unterminated) :
    isErrorPiece piece = isInvalidPiece piece := by
  obtain ⟨⟨kind, text⟩, span⟩ := piece
  cases kind with
  | blank | token | invalid => rfl
  | unterminated => exact absurd rfl other

/-- A run of errors that are next to each other gives one item if no error is left over. -/
theorem overlapping_of_run {text : String} {before run after : List (Located Piece)}
    (separate : Separate (pieces 0 text.toList))
    (isRun : IsRun isErrorPiece (pieces 0 text.toList) before run after) :
    ∃ item, Gathers run item ∧ item.span = spanFrom (byteLength (charsOf before)) run ∧
      overlapping item.span (lex text) = [item] := by
  have scans := pieces_scans 0 text.toList
  obtain ⟨item, among, gathered⟩ := (groups_of_scans scans).gathers separate isRun
  have ordered := (lex_succeed text).ordered
  obtain ⟨-, chars, occupies⟩ := ordered.1 item among
  have within : Within item.span item.span := ⟨Nat.le_refl _, Nat.le_refl _⟩
  refine ⟨item, gathered, ?_, overlapping_of_within ordered.2 among occupies.proper within⟩
  rw [isRun.split] at scans
  obtain ⟨rest, -, later⟩ := scans.append
  simpa using (Made.gathered gathered).span later

/-- Unrecognized characters in a row are reported as one unexpected text. -/
theorem Gathers.of_invalid {run : List (Located Piece)} {item : Item} (gathered : Gathers run item)
    (all : ∀ piece ∈ run, isInvalidPiece piece = true) :
    item = unexpected (charsOf run) item.span := by
  cases gathered with
  | run => rfl
  | unterminated => cases all _ List.mem_cons_self

/-- An open string is reported at its own span. -/
theorem Gathers.of_unterminated {piece : Located Piece} {item : Item}
    (gathered : Gathers [piece] item) (kind : piece.item.kind = .unterminated) :
    item = .error ⟨.unterminatedString, item.span⟩ := by
  cases gathered with
  | run starts => cases starts.symm.trans kind
  | unterminated => rfl

/-- A run of invalid characters gives one item if no error is left over. -/
theorem overlapping_of_invalid {text : String} {before run after : List (Located Piece)}
    (separate : Separate (pieces 0 text.toList))
    (isRun : IsRun isInvalidPiece (pieces 0 text.toList) before run after)
    (ends : ∀ piece ∈ after.head?, piece.item.kind ≠ .unterminated) :
    overlapping (spanFrom (byteLength (charsOf before)) run) (lex text) =
      [unexpected (charsOf run) (spanFrom (byteLength (charsOf before)) run)] := by
  have isErrorRun : IsRun isErrorPiece (pieces 0 text.toList) before run after :=
    { isRun with
      all := fun piece given => error_of_isInvalidPiece (isRun.all piece given)
      starts := fun piece last => by
        have scans := pieces_scans 0 text.toList
        obtain ⟨next, more, rfl⟩ := List.exists_cons_of_ne_nil isRun.some
        rw [isRun.split] at scans
        rw [isErrorPiece_cases (scans.last last)]
        exact isRun.starts piece last
      ends := fun piece first => by
        rw [isErrorPiece_cases (ends piece first)]
        exact isRun.ends piece first }
  obtain ⟨item, gathered, span, only⟩ := overlapping_of_run separate isErrorRun
  have same := gathered.of_invalid isRun.all
  rw [span] at same only
  rw [only, same]

/-- A string without its closing quote gives one item if no error is left over. -/
theorem overlapping_of_unterminated {text : String} {before after : List (Located Piece)}
    {piece : Located Piece} (separate : Separate (pieces 0 text.toList))
    (split : pieces 0 text.toList = before ++ piece :: after)
    (kind : piece.item.kind = .unterminated)
    (starts : ∀ other ∈ before.getLast?, isInvalidPiece other = false) :
    overlapping piece.span (lex text) = [.error ⟨.unterminatedString,
      ⟨byteLength (charsOf before), byteLength text.toList⟩⟩] := by
  have scans := pieces_scans 0 text.toList
  rw [split] at scans
  obtain rfl : after = [] := by
    obtain ⟨rest, -, later⟩ := scans.append
    exact later.unterminated kind
  have isErrorRun : IsRun isErrorPiece (pieces 0 text.toList) before [piece] [] := by
    refine ⟨split, List.cons_ne_nil _ _, ?_, fun other last => ?_, nofun⟩
    · simp [isErrorPiece, kind, Kind.isError]
    · rw [isErrorPiece_cases (scans.last last)]
      exact starts other last
  obtain ⟨item, gathered, span, only⟩ := overlapping_of_run separate isErrorRun
  have same := gathered.of_unterminated kind
  have whole := congrArg byteLength (pieces_text 0 text.toList)
  rw [split] at whole
  obtain ⟨behind, -, place, -⟩ := scans.split
  rw [Nat.zero_add, ← span] at place
  change byteLength (charsOf (before ++ [piece])) = _ at whole
  rw [charsOf_append, byteLength_append] at whole
  rw [place, only, same, span, spanFrom, whole]

/-- No text is cut into an error that is a token. -/
theorem pieces_valid (text : String) :
    ∀ piece ∈ pieces 0 text.toList, piece.item.kind ≠ .token .invalid := by
  intro piece among kind
  have scans := pieces_scans 0 text.toList
  obtain ⟨before, after, split⟩ := List.append_of_mem among
  rw [split] at scans
  obtain ⟨behind, -, -, first⟩ := scans.split
  cases (first.of_token kind).1

/-- Text that forms no token is reported if there are no two errors with nothing but white space and
comments between them, and in no other case. -/
theorem reported_iff (text : String) : Reported text ↔ Separate (pieces 0 text.toList) := by
  have groups := groups_of_scans (pieces_scans 0 text.toList)
  constructor
  · rintro ⟨valid, -⟩ first blanks second ⟨before, after, split⟩ wrong error between
    by_contra some
    have split : pieces 0 text.toList = before ++ first :: (blanks ++ second :: after) := by
      simp [← split]
    obtain ⟨lexeme, among, invalid⟩ := groups.invalid split wrong error some between
    exact valid lexeme among invalid
  · intro separate
    have valid := groups.valid separate (pieces_valid text)
    refine ⟨valid, ?_, ?_, ?_⟩
    · intro before run after isRun ends
      exact overlapping_of_invalid separate isRun ends
    · intro before piece after split kind starts
      exact overlapping_of_unterminated separate split kind starts
    · intro lexeme among
      obtain ⟨item, given, same⟩ := List.mem_filterMap.1 among
      cases item with
      | lexeme other =>
          cases same
          exact valid lexeme given
      | error error => cases same

/-- The second of two errors with a space between them is a lexeme and no error. -/
theorem not_reported_space : ¬ Reported "@ #" := by
  have first : firstPiece '@' [' ', '#'] = (⟨.invalid, ['@']⟩, [' ', '#']) := rfl
  have space : firstPiece ' ' ['#'] = (⟨.blank, [' ']⟩, ['#']) := rfl
  have second : firstPiece '#' [] = (⟨.invalid, ['#']⟩, []) := rfl
  have cut : pieces 0 ['@', ' ', '#'] =
      [⟨⟨.invalid, ['@']⟩, ⟨0, 1⟩⟩, ⟨⟨.blank, [' ']⟩, ⟨1, 2⟩⟩, ⟨⟨.invalid, ['#']⟩, ⟨2, 3⟩⟩] := by
    rw [pieces, first, pieces, space, pieces, second, pieces]
    rfl
  have given : lex "@ #" = [unexpected ['@'] ⟨0, 1⟩, .lexeme ⟨.invalid, "#", ⟨2, 3⟩⟩] := by
    rw [lex, show "@ #".toList = ['@', ' ', '#'] from rfl, cut]
    rfl
  intro reported
  exact reported.valid ⟨.invalid, "#", ⟨2, 3⟩⟩ (by simp [given]) rfl

end Lox.Token
