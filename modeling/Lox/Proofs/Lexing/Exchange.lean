import Lox.Proofs.Label.Spacing

namespace Lox.Token

open Text (byteLength)

section
variable {taken more rest : List Char} {c d e : Char}

/-- A number consists of digits and at most one point. -/
theorem IsNumber.digitOrPoint (number : IsNumber taken) (given : d ∈ taken) :
    d.isDigit = true ∨ d = '.' := by
  rcases number with all | ⟨whole, fraction, rfl, all, behind⟩
  · exact .inl (all.digits d given)
  · rcases List.mem_append.1 given with early | late
    · exact .inl (all.digits d early)
    · rcases List.mem_cons.1 late with point | late
      · exact .inr point
      · exact .inl (behind.digits d late)

/-- A digit behind a number makes a longer number. -/
theorem IsNumber.append (number : IsNumber taken) (digit : d.isDigit = true) :
    IsNumber (taken ++ [d]) := by
  have digits {given : List Char} (all : AllDigits given) : AllDigits (given ++ [d]) :=
    ⟨by simp, fun e among => by
      rcases List.mem_append.1 among with early | late
      · exact all.digits e early
      · exact List.mem_singleton.1 late ▸ digit⟩
  rcases number with all | ⟨whole, fraction, rfl, all, behind⟩
  · exact .inl (digits all)
  · exact .inr ⟨whole, fraction ++ [d], by simp, all, digits behind⟩

theorem IsWord.hasPattern {word : List Char} (isWord : IsWord word) : HasPattern word :=
  .inl ⟨_, ofWord_spelling isWord⟩

/-- A word goes on with every character that may continue it. -/
theorem IsWord.append {word : List Char} (isWord : IsWord word) (part : ContinuesWord d) :
    IsWord (word ++ [d]) := by
  cases isWord with
  | intro starts parts =>
      refine .intro starts fun e among => ?_
      rcases List.mem_append.1 among with early | late
      · exact parts e early
      · exact List.mem_singleton.1 late ▸ part

/-- A character goes on with a word if what comes of it has a pattern. -/
theorem IsWord.goesOn {word : List Char} (isWord : IsWord word)
    (pattern : HasPattern (word ++ d :: more)) : ContinuesWord d := by
  cases isWord with
  | intro starts _ =>
      exact isWordPart_iff.1 (pattern.of_wordStart (isWordStart_iff.2 starts) d (by simp))

/-- The ways in which a character goes on with a pattern. -/
theorem HasPattern.goesOn (has : HasPattern taken) (longer : HasPattern (taken ++ d :: more)) :
    ((∀ e ∈ taken, IsWhite e) ∧ IsWhite d) ∨
    (∃ body, taken = '/' :: '/' :: body ∧ '\n' ∉ body ∧ d ≠ '\n') ∨
    (IsWord taken ∧ ContinuesWord d) ∨
    (IsNumber taken ∧ (d.isDigit = true ∨ d = '.')) ∨
    (taken = ['/'] ∧ d = '/') ∨
    (d = '=' ∧ more = []) := by
  obtain ⟨c, cs, rfl⟩ := List.exists_cons_of_ne_nil has.ne_nil
  rcases has.cases with ⟨space, spaces⟩ | ⟨rfl, body, rfl, line⟩ | ⟨starts, parts⟩ | number |
    ⟨rfl, content, rfl, closed⟩ | ⟨symbol, mark⟩
  · simp only [← isSpace_iff]
    exact .inl ⟨List.forall_mem_cons.2 ⟨space, spaces⟩, longer.of_space space d (by simp)⟩
  · rcases longer.of_slash rfl with ⟨body', same, line'⟩ | none | short
    · obtain rfl := (List.cons.inj same).2
      refine .inr (.inl ⟨body, rfl, line, ?_⟩)
      rintro rfl
      exact line' (by simp)
    · cases none
    · cases short
  · have isWord : IsWord (c :: cs) := isWord_iff.2 ⟨starts, parts⟩
    exact .inr (.inr (.inl ⟨isWord, isWord.goesOn longer⟩))
  · have whole := longer.of_digit number.starts
    exact .inr (.inr (.inr (.inl ⟨number, whole.digitOrPoint (by simp)⟩)))
  · -- A closed string does not go on.
    obtain ⟨content', same, closed'⟩ := longer.of_quote rfl
    have starts : content ++ ['"'] <+: content' ++ ['"'] := ⟨_, same⟩
    rcases List.prefix_concat_iff.1 starts with whole | starts
    · rw [← whole] at same
      simp at same
    · exact absurd (starts.subset (by simp)) closed'
  · rcases longer.cases with ⟨space, -⟩ | ⟨rfl, body, same, -⟩ | ⟨starts, -⟩ | number |
      ⟨quote, -⟩ | ⟨other, longerMark⟩
    · cases mark.visible.symm.trans space
    · rcases mark.long with rfl | rfl
      · exact .inr (.inr (.inr (.inr (.inl ⟨rfl, (List.cons.inj same).1⟩))))
      · cases same
    · cases mark.noWord.symm.trans starts
    · cases mark.noDigit.symm.trans number.starts
    · exact absurd quote mark.noQuote
    · rcases longerMark.long with none | single
      · simp at none
      · obtain ⟨rfl, same⟩ : cs = [] ∧ d :: more = ['='] := by
          cases cs with
          | nil => exact ⟨rfl, single⟩
          | cons first others => simp at single
        cases same
        exact .inr (.inr (.inr (.inr (.inr ⟨rfl, rfl⟩))))

/-- A pattern goes on a character at a time, apart from the point of a number. -/
theorem HasPattern.next (has : HasPattern taken) (longer : HasPattern (taken ++ d :: more))
    (noPoint : d ≠ '.') : HasPattern (taken ++ [d]) := by
  rcases has.goesOn longer with ⟨spaces, space⟩ | ⟨body, rfl, line, inside⟩ | ⟨isWord, part⟩ |
    ⟨number, digit | point⟩ | ⟨rfl, rfl⟩ | ⟨rfl, rfl⟩
  · refine .inr (.space (by simp) fun e given => ?_)
    rcases List.mem_append.1 given with early | late
    · exact spaces e early
    · exact List.mem_singleton.1 late ▸ space
  · have line' : '\n' ∉ body ++ [d] := by simp [line, Ne.symm inside]
    exact .inr (.comment line')
  · exact (isWord.append part).hasPattern
  · exact .inl ⟨_, number_spelling (number.append digit)⟩
  · exact absurd point noPoint
  · exact .inr (.comment (List.not_mem_nil))
  · exact longer

/-- The start of one word goes on with a pattern like the start of another one. -/
theorem HasPattern.exchange (has : HasPattern taken) (starts : StartsWord d) (also : StartsWord e)
    (longer : HasPattern (taken ++ [e])) : HasPattern (taken ++ [d]) := by
  rcases has.goesOn longer with ⟨-, space⟩ | ⟨body, rfl, line, -⟩ | ⟨isWord, -⟩ |
    ⟨-, digit | rfl⟩ | ⟨-, rfl⟩ | ⟨rfl, -⟩
  · cases (visible_of_isSpace (isSpace_iff.2 space)).1.symm.trans (isWordStart_iff.2 also)
  · have inside : d ≠ '\n' := by
      rintro rfl
      exact absurd (isWordStart_iff.2 starts) (by decide)
    have line' : '\n' ∉ body ++ [d] := by simp [line, Ne.symm inside]
    exact .inr (.comment line')
  · exact (isWord.append (.inl starts)).hasPattern
  · cases (isWordStart_of_isDigit digit).symm.trans (isWordStart_iff.2 also)
  all_goals exact absurd (isWordStart_iff.2 also) (by decide)

/-- No pattern starts with a point. -/
theorem HasPattern.noPoint (has : HasPattern (c :: more)) : c ≠ '.' := by
  rintro rfl
  rcases has.cases with ⟨space, -⟩ | ⟨slash, -⟩ | ⟨starts, -⟩ | number | ⟨quote, -⟩ |
    ⟨symbol, mark⟩
  · exact absurd space (by decide)
  · exact absurd slash (by decide)
  · exact absurd starts (by decide)
  · exact absurd number.starts (by decide)
  · exact absurd quote (by decide)
  · have text := mark.text
    cases symbol <;> cases text

/-- What is longest ends before a character that does not go on with it. -/
theorem Longest.ends (longest : Longest taken (taken ++ d :: more)) :
    ¬ HasPattern (taken ++ [d]) := by
  intro longer
  have short := longest.most (taken ++ [d]) ⟨more, by simp⟩ longer
  rw [List.length_append, List.length_singleton] at short
  omega

/-- A text is the longest match if no pattern goes on with the next character. -/
theorem Longest.of_ends (ends : ∀ d more, rest = d :: more →
    ∀ others, ¬ HasPattern (taken ++ d :: others)) : Longest taken (taken ++ rest) := by
  refine ⟨List.prefix_append _ _, fun other starts pattern => ?_⟩
  rcases List.prefix_or_prefix_of_prefix starts (List.prefix_append taken rest) with short | long
  · exact short.length_le
  · obtain ⟨tail, rfl⟩ := long
    cases tail with
    | nil => simp
    | cons d others =>
        obtain ⟨more, split⟩ := (List.prefix_append_right_inj taken).1 starts
        exact absurd pattern (ends d (others ++ more) split.symm others)

/-- Texts that start in the same way, or both with a word, end the same patterns before them. -/
inductive Exchange : List Char → List Char → Prop
  | nil : Exchange [] []
  | same {d : Char} {rest instead : List Char} (noPoint : d ≠ '.') :
      Exchange (d :: rest) (d :: instead)
  | words {d e : Char} {rest instead : List Char} (starts : StartsWord d) (also : StartsWord e) :
      Exchange (d :: rest) (e :: instead)

/-- Texts that start with the same pattern start in the same way. -/
theorem Exchange.pattern (has : HasPattern taken) (rest instead : List Char) :
    Exchange (taken ++ rest) (taken ++ instead) := by
  obtain ⟨c, cs, rfl⟩ := List.exists_cons_of_ne_nil has.ne_nil
  exact .same has.noPoint

/-- A pattern is cut off where it was before, if what follows starts in the same way. -/
theorem Longest.exchange {instead : List Char} (longest : Longest taken (taken ++ rest))
    (has : HasPattern taken) (exchange : Exchange rest instead) :
    Longest taken (taken ++ instead) := by
  refine .of_ends fun e more split others longer => ?_
  cases exchange with
  | nil => cases split
  | same noPoint =>
      cases split
      exact longest.ends (has.next longer noPoint)
  | words starts also =>
      cases split
      have noPoint : e ≠ '.' := by
        rintro rfl
        exact absurd (isWordStart_iff.2 also) (by decide)
      exact longest.ends (has.exchange starts also (has.next longer noPoint))

/-- A word is cut off where another one was cut off. -/
theorem Longest.otherWord {word other : List Char} (longest : Longest word (word ++ rest))
    (isWord : IsWord word) (also : IsWord other) : Longest other (other ++ rest) := by
  refine .of_ends fun d more split others longer => ?_
  rw [split] at longest
  exact longest.ends (isWord.append (also.goesOn longer)).hasPattern

end

/-- A piece without an error is cut off as it was before, if what follows starts in the same way. -/
theorem StartsWith.exchange {piece : Piece} {rest instead : List Char}
    (first : StartsWith (piece.text ++ rest) piece) (clean : piece.kind.isError = false)
    (exchange : Exchange rest instead) :
    HasPattern piece.text ∧ StartsWith (piece.text ++ instead) piece := by
  generalize whole : piece.text ++ rest = text at first
  cases first with
  | token spelled longest =>
      subst whole
      exact ⟨.inl ⟨_, spelled⟩, .token spelled (longest.exchange (.inl ⟨_, spelled⟩) exchange)⟩
  | blank skipped longest =>
      subst whole
      exact ⟨.inr skipped, .blank skipped (longest.exchange (.inr skipped) exchange)⟩
  | invalid | unterminated => cases clean

/-- A name is spelled as a word. -/
theorem Spelling.isWord {name : String} {word : List Char}
    (spelled : Spelling (.identifier name) word) : IsWord word := by
  cases spelled with
  | identifier isWord _ => exact isWord

/-- An identifier has its text as its name. -/
theorem Spelling.word_eq {name : String} {word : List Char}
    (spelled : Spelling (.identifier name) word) : word = name.toList := by
  cases spelled with
  | identifier _ _ => exact String.toList_ofList.symm

/-- An identifier may get another name. -/
theorem StartsWith.otherWord {name other : String} {word instead rest : List Char}
    (first : StartsWith (word ++ rest) ⟨.token (.identifier name), word⟩)
    (spelled : Spelling (.identifier other) instead) :
    IsWord word ∧ StartsWith (instead ++ rest) ⟨.token (.identifier other), instead⟩ := by
  generalize whole : word ++ rest = text at first
  cases first with
  | token before longest =>
      subst whole
      exact ⟨before.isWord, .token spelled (longest.otherWord before.isWord spelled.isWord)⟩

/-- The lexeme that a piece makes alone. -/
def lexeme? (piece : Located Piece) : Option Lexeme :=
  match piece.item.kind with
  | .token token => some ⟨token, String.ofList piece.item.text, piece.span⟩
  | .blank | .invalid | .unterminated => none

/-- Pieces without errors make a lexeme each, or nothing. -/
theorem items_of_clean {given : List (Located Piece)}
    (clean : ∀ piece ∈ given, isErrorPiece piece = false) :
    items given = (given.filterMap lexeme?).map .lexeme := by
  induction given with
  | nil => rfl
  | cons piece rest ih =>
      obtain ⟨here, others⟩ := List.forall_mem_cons.1 clean
      obtain ⟨⟨kind, text⟩, span⟩ := piece
      cases kind with
      | blank => exact ih others
      | token token => exact congrArg (List.cons _) (ih others)
      | invalid | unterminated => cases here

/-- The text of a piece that makes a lexeme. -/
def tokenText? (piece : Piece) : Option String :=
  match piece.kind with
  | .token _ => some (String.ofList piece.text)
  | .blank | .invalid | .unterminated => none

/-- The lexeme of a piece has the text of the piece's token. -/
theorem lexeme?_text (piece : Located Piece) :
    (lexeme? piece).map Lexeme.text = tokenText? piece.item := by
  obtain ⟨⟨kind, text⟩, span⟩ := piece
  cases kind <;> rfl

theorem texts_of_pieces (given : List (Located Piece)) :
    (given.map Located.item).filterMap tokenText? =
      (given.filterMap lexeme?).map Lexeme.text := by
  rw [List.map_filterMap, List.filterMap_map]
  exact congrArg (List.filterMap · given) (funext lexeme?_text).symm

end Lox.Token

namespace Lox.Parser

open Token

/-- A text without errors has no pieces with errors. -/
theorem pieces_clean {text : String} (clean : lexErrorsOf text = []) :
    ∀ piece ∈ pieces 0 text.toList, isErrorPiece piece = false :=
  (groups_of_scans (pieces_scans 0 text.toList)).clean (List.filterMap_eq_nil_iff.1 clean)

section
variable {text : String} (clean : ∀ piece ∈ pieces 0 text.toList, isErrorPiece piece = false)
include clean

theorem lexemesOf_of_clean : lexemesOf text = (pieces 0 text.toList).filterMap lexeme? := by
  rw [lexemesOf, lex, items_of_clean clean, List.filterMap_map]
  exact List.filterMap_some

/-- A text whose pieces are all tokens or blanks has no lexical errors. -/
theorem lexErrorsOf_of_clean : lexErrorsOf text = [] := by
  rw [lexErrorsOf, lex, items_of_clean clean, List.filterMap_map]
  exact List.filterMap_eq_nil_iff.2 fun _ _ => rfl

end

/-- The texts of the lexemes are those of the pieces that are tokens. -/
theorem texts_of_items {text : String} {given : List Piece}
    (same : (pieces 0 text.toList).map Located.item = given)
    (clean : ∀ piece ∈ given, piece.kind.isError = false) :
    lexErrorsOf text = [] ∧ (lexemesOf text).map Lexeme.text = given.filterMap tokenText? := by
  have fine : ∀ piece ∈ pieces 0 text.toList, isErrorPiece piece = false := fun piece among =>
    clean piece.item (same ▸ List.mem_map_of_mem among)
  refine ⟨lexErrorsOf_of_clean fine, ?_⟩
  rw [lexemesOf_of_clean fine, ← same, texts_of_pieces]

end Lox.Parser
