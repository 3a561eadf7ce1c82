import Mathlib.Data.List.TakeWhile
import Lox.Proofs.Decimal.Rounding
import Lox.Proofs.Lexing.Patterns

namespace Lox.Token

open Text (byteLength)

section
variable {c : Char} {cs other : List Char}

/-- A word that is spelled like a keyword is that keyword. -/
theorem ofWord_spelling {word : List Char} (isWord : IsWord word) :
    Spelling (ofWord word) word := by
  unfold ofWord Symbol.ofWord?
  simp only
  split
  next keyword found =>
    have same : keyword.text = String.ofList word := by simpa using List.find?_some found
    have spelled := Spelling.symbol keyword
    rwa [same, String.toList_ofList] at spelled
  next none =>
    refine .identifier isWord fun symbol same => ?_
    rcases symbol_text_cases symbol with ⟨keyword, -⟩ | ⟨d, rest, mark⟩
    · refine List.find?_eq_none.1 none symbol keyword (decide_eq_true ?_)
      rw [← same, String.ofList_toList]
    · rw [← same, mark.text] at isWord
      cases mark.noWord.symm.trans (isWord_iff.1 isWord).1

/-- No point is among digits. -/
theorem AllDigits.noPoint {digits : List Char} (all : AllDigits digits) :
    ∀ d ∈ digits, decide (d ≠ '.') = true := by
  intro d given
  refine decide_eq_true fun same => ?_
  have digit := all.digits d given
  rw [same] at digit
  exact absurd digit (by decide)

/-- A literal without a point has no fraction. -/
theorem ofLiteral_whole {digits : List Char} (all : AllDigits digits) :
    Number.ofLiteral digits = Number.ofDigits digits [] := by
  obtain ⟨taken, rest⟩ := cut_append all.noPoint (show ∀ c ∈ [].head?, _ from nofun)
  rw [List.append_nil] at taken rest
  rw [Number.ofLiteral, taken, rest]
  rfl

/-- A literal is split at its point. -/
theorem ofLiteral_fraction {whole : List Char} (all : AllDigits whole) (fraction : List Char) :
    Number.ofLiteral (whole ++ '.' :: fraction) = Number.ofDigits whole fraction := by
  obtain ⟨taken, rest⟩ := cut_append all.noPoint (forall_head? '.' fraction (by decide))
  rw [Number.ofLiteral, taken, rest]
  rfl

/-- The value of a number is that of its text. -/
theorem number_spelling {text : List Char} (number : IsNumber text) :
    Spelling (.number (Number.ofLiteral text)) text := by
  rcases number with all | ⟨whole, fraction, rfl, all, behind⟩
  · exact ofLiteral_whole all ▸ .whole all (Decimal.ofDigits_roundsTo text [])
  · exact ofLiteral_fraction all fraction ▸
      .fraction all behind (Decimal.ofDigits_roundsTo whole fraction)

/-- The digits at the start of a text are a number. -/
theorem splitNumber_isNumber (digit : c.isDigit = true) : IsNumber (splitNumber (c :: cs)).1 := by
  have digits (text : List Char) : ∀ d ∈ text.takeWhile Char.isDigit, d.isDigit = true :=
    fun d given => List.mem_takeWhile_imp given
  have whole : AllDigits ((c :: cs).takeWhile Char.isDigit) := ⟨by simp [digit], digits _⟩
  unfold splitNumber
  split
  next d rest point =>
    split
    next also => exact .inr ⟨_, _, rfl, whole, by simp [also], digits _⟩
    next => exact .inl whole
  next => exact .inl whole

/-- No longer start of a text is a number. -/
theorem splitNumber_longest {text : List Char} (number : IsNumber other) (starts : other <+: text) :
    other.length ≤ (splitNumber text).1.length := by
  rcases number with all | ⟨whole, fraction, rfl, all, behind⟩
  · have within := length_le_takeWhile starts all.digits
    unfold splitNumber
    split
    · split
      · simp only [List.length_append]
        omega
      · exact within
    · exact within
  · obtain ⟨rest, rfl⟩ := starts
    obtain ⟨d, further, rfl⟩ := List.exists_cons_of_ne_nil behind.some
    obtain ⟨first, second⟩ :=
      cut_append all.digits (forall_head? '.' (d :: further ++ rest) (by decide))
    have digit := behind.digits d List.mem_cons_self
    have within := length_le_takeWhile (List.prefix_append (d :: further) rest) behind.digits
    unfold splitNumber
    simp only [List.append_assoc, List.cons_append] at first second within ⊢
    rw [second]
    simp only [digit, if_true, first, List.length_append, List.length_cons] at within ⊢
    omega

/-- A symbol at the start of a text is found, or a longer one. -/
theorem mark?_longest {symbol : Symbol} (mark : IsMark symbol c cs) (rest : List Char) :
    ∃ found behind, mark? (c :: cs ++ rest) = some (found, behind) ∧
      (c :: cs).length ≤ found.text.toList.length := by
  rw [← mark.text]
  have some (symbol : Symbol) : 1 ≤ symbol.text.toList.length := by
    cases symbol <;> decide
  cases symbol
  case bang | equal | greater | less =>
    rcases rest with _ | ⟨d, rest⟩
    · exact ⟨_, _, rfl, some _⟩
    · by_cases double : d = '='
      · subst double
        exact ⟨_, _, rfl, some _⟩
      · simp [Symbol.text, mark?, double]
  case and | «else» | «false» | «for» | «fun» | «if» | nil | or | print | «return» | «true» | var
      | «while» =>
    exact absurd mark.noWord (by cases mark.text; decide)
  all_goals exact ⟨_, _, rfl, Nat.le_refl _⟩

/-- White space goes on as long as there is some. -/
theorem space_startsWith (space : isSpace c = true) :
    StartsWith (c :: cs) ⟨.blank, c :: cs.takeWhile isSpace⟩ := by
  have spaces : ∀ d ∈ cs.takeWhile isSpace, IsWhite d := fun d given =>
    isSpace_iff.1 (List.mem_takeWhile_imp given)
  refine .blank (.space (by simp) (List.forall_mem_cons.2 ⟨isSpace_iff.1 space, spaces⟩)) ?_
  exact .cons (List.takeWhile_prefix _) fun other given pattern =>
    length_le_takeWhile given (pattern.of_space space)

/-- A word goes on as long as there are letters, digits and underscores. -/
theorem word_startsWith (starts : isWordStart c = true) :
    StartsWith (c :: cs)
      ⟨.token (ofWord (c :: cs.takeWhile isWordPart)), c :: cs.takeWhile isWordPart⟩ := by
  have parts : ∀ d ∈ cs.takeWhile isWordPart, isWordPart d = true := fun d given =>
    List.mem_takeWhile_imp given
  refine .token (ofWord_spelling (isWord_iff.2 ⟨starts, parts⟩)) ?_
  exact .cons (List.takeWhile_prefix _) fun other given pattern =>
    length_le_takeWhile given (pattern.of_wordStart starts)

/-- A number has all digits at the start of a text. -/
theorem number_startsWith (digit : c.isDigit = true) :
    StartsWith (c :: cs) ⟨.token (.number (Number.ofLiteral (splitNumber (c :: cs)).1)),
      (splitNumber (c :: cs)).1⟩ := by
  refine .token (number_spelling (splitNumber_isNumber digit)) ⟨?_, ?_⟩
  · exact ⟨_, splitNumber_append (c :: cs)⟩
  · intro other given pattern
    obtain ⟨d, rest, rfl⟩ := List.exists_cons_of_ne_nil pattern.ne_nil
    obtain ⟨rfl, -⟩ := List.cons_prefix_cons.1 given
    exact splitNumber_longest (pattern.of_digit digit) given

/-- A comment goes on to the end of its line. -/
theorem comment_startsWith (rest : List Char) :
    StartsWith ('/' :: '/' :: rest) ⟨.blank, '/' :: '/' :: rest.takeWhile (· ≠ '\n')⟩ := by
  have line : '\n' ∉ rest.takeWhile (· ≠ '\n') := fun given => by
    simpa using List.mem_takeWhile_imp given
  refine .blank (.comment line) (.cons ?_ fun other given pattern => ?_)
  · exact List.cons_prefix_cons.2 ⟨rfl, List.takeWhile_prefix _⟩
  · rcases pattern.of_slash rfl with ⟨body, rfl, inside⟩ | rfl | rfl
    · obtain ⟨-, within⟩ := List.cons_prefix_cons.1 given
      refine Nat.succ_le_succ (length_le_takeWhile within fun d among => ?_)
      exact decide_eq_true fun same => inside (same ▸ among)
    · exact Nat.zero_le _
    · exact absurd (List.cons_prefix_cons.1 given).1 (by decide)

/-- A string goes on to the next quote. -/
theorem string_startsWith {content : List Char} (rest : List Char) (inside : '"' ∉ content) :
    StartsWith ('"' :: (content ++ '"' :: rest))
      ⟨.token (.string (String.ofList content)), '"' :: (content ++ ['"'])⟩ := by
  refine .token (.string inside) (.cons ⟨rest, by simp⟩ fun other given pattern => ?_)
  obtain ⟨inner, rfl, closed⟩ := pattern.of_quote rfl
  have passes {cs : List Char} (none : '"' ∉ cs) : ∀ d ∈ cs, decide (d ≠ '"') = true :=
    fun d among => decide_eq_true fun same => none (same ▸ among)
  have within := length_le_takeWhile ((List.prefix_append inner ['"']).trans given) (passes closed)
  rw [(cut_append (passes inside) (forall_head? '"' rest (by decide))).1] at within
  simpa using within

/-- A quote without another one has no pattern. -/
theorem unterminated_startsWith (open_ : '"' ∉ cs) :
    StartsWith ('"' :: cs) ⟨.unterminated, '"' :: cs⟩ := by
  refine .unterminated fun other given pattern => ?_
  obtain ⟨d, rest, rfl⟩ := List.exists_cons_of_ne_nil pattern.ne_nil
  obtain ⟨rfl, within⟩ := List.cons_prefix_cons.1 given
  obtain ⟨inner, rfl, -⟩ := pattern.of_quote rfl
  exact open_ (within.subset (List.mem_append_right inner (List.mem_singleton_self _)))

/-- Where nothing but a mark can start, there is the longest mark, or none. -/
theorem mark_startsWith
    (marks : ∀ other, c :: other <+: c :: cs → HasPattern (c :: other) →
      ∃ symbol, IsMark symbol c other) (noQuote : c ≠ '"') :
    StartsWith (c :: cs) (match mark? (c :: cs) with
      | some (mark, _) => ⟨.token (.symbol mark), mark.text.toList⟩
      | none => ⟨.invalid, [c]⟩) := by
  have longest {other : List Char} (given : other <+: c :: cs) (pattern : HasPattern other) :
      ∃ found behind, mark? (c :: cs) = some (found, behind) ∧
        other.length ≤ found.text.toList.length := by
    obtain ⟨d, rest, rfl⟩ := List.exists_cons_of_ne_nil pattern.ne_nil
    obtain ⟨rfl, -⟩ := List.cons_prefix_cons.1 given
    obtain ⟨symbol, mark⟩ := marks rest given pattern
    obtain ⟨after, split⟩ := given
    exact split ▸ mark?_longest mark after
  split
  next found behind same =>
    have starts : found.text.toList <+: c :: cs := ⟨behind, (append_of_mark? same).1⟩
    refine .token (.symbol found) ⟨starts, fun other given pattern => ?_⟩
    obtain ⟨best, further, also, longer⟩ := longest given pattern
    cases same.symm.trans also
    exact longer
  next none =>
    refine .invalid (fun other given pattern => ?_) noQuote
    obtain ⟨best, further, also, -⟩ := longest given pattern
    cases none.symm.trans also

/-- Only a mark starts with a character that starts no other piece. -/
theorem HasPattern.of_other {other : List Char} (pattern : HasPattern (c :: other))
    (given : c :: other <+: c :: cs) (visible : ¬ isSpace c = true)
    (noComment : ¬ (c = '/' && cs.head? = some '/') = true) (noWord : ¬ isWordStart c = true)
    (noDigit : ¬ c.isDigit = true) (noQuote : c ≠ '"') : ∃ symbol, IsMark symbol c other := by
  rcases pattern.cases with ⟨space, -⟩ | ⟨rfl, body, rfl, -⟩ | ⟨starts, -⟩ | number |
    ⟨quote, -⟩ | mark
  · exact absurd space visible
  · obtain ⟨behind, rfl⟩ := (List.cons_prefix_cons.1 given).2
    exact absurd rfl noComment
  · exact absurd starts noWord
  · exact absurd number.starts noDigit
  · exact absurd quote noQuote
  · exact mark

/-- The piece that is cut from a text is the one that the patterns demand. -/
theorem firstPiece_startsWith (c : Char) (cs : List Char) :
    StartsWith (c :: cs) (firstPiece c cs).1 := by
  unfold firstPiece
  split
  next space => exact space_startsWith space
  next visible =>
  split
  next comment =>
    obtain ⟨rfl, next⟩ : c = '/' ∧ cs.head? = some '/' := by simpa using comment
    obtain ⟨rest, rfl⟩ := List.head?_eq_some_iff.1 next
    exact comment_startsWith rest
  next noComment =>
  split
  next starts => exact word_startsWith starts
  next noWord =>
  split
  next digit => exact number_startsWith digit
  next noDigit =>
  split
  next quote =>
    subst quote
    have content : '"' ∉ cs.takeWhile (· ≠ '"') := fun given => by
      simpa using List.mem_takeWhile_imp given
    have parts := List.takeWhile_append_dropWhile (p := (· ≠ '"')) (l := cs)
    split
    next none =>
      rw [none, List.append_nil] at parts
      exact unterminated_startsWith (parts ▸ content)
    next d rest closing =>
      have stops := List.head?_dropWhile_not (fun d : Char => decide (d ≠ '"')) cs
      rw [closing] at stops
      obtain rfl : d = '"' := by simpa using stops
      have whole := string_startsWith rest content
      rwa [← closing, parts] at whole
  next noQuote =>
    have marked : StartsWith (c :: cs) _ :=
      mark_startsWith (fun other given pattern =>
        pattern.of_other given visible noComment noWord noDigit noQuote) noQuote
    split <;> simpa [*] using marked

/-- A word is cut off where no character goes on with it. -/
theorem firstPiece_word (rest : List Char) (isWord : IsWord (c :: cs))
    (ends : ∀ d ∈ rest.head?, isWordPart d = false) :
    firstPiece c (cs ++ rest) = (⟨.token (ofWord (c :: cs)), c :: cs⟩, rest) := by
  obtain ⟨starts, parts⟩ := isWord_iff.1 isWord
  have space : isSpace c = false := Bool.eq_false_iff.2 fun space =>
    Bool.noConfusion ((visible_of_isSpace space).1.symm.trans starts)
  have slash : c ≠ '/' := by
    rintro rfl
    exact absurd starts (by decide)
  obtain ⟨taken, behind⟩ := cut_append parts ends
  simp only [firstPiece, space, slash, starts, taken, behind, Bool.false_eq_true, if_false, if_true,
    decide_false, Bool.false_and]

/-- The text of a token is cut as this token. -/
theorem firstPiece_of_spelling {token : Token} (spelled : Spelling token (c :: cs)) :
    (firstPiece c cs).1.kind = .token token := by
  generalize given : c :: cs = text at spelled
  have number {text : List Char} (given : c :: cs = text) (isNumber : IsNumber text) :
      (firstPiece c cs).1.kind = .token (.number (Number.ofLiteral text)) := by
    subst given
    have digit := isNumber.starts
    have space : isSpace c = false := Bool.eq_false_iff.2 fun space =>
      Bool.noConfusion ((visible_of_isSpace space).2.1.symm.trans digit)
    have slash : c ≠ '/' := by
      rintro rfl
      exact absurd digit (by decide)
    have whole : (splitNumber (c :: cs)).1 = c :: cs := by
      have short := splitNumber_longest isNumber (List.prefix_refl _)
      exact List.IsPrefix.eq_of_length_le ⟨_, splitNumber_append (c :: cs)⟩ short
    simp only [firstPiece, space, slash, isWordStart_of_isDigit digit, digit, whole,
      Bool.false_eq_true, if_false, if_true, decide_false, Bool.false_and]
  cases spelled with
  | symbol symbol => cases symbol <;> cases given <;> rfl
  | @identifier word isWord other =>
      subst given
      have none : Symbol.ofWord? (String.ofList (c :: cs)) = none := by
        refine List.find?_eq_none.2 fun symbol _ same => other symbol ?_
        rw [of_decide_eq_true same, String.toList_ofList]
      have cut := firstPiece_word [] isWord fun d among => absurd among (Option.not_mem_none d)
      rw [List.append_nil] at cut
      simp only [cut, ofWord, none]
  | @string content closed =>
      cases given
      have passes : ∀ d ∈ content, decide (d ≠ '"') = true := fun d among =>
        decide_eq_true fun same => closed (same ▸ among)
      obtain ⟨taken, behind⟩ := cut_append passes (forall_head? '"' [] (by decide))
      have quote : isSpace '"' = false ∧ ('"' : Char) ≠ '/' ∧ isWordStart '"' = false ∧
          '"'.isDigit = false := by decide
      simp only [firstPiece, quote, taken, behind, Bool.false_eq_true, if_false, if_true,
        decide_false, Bool.false_and]
  | whole all rounds =>
      rw [number given (.inl all), ofLiteral_whole all,
        rounds.unique (Decimal.ofDigits_roundsTo text [])]
  | @fraction whole fraction value all behind rounds =>
      rw [number given (.inr ⟨_, _, rfl, all, behind⟩), ofLiteral_fraction all fraction,
        rounds.unique (Decimal.ofDigits_roundsTo whole fraction)]

/-- White space and comments are cut as such. -/
theorem firstPiece_of_skipped (skipped : Skipped (c :: cs)) :
    (firstPiece c cs).1.kind = .blank := by
  generalize given : c :: cs = text at skipped
  cases skipped with
  | space _ spaces =>
      subst given
      simp [firstPiece, isSpace_iff.2 (spaces c List.mem_cons_self)]
  | comment line =>
      cases given
      simp [firstPiece, show isSpace '/' = false by decide]

/-- A text is the text of one token at most. -/
theorem Spelling.unique {first second : Token} {text : List Char} (left : Spelling first text)
    (right : Spelling second text) : first = second := by
  obtain ⟨c, cs, rfl⟩ := List.exists_cons_of_ne_nil (HasPattern.ne_nil (.inl ⟨first, left⟩))
  exact Kind.token.inj ((firstPiece_of_spelling left).symm.trans (firstPiece_of_spelling right))

/-- No token is white space or a comment. -/
theorem Spelling.not_skipped {token : Token} {text : List Char} (spelled : Spelling token text) :
    ¬ Skipped text := by
  intro skipped
  obtain ⟨c, cs, rfl⟩ := List.exists_cons_of_ne_nil (HasPattern.ne_nil (.inr skipped))
  cases (firstPiece_of_spelling spelled).symm.trans (firstPiece_of_skipped skipped)

/-- Two longest starts of a text are the same if both of them have a pattern. -/
theorem Longest.unique {first second text : List Char} (left : Longest first text)
    (right : Longest second text) (has : HasPattern first) (also : HasPattern second) :
    first = second := by
  have short := left.most second right.starts also
  have long := right.most first left.starts has
  exact (List.prefix_of_prefix_length_le left.starts right.starts long).eq_of_length_le short

/-- A text starts with one piece only. -/
theorem StartsWith.unique {text : List Char} {first second : Piece} (left : StartsWith text first)
    (right : StartsWith text second) : first = second := by
  cases left with
  | @token token taken _ spelled longest =>
      have has : HasPattern taken := .inl ⟨token, spelled⟩
      cases right with
      | token also further =>
          obtain rfl := longest.unique further has (.inl ⟨_, also⟩)
          rw [spelled.unique also]
      | blank also further =>
          obtain rfl := longest.unique further has (.inr also)
          exact absurd also spelled.not_skipped
      | invalid unmatched _ => exact absurd has (unmatched _ longest.starts)
      | unterminated unmatched => exact absurd has (unmatched _ longest.starts)
  | @blank taken _ skipped longest =>
      have has : HasPattern taken := .inr skipped
      cases right with
      | token also further =>
          obtain rfl := longest.unique further has (.inl ⟨_, also⟩)
          exact absurd skipped also.not_skipped
      | blank also further => rw [longest.unique further has (.inr also)]
      | invalid unmatched _ => exact absurd has (unmatched _ longest.starts)
      | unterminated unmatched => exact absurd has (unmatched _ longest.starts)
  | invalid unmatched other =>
      cases right with
      | token also further => exact absurd (.inl ⟨_, also⟩) (unmatched _ further.starts)
      | blank also further => exact absurd (.inr also) (unmatched _ further.starts)
      | invalid => rfl
      | unterminated => exact absurd rfl other
  | unterminated unmatched =>
      cases right with
      | token also further => exact absurd (.inl ⟨_, also⟩) (unmatched _ further.starts)
      | blank also further => exact absurd (.inr also) (unmatched _ further.starts)
      | invalid _ other => exact absurd rfl other
      | unterminated => rfl

end

/-- A text is cut from an offset on: each piece is the one that the rest of the text starts with. -/
inductive Scans : Nat → List Char → List (Located Piece) → Prop
  | nil {start : Nat} : Scans start [] []
  | cons {start : Nat} {piece : Piece} {rest : List Char} {behind : List (Located Piece)}
      (first : StartsWith (piece.text ++ rest) piece)
      (further : Scans (start + byteLength piece.text) rest behind) :
      Scans start (piece.text ++ rest)
        (⟨piece, ⟨start, start + byteLength piece.text⟩⟩ :: behind)

/-- A piece takes up a character or more. -/
theorem StartsWith.ne_nil {text : List Char} {piece : Piece} (starts : StartsWith text piece) :
    piece.text ≠ [] := by
  cases starts with
  | token spelled _ => exact HasPattern.ne_nil (.inl ⟨_, spelled⟩)
  | blank skipped _ => exact HasPattern.ne_nil (.inr skipped)
  | invalid | unterminated => exact List.cons_ne_nil _ _

/-- The pieces of a text scan it from its start. -/
theorem pieces_scans (start : Nat) (cs : List Char) : Scans start cs (pieces start cs) := by
  fun_induction pieces start cs with
  | case1 => exact .nil
  | case2 start c cs stop ih =>
      have first := firstPiece_startsWith c cs
      have whole := firstPiece_append c cs
      have scans : Scans start ((firstPiece c cs).1.text ++ (firstPiece c cs).2) _ :=
        .cons (by rwa [whole]) ih
      rwa [whole] at scans

/-- There is one way to cut a text, and the pieces are cut this way. -/
theorem scans_iff {start : Nat} {cs : List Char} {given : List (Located Piece)} :
    Scans start cs given ↔ given = pieces start cs := by
  refine ⟨fun scans => ?_, fun same => same ▸ pieces_scans start cs⟩
  induction scans with
  | nil => rw [pieces]
  | @cons start piece rest behind first further ih =>
      have some := List.append_ne_nil_of_left_ne_nil first.ne_nil rest
      obtain ⟨c, cs, whole⟩ := List.exists_cons_of_ne_nil some
      have cut := firstPiece_append c cs
      obtain rfl := first.unique (whole ▸ firstPiece_startsWith c cs)
      obtain rfl := List.append_cancel_left (whole.trans cut.symm)
      rw [whole, pieces, ih]

end Lox.Token
