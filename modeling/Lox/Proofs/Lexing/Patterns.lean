import Lox.Proofs.Decimal.Doubles
import Lox.Token.Piece

namespace Lox.Token

open Decimal (RoundsTo decimal)

/-- White space is a space, a line break, a tab or a form feed. -/
def IsWhite (c : Char) : Prop := c ∈ [' ', '\r', '\n', '\t', '\x0c']

instance (c : Char) : Decidable (IsWhite c) :=
  inferInstanceAs (Decidable (c ∈ [' ', '\r', '\n', '\t', '\x0c']))

/-- A letter or an underscore starts a word. -/
def StartsWord (c : Char) : Prop := ('A' ≤ c ∧ c ≤ 'Z') ∨ ('a' ≤ c ∧ c ≤ 'z') ∨ c = '_'

/-- Digits go on with a word, too. -/
def ContinuesWord (c : Char) : Prop := StartsWord c ∨ ('0' ≤ c ∧ c ≤ '9')

/-- A word is a letter or an underscore and what goes on with it. -/
inductive IsWord : List Char → Prop
  | intro {c : Char} {cs : List Char} (starts : StartsWord c)
      (parts : ∀ d ∈ cs, ContinuesWord d) : IsWord (c :: cs)

/-- One digit or more. -/
structure AllDigits (cs : List Char) : Prop where
  some : cs ≠ []
  digits : ∀ c ∈ cs, c.isDigit = true

/-- The texts of a token. A word that is a symbol is no identifier, and a number has the value of its
digits, rounded to a double. -/
inductive Spelling : Token → List Char → Prop
  | symbol (symbol : Symbol) : Spelling (.symbol symbol) symbol.text.toList
  | identifier {word : List Char} (isWord : IsWord word)
      (other : ∀ symbol : Symbol, symbol.text.toList ≠ word) :
      Spelling (.identifier (String.ofList word)) word
  | string {content : List Char} (closed : '"' ∉ content) :
      Spelling (.string (String.ofList content)) ('"' :: (content ++ ['"']))
  | whole {digits : List Char} {value : Float} (all : AllDigits digits)
      (rounds : RoundsTo (decimal digits []) value) : Spelling (.number value) digits
  | fraction {whole fraction : List Char} {value : Float} (all : AllDigits whole)
      (behind : AllDigits fraction) (rounds : RoundsTo (decimal whole fraction) value) :
      Spelling (.number value) (whole ++ '.' :: fraction)

/-- The texts between tokens: white space, and a comment without the end of its line. -/
inductive Skipped : List Char → Prop
  | space {cs : List Char} (some : cs ≠ []) (spaces : ∀ c ∈ cs, IsWhite c) : Skipped cs
  | comment {body : List Char} (line : '\n' ∉ body) : Skipped ('/' :: '/' :: body)

def HasPattern (cs : List Char) : Prop := (∃ token, Spelling token cs) ∨ Skipped cs

/-- No start of a text has a pattern and is longer than the given one. -/
structure Longest (taken text : List Char) : Prop where
  starts : taken <+: text
  most : ∀ other, other <+: text → HasPattern other → other.length ≤ taken.length

/-- No start of a text has a pattern. -/
def Unmatched (text : List Char) : Prop := ∀ other, other <+: text → ¬ HasPattern other

/-- The piece at the start of a text. Where nothing has a pattern it is one character, or the whole
text behind a quote. -/
inductive StartsWith : List Char → Piece → Prop
  | token {token : Token} {taken text : List Char} (spelled : Spelling token taken)
      (longest : Longest taken text) : StartsWith text ⟨.token token, taken⟩
  | blank {taken text : List Char} (skipped : Skipped taken) (longest : Longest taken text) :
      StartsWith text ⟨.blank, taken⟩
  | invalid {c : Char} {cs : List Char} (unmatched : Unmatched (c :: cs)) (other : c ≠ '"') :
      StartsWith (c :: cs) ⟨.invalid, [c]⟩
  | unterminated {cs : List Char} (unmatched : Unmatched ('"' :: cs)) :
      StartsWith ('"' :: cs) ⟨.unterminated, '"' :: cs⟩

section
variable {c : Char} {cs : List Char}

/-- The lexer leaves out white space. -/
theorem isSpace_iff : isSpace c = true ↔ IsWhite c := by
  simp [isSpace, IsWhite, or_assoc]

/-- The lexer starts a word where one starts. -/
theorem isWordStart_iff : isWordStart c = true ↔ StartsWord c := by
  have upper : c.isUpper = true ↔ 'A' ≤ c ∧ c ≤ 'Z' := decide_eq_true_iff
  have lower : c.isLower = true ↔ 'a' ≤ c ∧ c ≤ 'z' :=
    Bool.and_eq_true_iff.trans (and_congr decide_eq_true_iff decide_eq_true_iff)
  change ((c.isUpper || c.isLower) || decide (c = '_')) = true ↔ _
  rw [Bool.or_eq_true, Bool.or_eq_true, upper, lower, decide_eq_true_iff, StartsWord, or_assoc]

/-- The lexer goes on with a word as long as there is one. -/
theorem isWordPart_iff : isWordPart c = true ↔ ContinuesWord c := by
  have digit : c.isDigit = true ↔ '0' ≤ c ∧ c ≤ '9' :=
    Bool.and_eq_true_iff.trans (and_congr decide_eq_true_iff decide_eq_true_iff)
  change ((c.isAlpha || c.isDigit) || decide (c = '_')) = true ↔ _
  rw [ContinuesWord, ← isWordStart_iff, ← digit, Bool.or_right_comm, Bool.or_eq_true]
  rfl

/-- The lexer tells words from other texts. -/
theorem isWord_iff : IsWord (c :: cs) ↔ isWordStart c = true ∧ ∀ d ∈ cs, isWordPart d = true := by
  simp only [isWordStart_iff, isWordPart_iff]
  exact ⟨fun ⟨starts, parts⟩ => ⟨starts, parts⟩, fun ⟨starts, parts⟩ => ⟨starts, parts⟩⟩

/-- A digit starts no word. -/
theorem isWordStart_of_isDigit (digit : c.isDigit = true) : isWordStart c = false := by
  simp only [Char.isDigit, Bool.and_eq_true, decide_eq_true_eq, ge_iff_le,
    UInt32.le_iff_toNat_le] at digit
  have digits : '9'.val.toNat = 57 := rfl
  have letters : 'A'.val.toNat = 65 ∧ 'a'.val.toNat = 97 := ⟨rfl, rfl⟩
  have other : c ≠ '_' := by
    rintro rfl
    exact absurd digit (by decide)
  have upper : c.isUpper = false := by
    refine decide_eq_false fun within => ?_
    simp only [ge_iff_le, UInt32.le_iff_toNat_le] at within
    omega
  have lower : c.isLower = false := by
    refine Bool.and_eq_false_iff.2 (.inl (decide_eq_false fun within => ?_))
    simp only [ge_iff_le, UInt32.le_iff_toNat_le] at within
    omega
  change ((c.isUpper || c.isLower) || decide (c = '_')) = false
  rw [upper, lower, decide_eq_false other]
  rfl

/-- A space is one of five characters. -/
theorem isSpace_cases (space : isSpace c = true) :
    c = ' ' ∨ c = '\r' ∨ c = '\n' ∨ c = '\t' ∨ c = '\x0c' := by
  simpa [isSpace, or_assoc] using space

/-- White space starts nothing else. -/
theorem visible_of_isSpace (space : isSpace c = true) :
    isWordStart c = false ∧ c.isDigit = false ∧ c ≠ '"' ∧ c ≠ '/' := by
  rcases isSpace_cases space with rfl | rfl | rfl | rfl | rfl <;> decide

/-- The text of a mark, which starts nothing that has another pattern but a comment. -/
structure IsMark (symbol : Symbol) (c : Char) (cs : List Char) : Prop where
  text : symbol.text.toList = c :: cs
  long : cs = [] ∨ cs = ['=']
  visible : isSpace c = false
  noWord : isWordStart c = false
  noDigit : c.isDigit = false
  noQuote : c ≠ '"'

/-- A symbol is a keyword or a mark. -/
theorem symbol_text_cases (symbol : Symbol) :
    (symbol ∈ Symbol.keywords ∧ IsWord symbol.text.toList) ∨ ∃ c cs, IsMark symbol c cs := by
  cases symbol
  case and | «else» | «false» | «for» | «fun» | «if» | nil | or | print | «return» | «true» | var
      | «while» =>
    exact .inl ⟨by decide, isWord_iff.2 ⟨rfl, List.all_eq_true.1 rfl⟩⟩
  all_goals
    exact .inr ⟨_, _, rfl, by decide, by decide, by decide, by decide, by decide⟩

/-- The text of a number. -/
def IsNumber (cs : List Char) : Prop :=
  AllDigits cs ∨ ∃ whole fraction, cs = whole ++ '.' :: fraction ∧ AllDigits whole ∧
    AllDigits fraction

theorem IsNumber.starts (number : IsNumber (c :: cs)) : c.isDigit = true := by
  rcases number with all | ⟨whole, fraction, split, all, -⟩
  · exact all.digits c List.mem_cons_self
  · obtain ⟨d, rest, rfl⟩ := List.exists_cons_of_ne_nil all.some
    cases (List.cons.inj split).1
    exact all.digits c List.mem_cons_self

/-- Every pattern is that of white space, of a comment, of a word, of a number, of a string or of a
mark. -/
theorem HasPattern.cases (pattern : HasPattern (c :: cs)) :
    (isSpace c = true ∧ ∀ d ∈ cs, isSpace d = true) ∨
    (c = '/' ∧ ∃ body, cs = '/' :: body ∧ '\n' ∉ body) ∨
    (isWordStart c = true ∧ ∀ d ∈ cs, isWordPart d = true) ∨
    IsNumber (c :: cs) ∨
    (c = '"' ∧ ∃ content, cs = content ++ ['"'] ∧ '"' ∉ content) ∨
    ∃ symbol, IsMark symbol c cs := by
  generalize given : c :: cs = text at pattern
  obtain ⟨token, spelled⟩ | skipped := pattern
  · cases spelled with
    | symbol symbol =>
        rcases symbol_text_cases symbol with ⟨-, isWord⟩ | ⟨d, rest, mark⟩
        · exact .inr (.inr (.inl (isWord_iff.1 (given ▸ isWord))))
        · cases given.trans mark.text
          exact .inr (.inr (.inr (.inr (.inr ⟨symbol, mark⟩))))
    | identifier isWord _ => exact .inr (.inr (.inl (isWord_iff.1 (given ▸ isWord))))
    | string closed =>
        cases given
        exact .inr (.inr (.inr (.inr (.inl ⟨rfl, _, rfl, closed⟩))))
    | whole all _ => exact .inr (.inr (.inr (.inl (.inl (given ▸ all)))))
    | @fraction whole fraction _ all behind _ =>
        have number : IsNumber (whole ++ '.' :: fraction) := .inr ⟨_, _, rfl, all, behind⟩
        exact .inr (.inr (.inr (.inl (given ▸ number))))
  · cases skipped with
    | space _ spaces =>
        subst given
        simp only [← isSpace_iff] at spaces
        exact .inl (List.forall_mem_cons.1 spaces)
    | comment line =>
        cases given
        exact .inr (.inl ⟨rfl, _, rfl, line⟩)

section
variable (pattern : HasPattern (c :: cs))
include pattern

/-- A pattern that starts with a space is a run of spaces. -/
theorem HasPattern.of_space (space : isSpace c = true) : ∀ d ∈ cs, isSpace d = true := by
  obtain ⟨noWord, noDigit, noQuote, noSlash⟩ := visible_of_isSpace space
  rcases pattern.cases with ⟨-, spaces⟩ | ⟨slash, -⟩ | ⟨starts, -⟩ | number | ⟨quote, -⟩ |
    ⟨symbol, mark⟩
  · exact spaces
  · exact absurd slash noSlash
  · cases noWord.symm.trans starts
  · cases noDigit.symm.trans number.starts
  · exact absurd quote noQuote
  · cases mark.visible.symm.trans space

/-- A pattern that starts as a word goes on as one. -/
theorem HasPattern.of_wordStart (starts : isWordStart c = true) :
    ∀ d ∈ cs, isWordPart d = true := by
  rcases pattern.cases with ⟨space, -⟩ | ⟨rfl, -⟩ | ⟨-, parts⟩ | number | ⟨rfl, -⟩ |
    ⟨symbol, mark⟩
  · cases (visible_of_isSpace space).1.symm.trans starts
  · exact absurd starts (by decide)
  · exact parts
  · cases (isWordStart_of_isDigit number.starts).symm.trans starts
  · exact absurd starts (by decide)
  · cases mark.noWord.symm.trans starts

/-- A pattern that starts with a digit is a number. -/
theorem HasPattern.of_digit (digit : c.isDigit = true) : IsNumber (c :: cs) := by
  rcases pattern.cases with ⟨space, -⟩ | ⟨rfl, -⟩ | ⟨starts, -⟩ | number | ⟨rfl, -⟩ |
    ⟨symbol, mark⟩
  · cases (visible_of_isSpace space).2.1.symm.trans digit
  · exact absurd digit (by decide)
  · cases (isWordStart_of_isDigit digit).symm.trans starts
  · exact number
  · exact absurd digit (by decide)
  · cases mark.noDigit.symm.trans digit

/-- A pattern that starts with a slash is a comment or an operator. -/
theorem HasPattern.of_slash (slash : c = '/') :
    (∃ body, cs = '/' :: body ∧ '\n' ∉ body) ∨ cs = [] ∨ cs = ['='] := by
  subst slash
  rcases pattern.cases with ⟨space, -⟩ | ⟨-, comment⟩ | ⟨starts, -⟩ | number | ⟨quote, -⟩ |
    ⟨symbol, mark⟩
  · exact absurd space (by decide)
  · exact .inl comment
  · exact absurd starts (by decide)
  · exact absurd number.starts (by decide)
  · exact absurd quote (by decide)
  · exact .inr mark.long

/-- A pattern that starts with a quote is a string up to its next quote. -/
theorem HasPattern.of_quote (quote : c = '"') :
    ∃ content, cs = content ++ ['"'] ∧ '"' ∉ content := by
  subst quote
  rcases pattern.cases with ⟨space, -⟩ | ⟨slash, -⟩ | ⟨starts, -⟩ | number | ⟨-, closed⟩ |
    ⟨symbol, mark⟩
  · exact absurd space (by decide)
  · exact absurd slash (by decide)
  · exact absurd starts (by decide)
  · exact absurd number.starts (by decide)
  · exact closed
  · exact absurd rfl mark.noQuote

end

end

/-- Everything that has a pattern starts with a character. -/
theorem HasPattern.ne_nil {cs : List Char} (pattern : HasPattern cs) : cs ≠ [] := by
  rintro rfl
  generalize given : ([] : List Char) = text at pattern
  obtain ⟨token, spelled⟩ | skipped := pattern
  · cases spelled with
    | symbol symbol => cases symbol <;> cases given
    | identifier isWord _ => cases isWord; cases given
    | string => cases given
    | whole all _ => exact all.some given.symm
    | fraction => simp at given
  · cases skipped with
    | space some _ => exact some given.symm
    | comment => cases given

theorem forall_head? {q : Char → Bool} (c : Char) (cs : List Char) (fails : q c = false) :
    ∀ d ∈ (c :: cs).head?, q d = false := fun _ same => Option.some.inj same ▸ fails

/-- A text is cut where a test fails for the first time. -/
theorem cut_append {q : Char → Bool} {taken rest : List Char} (all : ∀ c ∈ taken, q c = true)
    (ends : ∀ c ∈ rest.head?, q c = false) :
    (taken ++ rest).takeWhile q = taken ∧ (taken ++ rest).dropWhile q = rest := by
  rw [List.takeWhile_append_of_pos all, List.dropWhile_append_of_pos all]
  cases rest with
  | nil => exact ⟨List.append_nil _, rfl⟩
  | cons c rest => simp [ends c rfl]

/-- A start of a text whose characters all pass a test goes no further than the test does. -/
theorem length_le_takeWhile {q : Char → Bool} {cs taken : List Char} (starts : taken <+: cs)
    (all : ∀ c ∈ taken, q c = true) : taken.length ≤ (cs.takeWhile q).length := by
  obtain ⟨rest, rfl⟩ := starts
  rw [List.takeWhile_append_of_pos all, List.length_append]
  exact Nat.le_add_right _ _

/-- What is longest behind a first character is longest. -/
theorem Longest.cons {c : Char} {taken cs : List Char} (starts : taken <+: cs)
    (most : ∀ other, other <+: cs → HasPattern (c :: other) → other.length ≤ taken.length) :
    Longest (c :: taken) (c :: cs) := by
  refine ⟨List.cons_prefix_cons.2 ⟨rfl, starts⟩, fun other given pattern => ?_⟩
  obtain ⟨d, rest, rfl⟩ := List.exists_cons_of_ne_nil pattern.ne_nil
  obtain ⟨rfl, within⟩ := List.cons_prefix_cons.1 given
  exact Nat.succ_le_succ (most rest within pattern)

end Lox.Token
