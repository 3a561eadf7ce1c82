import Mathlib.Data.List.Basic
import Lox.Proofs.Joining.Spelling
import Lox.Proofs.Lexing.Slices

namespace Lox

namespace Token

open Text

/-- White space, and comments with the line breaks that close them. -/
inductive Spaced : List Char → Prop
  | nil : Spaced []
  | space {c : Char} {cs : List Char} (space : IsWhite c) (further : Spaced cs) : Spaced (c :: cs)
  | comment {body cs : List Char} (line : '\n' ∉ body) (further : Spaced cs) :
      Spaced ('/' :: '/' :: (body ++ '\n' :: cs))

/-- A separator starts with white space, so that no token goes on with it. -/
structure Separator (cs : List Char) : Prop where
  starts : ∃ c ∈ cs.head?, IsWhite c
  spaced : Spaced cs

/-- A margin is what may stand before the first token and behind the last one. -/
def Margin (cs : List Char) : Prop := cs = [] ∨ Separator cs

section
variable {cs rest : List Char}

/-- A separator starts with white space. -/
theorem Separator.visible (separator : Separator cs) (rest : List Char) :
    ∀ d ∈ (cs ++ rest).head?, IsWhite d := by
  obtain ⟨⟨c, first, space⟩, -⟩ := separator
  obtain ⟨others, rfl⟩ := List.head?_eq_some_iff.1 first
  exact fun d given => Option.some.inj given ▸ space

theorem Margin.spaced (margin : Margin cs) : Spaced cs := by
  rcases margin with rfl | separator
  · exact .nil
  · exact separator.spaced

theorem Margin.visible (margin : Margin cs) : ∀ d ∈ cs.head?, IsWhite d := by
  rcases margin with rfl | separator
  · exact nofun
  · intro d given
    exact separator.visible [] d (by rwa [List.append_nil])

/-- A text is cut at the piece that it starts with. -/
theorem pieces_startsWith {piece : Piece} (first : StartsWith (piece.text ++ rest) piece)
    (start : Nat) :
    pieces start (piece.text ++ rest) =
      ⟨piece, ⟨start, start + byteLength piece.text⟩⟩ ::
        pieces (start + byteLength piece.text) rest :=
  (scans_iff.1 (.cons first (pieces_scans _ rest))).symm

/-- A comment ends before its line break, which is left out with it. -/
theorem items_comment {body : List Char} (line : '\n' ∉ body) (start : Nat) :
    items (pieces start ('/' :: '/' :: (body ++ '\n' :: rest))) =
      items (pieces (start + byteLength ('/' :: '/' :: body)) ('\n' :: rest)) := by
  have inside : ∀ c ∈ body, decide (c ≠ '\n') = true := fun c given =>
    decide_eq_true fun same => line (same ▸ given)
  let piece : Piece := ⟨.blank, '/' :: '/' :: body⟩
  have first : StartsWith (piece.text ++ '\n' :: rest) _ :=
    comment_startsWith (body ++ '\n' :: rest)
  rw [(cut_append inside (forall_head? '\n' rest (by decide))).1] at first
  exact (congrArg items (pieces_startsWith first start)).trans (items_of_blank _ rfl)

/-- White space and comments make no items. -/
theorem items_spaced (spaced : Spaced cs) (start : Nat) :
    items (pieces start (cs ++ rest)) = items (pieces (start + byteLength cs) rest) := by
  induction spaced generalizing start with
  | nil => rfl
  | space space _ ih =>
      rw [List.cons_append, items_space (isSpace_iff.2 space), ih, byteLength_cons, Nat.add_assoc]
  | @comment body cs line _ ih =>
      have split : '/' :: '/' :: (body ++ '\n' :: cs) ++ rest =
          '/' :: '/' :: (body ++ '\n' :: (cs ++ rest)) := by simp
      rw [split, items_comment line, items_space (by decide), ih]
      congr 2
      simp only [byteLength_cons, byteLength_append]
      omega

/-- A margin gives no items. -/
theorem Margin.items (margin : Margin cs) (start : Nat) : items (pieces start cs) = [] := by
  rw [← List.append_nil cs, items_spaced margin.spaced]
  simp [pieces, Token.items]

/-- No token goes on with white space. -/
theorem Spelling.longest {token : Token} {taken : List Char} (spelled : Spelling token taken)
    (ends : ∀ d ∈ rest.head?, IsWhite d) : Longest taken (taken ++ rest) := by
  refine .of_ends fun d more split others longer => ?_
  have has : HasPattern taken := .inl ⟨token, spelled⟩
  have space := isSpace_cases (isSpace_iff.2 (ends d (by simp [split])))
  rcases has.goesOn longer with ⟨spaces, -⟩ | ⟨body, rfl, line, -⟩ | ⟨-, part⟩ |
    ⟨-, digit | rfl⟩ | ⟨-, rfl⟩ | ⟨rfl, -⟩
  · exact spelled.not_skipped (.space has.ne_nil spaces)
  · exact spelled.not_skipped (.comment line)
  · rcases space with rfl | rfl | rfl | rfl | rfl <;>
      exact absurd (isWordPart_iff.2 part) (by decide)
  · rcases space with rfl | rfl | rfl | rfl | rfl <;> exact absurd digit (by decide)
  all_goals exact absurd space (by decide)

/-- In front of white space every token is cut as it is. -/
theorem items_spelled {token : Token} {taken : List Char} (spelled : Spelling token taken)
    (ends : ∀ d ∈ rest.head?, IsWhite d) (start : Nat) :
    items (pieces start (taken ++ rest)) =
      .lexeme ⟨token, String.ofList taken, ⟨start, start + byteLength taken⟩⟩ ::
        items (pieces (start + byteLength taken) rest) := by
  let piece : Piece := ⟨.token token, taken⟩
  have first : StartsWith (piece.text ++ rest) piece := .token spelled (spelled.longest ends)
  exact (congrArg items (pieces_startsWith first start)).trans (items_of_token _ rfl)

end

/-- Slices one after another, with a separator behind each of them but the last one. -/
def spread (back : List Char) : List (List Char) → List (List Char) → List Char
  | slice :: slices, separator :: separators =>
      slice ++ (separator ++ spread back slices separators)
  | slices, _ => slices.flatten ++ back

/-- The texts of tokens that are spread out are lexed one by one. -/
theorem items_spread {back : List Char} (behind : Margin back) :
    ∀ {lexemes : List Lexeme} {separators : List (List Char)} (start : Nat),
      (∀ lexeme ∈ lexemes, Spelling lexeme.token lexeme.text.toList) →
      (∀ separator ∈ separators, Separator separator) →
      separators.length = lexemes.length - 1 →
      ∃ again : List Lexeme,
        items (pieces start (spread back (lexemes.map fun lexeme => lexeme.text.toList) separators)) =
            again.map .lexeme ∧
          again.map Lexeme.text = lexemes.map Lexeme.text
  | [], [], start, _, _, _ => ⟨[], behind.items start, rfl⟩
  | [lexeme], [], start, spelled, _, _ => by
      have first := items_spelled (spelled lexeme (List.mem_singleton_self _)) behind.visible start
      rw [behind.items, String.ofList_toList] at first
      refine ⟨[⟨lexeme.token, lexeme.text, ⟨start, start + byteLength lexeme.text.toList⟩⟩], ?_, rfl⟩
      simpa [spread] using first
  | lexeme :: next :: lexemes, separator :: separators, start, spelled, between, enough => by
      obtain ⟨here, spelled⟩ := List.forall_mem_cons.1 spelled
      obtain ⟨separates, between⟩ := List.forall_mem_cons.1 between
      obtain ⟨again, lexed, texts⟩ := items_spread behind
        (start + byteLength lexeme.text.toList + byteLength separator) spelled between
        (Nat.succ.inj enough)
      let first : Span := ⟨start, start + byteLength lexeme.text.toList⟩
      refine ⟨⟨lexeme.token, lexeme.text, first⟩ :: again, ?_, congrArg (List.cons _) texts⟩
      rw [List.map_cons, spread, items_spelled here (separates.visible _),
        items_spaced separates.spaced, lexed, String.ofList_toList]
      rfl

end Token

namespace Parser

open Text Token

/-- The slices of a text at the spans of its lexemes. -/
def slicesOf (text : String) : List (List Char) :=
  (lexemesOf text).filterMap fun lexeme => slice? text.toList lexeme.span

/-- The slices of a text are the texts of its lexemes. -/
theorem slicesOf_eq (text : String) :
    slicesOf text = (lexemesOf text).map fun lexeme => lexeme.text.toList := by
  rw [slicesOf, ← List.filterMap_eq_map]
  exact List.filterMap_congr fun lexeme among => lexemesOf_slice among

/-- Slices that are spread out between margins. -/
def respaced (front back : List Char) (slices separators : List (List Char)) : String :=
  String.ofList (front ++ spread back slices separators)

/-- A text is lexed without errors to the lexemes of another text, at other places. -/
structure LexedLike (first again : String) : Prop where
  clean : lexErrorsOf again = []
  tokens : (lexemesOf again).map Lexeme.token = (lexemesOf first).map Lexeme.token
  texts : (lexemesOf again).map Lexeme.text = (lexemesOf first).map Lexeme.text
  sliced : (lexemesOf again).map (fun lexeme => slice? again.toList lexeme.span) =
    (slicesOf first).map some

/-- The slices of a text without errors, with any separators between them and any margins around
them, are lexed to the same lexemes, and spreading them out again in the same way gives the same
text. -/
theorem lex_undoesSpacing {text : String} (clean : lexErrorsOf text = [])
    {front back : List Char} {separators : List (List Char)} (before : Margin front)
    (behind : Margin back) (between : ∀ separator ∈ separators, Separator separator)
    (enough : separators.length = (lexemesOf text).length - 1) :
    let again := respaced front back (slicesOf text) separators
    LexedLike text again ∧ respaced front back (slicesOf again) separators = again := by
  intro again
  obtain ⟨lexemes, lexed, texts⟩ := items_spread behind (0 + byteLength front)
    (fun _ => lexeme_spelled clean) between enough
  rw [← slicesOf_eq, ← items_spaced before.spaced] at lexed
  have given : lex again = lexemes.map .lexeme := by
    rw [lex, show again.toList = _ from String.toList_ofList, lexed]
  have fine : lexErrorsOf again = [] := by
    rw [lexErrorsOf, given, List.filterMap_map]
    exact List.filterMap_eq_nil_iff.2 fun _ _ => rfl
  have same : lexemesOf again = lexemes := by
    rw [lexemesOf, given, List.filterMap_map]
    exact List.filterMap_some
  rw [← same] at texts
  have slices : slicesOf again = slicesOf text := by
    have chars := congrArg (List.map String.toList) texts
    rw [List.map_map, List.map_map] at chars
    rw [slicesOf_eq, slicesOf_eq]
    exact chars
  refine ⟨⟨fine, ?_, texts, ?_⟩, by rw [slices]⟩
  · exact tokens_of_texts (fun _ => lexeme_spelled fine) (fun _ => lexeme_spelled clean) texts
  · rw [← slices, slicesOf_eq, List.map_map]
    exact List.map_congr_left fun lexeme among => lexemesOf_slice among

/-- Without its spaces this text would be lexed in another way: an operator would go on, and a
comment would start inside of it. -/
theorem lex_undoesSpacing_operators :
    let text := "a = =/\"//\n\";"
    let separators := [[' '], ['\n'], ['\t', '/', '/', '=', '\n', ' '], ['\r', '\n'], [' ']]
    let again := respaced ['\n', '/', '/', '\n'] [' '] (slicesOf text) separators
    LexedLike text again ∧ respaced ['\n', '/', '/', '\n'] [' '] (slicesOf again) separators =
      again := by
  have separator {c : Char} {cs : List Char} (space : IsWhite c) (spaced : Spaced cs) :
      Separator (c :: cs) := ⟨⟨c, rfl, space⟩, .space space spaced⟩
  have comment (body : List Char) {cs : List Char} (line : '\n' ∉ body) (spaced : Spaced cs) :
      Spaced ('/' :: '/' :: (body ++ '\n' :: cs)) := .comment line spaced
  refine lex_undoesSpacing (by decide +kernel) (.inr ?_) (.inr ?_) ?_ (by decide +kernel)
  · exact separator (by decide) (comment [] (by decide) .nil)
  · exact separator (by decide) .nil
  · simp only [List.forall_mem_cons]
    refine ⟨separator (by decide) .nil, separator (by decide) .nil, ?_, ?_, ?_, List.forall_mem_nil _⟩
    · refine separator (by decide) (comment ['='] (by decide) ?_)
      exact .space (by decide) .nil
    · exact separator (by decide) (.space (by decide) .nil)
    · exact separator (by decide) .nil

end Parser

end Lox
