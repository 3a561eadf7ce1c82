import Lox.Proofs.Layout.Lexemes
import Lox.Proofs.Lexing.Grouping

namespace Lox.Token

open Text (byteLength byteLength_append Occupies)

/-- An item for text that forms no token. -/
def Item.IsError : Item → Prop
  | .lexeme given => given.token = .invalid
  | .error _ => True

/-- White space, and comments up to the ends of their lines, in front of a text. -/
inductive Gap : List Char → List Char → Prop
  | nil {behind : List Char} : Gap [] behind
  | space {c : Char} {cs behind : List Char} (space : IsWhite c) (further : Gap cs behind) :
      Gap (c :: cs) behind
  | comment {body cs behind : List Char} (line : '\n' ∉ body)
      (ends : ∀ c ∈ (cs ++ behind).head?, c = '\n') (further : Gap cs behind) :
      Gap ('/' :: '/' :: (body ++ cs)) behind

/-- A text from an offset on is items with nothing but gaps around them. -/
inductive Laid : Nat → List Char → List Item → Prop
  | nil {start : Nat} {gap : List Char} (blank : Gap gap []) : Laid start gap []
  | cons {start : Nat} {gap taken rest : List Char} {item : Item} {given : List Item}
      (blank : Gap gap (taken ++ rest)) (some : taken ≠ [])
      (span : item.span =
        ⟨start + byteLength gap, start + byteLength gap + byteLength taken⟩)
      (further : Laid item.span.stop rest given) :
      Laid start (gap ++ (taken ++ rest)) (item :: given)

/-- A lexeme has the longest text at its place that has a pattern, and the token of this text. -/
structure Munched (text : List Char) (lexeme : Lexeme) : Prop where
  longest : ∃ before after, text = before ++ (lexeme.text.toList ++ after) ∧
    lexeme.span = ⟨byteLength before, byteLength before + byteLength lexeme.text.toList⟩ ∧
    Longest lexeme.text.toList (lexeme.text.toList ++ after)
  spelled : Spelling lexeme.token lexeme.text.toList
  keyword : ∀ keyword ∈ Symbol.keywords,
    lexeme.token = .symbol keyword ↔ lexeme.text = keyword.text

def Within (inner outer : Span) : Prop := outer.start ≤ inner.start ∧ inner.stop ≤ outer.stop

/-- The items of a text that have a byte in a span. -/
def overlapping (span : Span) (given : List Item) : List Item :=
  given.filter fun item => item.span.start < span.stop ∧ span.start < item.span.stop

/-- The pieces of a text are those that its patterns demand, and the items are made of them. -/
structure Tokenizes (text : List Char) (cut : List (Located Piece)) (given : List Item) : Prop where
  scanned : ∀ other, Scans 0 text other ↔ other = cut
  proper : ∀ item ∈ given, item.span.start < item.span.stop
  ordered : given.Pairwise fun first second => first.span.stop ≤ second.span.start
  laid : Laid 0 text given
  kept : ∀ piece ∈ cut, ∀ token, piece.item.kind = .token token →
    .lexeme ⟨token, String.ofList piece.item.text, piece.span⟩ ∈ given
  munched : ∀ lexeme, .lexeme lexeme ∈ given → lexeme.token ≠ .invalid → Munched text lexeme
  held : ∀ piece ∈ cut, isErrorPiece piece = true →
    ∃ item, overlapping piece.span given = [item] ∧ item.IsError ∧ Within piece.span item.span
  whole : ∀ item ∈ given, item.IsError → ∃ before run after, cut = before ++ (run ++ after) ∧
    run ≠ [] ∧ (∀ piece ∈ run, isErrorPiece piece = true) ∧
    item.span = spanFrom (byteLength (charsOf before)) run

section
variable {start : Nat} {cs : List Char}

theorem Scans.span {piece : Located Piece} {rest : List (Located Piece)}
    (scans : Scans start cs (piece :: rest)) : piece.span = spanFrom start [piece] := by
  simp [scans.head.1, spanFrom]

/-- A piece is a start of the text behind the pieces before it. -/
theorem Scans.split {before after : List (Located Piece)} {piece : Located Piece}
    (scans : Scans start cs (before ++ piece :: after)) :
    ∃ behind, cs = charsOf before ++ (piece.item.text ++ behind) ∧
      piece.span = spanFrom (start + byteLength (charsOf before)) [piece] ∧
      StartsWith (piece.item.text ++ behind) piece.item := by
  obtain ⟨rest, rfl, further⟩ := scans.append
  obtain ⟨behind, rfl, -⟩ := further.tail
  exact ⟨behind, rfl, further.span, further.head.2⟩

/-- The pieces of a group are within the span of the group. -/
theorem Scans.within {group rest : List (Located Piece)} {piece : Located Piece}
    (scans : Scans start cs (group ++ rest)) (given : piece ∈ group) :
    Within piece.span (spanFrom start group) := by
  obtain ⟨before, after, rfl⟩ := List.append_of_mem given
  rw [List.append_assoc] at scans
  obtain ⟨behind, -, span, -⟩ := scans.split
  rw [span]
  simp only [Within, spanFrom, charsOf_append, charsOf_cons, byteLength_append,
    charsOf_nil, List.append_nil]
  omega

/-- Every piece has at least one byte. -/
theorem Scans.proper {given : List (Located Piece)} {piece : Located Piece}
    (scans : Scans start cs given) (among : piece ∈ given) :
    piece.span.start < piece.span.stop := by
  obtain ⟨before, after, rfl⟩ := List.append_of_mem among
  obtain ⟨behind, -, later⟩ := scans.append
  have parts : Scans _ _ ([piece] ++ after) := later
  have positive := parts.pos (List.cons_ne_nil _ _)
  rw [later.span]
  exact Nat.lt_add_of_pos_right positive

/-- An item is made of a token, of a group of errors or of an error that is left over. -/
inductive Made : List (Located Piece) → Item → Prop
  | token {token : Token} {text : List Char} {span : Span} :
      Made [⟨⟨.token token, text⟩, span⟩] (.lexeme ⟨token, String.ofList text, span⟩)
  | gathered {group : List (Located Piece)} {item : Item} (gathered : Gathers group item) :
      Made group item
  | leftover {piece : Located Piece} (error : isErrorPiece piece = true) :
      Made [piece] (leftover piece)

/-- The items are made of the pieces from the first one to the last one, white space and comments
apart. -/
inductive Parts : List (Located Piece) → List Item → Prop
  | nil : Parts [] []
  | blank {piece : Located Piece} {rest : List (Located Piece)} {given : List Item}
      (blank : isBlankPiece piece = true) (further : Parts rest given) : Parts (piece :: rest) given
  | made {group rest : List (Located Piece)} {item : Item} {given : List Item}
      (made : Made group item) (further : Parts rest given) : Parts (group ++ rest) (item :: given)

section
variable {group rest pieces : List (Located Piece)} {item : Item} {given : List Item}

/-- An item that is no token is made of errors, and a token of nothing else. -/
theorem Made.cases (made : Made group item) :
    (∃ piece token, group = [piece] ∧ piece.item.kind = .token token ∧
      item = .lexeme ⟨token, String.ofList piece.item.text, piece.span⟩) ∨
    (item.IsError ∧ ∀ piece ∈ group, isErrorPiece piece = true) := by
  cases made with
  | token => exact .inl ⟨_, _, rfl, rfl, rfl⟩
  | gathered gathered =>
      refine .inr ⟨?_, gathered.errors⟩
      cases gathered <;> trivial
  | leftover error => exact .inr ⟨rfl, List.forall_mem_singleton.2 error⟩

theorem Made.ne_nil (made : Made group item) : group ≠ [] := by
  cases made with
  | token | leftover => exact List.cons_ne_nil _ _
  | gathered gathered => exact gathered.ne_nil

/-- An item spans exactly the pieces that make it. -/
theorem Made.span (made : Made group item) (scans : Scans start cs (group ++ rest)) :
    item.span = spanFrom start group := by
  cases made with
  | token | leftover => exact scans.span
  | gathered gathered =>
      cases gathered with
      | run => exact congrArg (spanFrom · _) (congrArg Span.start scans.head.1)
      | unterminated => exact scans.span

theorem Parts.blanks {blanks : List (Located Piece)}
    (all : ∀ piece ∈ blanks, isBlankPiece piece = true) (further : Parts rest given) :
    Parts (blanks ++ rest) given := by
  induction blanks with
  | nil => exact further
  | cons piece blanks ih =>
      obtain ⟨blank, others⟩ := List.forall_mem_cons.1 all
      exact .blank blank (ih others)

/-- Pieces that are grouped into items are split into the parts of the items. -/
theorem Groups.parts (groups : Groups pieces given) : Parts pieces given := by
  induction groups with
  | nil => exact .nil
  | blank blank _ ih => exact .blank blank ih
  | token _ ih => exact Parts.made Made.token ih
  | error gathered _ _ ih => exact .made (.gathered gathered) ih
  | leftover gathered _ between error _ ih =>
      exact .made (.gathered gathered) (.blanks between (Parts.made (Made.leftover error) ih))

/-- Every piece is white space or a comment, or an item is made of it and its neighbours. -/
theorem Parts.of_piece (parts : Parts pieces given) {piece : Located Piece}
    (among : piece ∈ pieces) : isBlankPiece piece = true ∨
      ∃ before group after, pieces = before ++ (group ++ after) ∧ piece ∈ group ∧
        ∃ item ∈ given, Made group item := by
  induction parts with
  | nil => cases among
  | @blank first rest given blank further ih =>
      rcases List.mem_cons.1 among with rfl | among
      · exact .inl blank
      rcases ih among with blank | ⟨before, group, after, rfl, inside, same⟩
      · exact .inl blank
      · exact .inr ⟨first :: before, group, after, rfl, inside, same⟩
  | @made first rest item given made further ih =>
      rcases List.mem_append.1 among with among | among
      · exact .inr ⟨[], first, rest, rfl, among, item, List.mem_cons_self, made⟩
      rcases ih among with blank | ⟨before, group, after, rfl, inside, item, among, same⟩
      · exact .inl blank
      · exact .inr ⟨first ++ before, group, after, (List.append_assoc ..).symm, inside, item,
          List.mem_cons_of_mem _ among, same⟩

/-- Every item is made of some pieces that follow one another. -/
theorem Parts.of_item (parts : Parts pieces given) (among : item ∈ given) :
    ∃ before group after, pieces = before ++ (group ++ after) ∧ Made group item := by
  induction parts with
  | nil => cases among
  | @blank first rest given blank further ih =>
      obtain ⟨before, group, after, rfl, made⟩ := ih among
      exact ⟨first :: before, group, after, rfl, made⟩
  | @made first rest other given made further ih =>
      rcases List.mem_cons.1 among with rfl | among
      · exact ⟨[], first, rest, rfl, made⟩
      · obtain ⟨before, group, after, rfl, made⟩ := ih among
        exact ⟨first ++ before, group, after, (List.append_assoc ..).symm, made⟩

end

/-- A blank piece is the longest match and is skipped. -/
theorem StartsWith.of_blank {text : List Char} {piece : Piece} (first : StartsWith text piece)
    (blank : piece.kind = .blank) : Skipped piece.text ∧ Longest piece.text text := by
  cases first with
  | blank skipped longest => exact ⟨skipped, longest⟩
  | token | invalid | unterminated => cases blank

/-- A piece with a token is the longest match and spells the token. -/
theorem StartsWith.of_token {text : List Char} {piece : Piece} {token : Token}
    (first : StartsWith text piece) (kind : piece.kind = .token token) :
    Spelling token piece.text ∧ Longest piece.text text := by
  cases first with
  | token spelled longest =>
      cases kind
      exact ⟨spelled, longest⟩
  | blank | invalid | unterminated => cases kind

theorem Spelling.of_symbol {symbol : Symbol} {text : List Char}
    (spelled : Spelling (.symbol symbol) text) : text = symbol.text.toList := by
  cases spelled
  rfl

/-- A gap goes on with white space and with comments. -/
theorem Gap.skipped {taken gap behind : List Char} (further : Gap gap behind)
    (skipped : Skipped taken) (longest : Longest taken (taken ++ (gap ++ behind))) :
    Gap (taken ++ gap) behind := by
  cases skipped with
  | space some spaces =>
      clear longest some
      induction taken with
      | nil => exact further
      | cons c taken ih =>
          obtain ⟨space, spaces⟩ := List.forall_mem_cons.1 spaces
          exact .space space (ih spaces)
  | @comment body line =>
      refine .comment line (fun c first => ?_) further
      obtain ⟨rest, same⟩ := List.head?_eq_some_iff.1 first
      -- With a character that ends no line, the comment would go on.
      by_contra other
      have longer : '/' :: '/' :: (body ++ [c]) <+: '/' :: '/' :: body ++ (gap ++ behind) :=
        ⟨rest, by simp [same]⟩
      have comment : Skipped ('/' :: '/' :: (body ++ [c])) :=
        .comment (by simp [line, Ne.symm other])
      have bound := longest.most _ longer (.inr comment)
      simp only [List.length_cons, List.length_append, List.length_nil] at bound
      omega

/-- White space and comments in front of items are a part of the gap there. -/
theorem Laid.skipped {taken rest : List Char} {given : List Item}
    (further : Laid (start + byteLength taken) rest given) (skipped : Skipped taken)
    (longest : Longest taken (taken ++ rest)) : Laid start (taken ++ rest) given := by
  cases further with
  | @nil _ gap blank =>
      exact .nil (blank.skipped skipped (by rwa [List.append_nil]))
  | @cons _ gap text rest item given blank some span further =>
      rw [← List.append_assoc]
      refine .cons (blank.skipped skipped longest) some ?_ further
      rw [span, byteLength_append, Nat.add_assoc]

/-- There are only gaps between the items of pieces. -/
theorem Parts.laid {pieces : List (Located Piece)} {given : List Item}
    (parts : Parts pieces given) (scans : Scans start cs pieces) : Laid start cs given := by
  induction parts generalizing start cs with
  | nil =>
      cases scans
      exact .nil .nil
  | blank blank further ih =>
      obtain ⟨behind, rfl, later⟩ := scans.tail
      obtain ⟨skipped, longest⟩ := scans.head.2.of_blank (kind_of_isBlankPiece blank)
      exact (ih later).skipped skipped longest
  | made made further ih =>
      have positive := scans.pos made.ne_nil
      have span := made.span scans
      obtain ⟨behind, rfl, later⟩ := scans.append
      refine .cons .nil ?_ (by simp [span, spanFrom]) ?_
      · intro none
        simp [none] at positive
      · rw [span]
        exact ih later

end

/-- Only one of the items that follow one another overlaps a span that is within it. -/
theorem overlapping_of_within {span : Span} {item : Item} {given : List Item}
    (ordered : given.Pairwise fun first second => first.span.stop ≤ second.span.start)
    (among : item ∈ given) (proper : span.start < span.stop) (within : Within span item.span) :
    overlapping span given = [item] := by
  obtain ⟨starts, stops⟩ := within
  obtain ⟨before, after, rfl⟩ := List.append_of_mem among
  obtain ⟨-, later, earlier⟩ := List.pairwise_append.1 ordered
  have none {others : List Item} (apart : ∀ other ∈ others,
      ¬ (other.span.start < span.stop ∧ span.start < other.span.stop)) :
      overlapping span others = [] := by
    refine List.filter_eq_nil_iff.2 fun other given overlaps => apart other given ?_
    simpa using overlaps
  have first : overlapping span before = [] := none fun other given => by
    have := earlier other given item List.mem_cons_self
    omega
  have last : overlapping span after = [] := none fun other given => by
    have := (List.pairwise_cons.1 later).1 other given
    omega
  have here : item.span.start < span.stop ∧ span.start < item.span.stop := by omega
  rw [overlapping] at first last ⊢
  rw [List.filter_append, List.filter_cons_of_pos (by simpa using here), first, last]
  rfl

/-- The lexeme of a token is the longest at its place. -/
theorem munched_of_scans {cs : List Char} {before after : List (Located Piece)}
    {piece : Located Piece} {token : Token} (scans : Scans 0 cs (before ++ piece :: after))
    (kind : piece.item.kind = .token token) :
    Munched cs ⟨token, String.ofList piece.item.text, piece.span⟩ := by
  obtain ⟨behind, split, span, first⟩ := scans.split
  obtain ⟨spelled, longest⟩ := first.of_token kind
  refine ⟨⟨charsOf before, behind, ?_, ?_, ?_⟩, ?_, fun keyword _ => ⟨?_, ?_⟩⟩
  all_goals simp only [String.toList_ofList]
  · exact split
  · simpa [spanFrom] using span
  · exact longest
  · exact spelled
  · rintro rfl
    rw [spelled.of_symbol, String.ofList_toList]
  · intro same
    have text : piece.item.text = keyword.text.toList := by rw [← same, String.toList_ofList]
    exact spelled.unique (text ▸ .symbol keyword)

/-- The lexer cuts a text at its longest tokens and loses nothing. -/
theorem lex_tokenizes (text : String) :
    Tokenizes text.toList (pieces 0 text.toList) (lex text) := by
  have scans := pieces_scans 0 text.toList
  have parts := (groups_of_scans scans).parts
  have ordered := (lex_succeed text).ordered
  have proper : ∀ item ∈ lex text, item.span.start < item.span.stop := fun item given => by
    obtain ⟨-, chars, occupies⟩ := ordered.1 item given
    exact occupies.proper
  refine ⟨fun other => scans_iff, proper, ordered.2, parts.laid scans, ?_, ?_, ?_, ?_⟩
  · intro piece among token kind
    rcases parts.of_piece among with blank | ⟨before, group, after, -, inside, item, given, made⟩
    · cases kind.symm.trans (kind_of_isBlankPiece blank)
    rcases made.cases with ⟨other, also, rfl, same, rfl⟩ | ⟨-, errors⟩
    · obtain rfl := List.mem_singleton.1 inside
      cases kind.symm.trans same
      exact given
    · have wrong := errors piece inside
      rw [isErrorPiece, kind] at wrong
      cases wrong
  · intro lexeme given valid
    obtain ⟨before, group, after, split, made⟩ := parts.of_item given
    rcases made.cases with ⟨piece, token, rfl, kind, same⟩ | ⟨wrong, -⟩
    · cases same
      rw [split] at scans
      exact munched_of_scans scans kind
    · exact absurd wrong valid
  · intro piece among wrong
    rcases parts.of_piece among with
      blank | ⟨before, group, after, split, inside, item, given, made⟩
    · rw [isErrorPiece, kind_of_isBlankPiece blank] at wrong
      cases wrong
    have proper := scans.proper among
    rw [split] at scans
    obtain ⟨behind, -, later⟩ := scans.append
    have within := later.within inside
    rw [← made.span later] at within
    rcases made.cases with ⟨other, token, rfl, kind, -⟩ | ⟨error, -⟩
    · obtain rfl := List.mem_singleton.1 inside
      rw [isErrorPiece, kind] at wrong
      cases wrong
    · exact ⟨item, overlapping_of_within ordered.2 given proper within, error, within⟩
  · intro item given wrong
    obtain ⟨before, group, after, split, made⟩ := parts.of_item given
    rw [split] at scans
    obtain ⟨behind, -, later⟩ := scans.append
    rcases made.cases with ⟨piece, token, rfl, kind, rfl⟩ | ⟨-, errors⟩
    · obtain rfl : token = .invalid := wrong
      cases (later.head.2.of_token kind).1
    · exact ⟨before, group, after, split, made.ne_nil, errors, by simpa using made.span later⟩

end Lox.Token
