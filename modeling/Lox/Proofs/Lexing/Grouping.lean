import Lox.Proofs.Lexing.Scanning
import Lox.Token.Lexer

namespace Lox.Token

open Text (byteLength byteLength_eq_zero byteLength_append)

/-- A list is cut where a test fails for the first time. -/
theorem exists_split {α : Type} (q : α → Bool) (given : List α) :
    ∃ taken rest, given = taken ++ rest ∧ (∀ x ∈ taken, q x = true) ∧
      ∀ x ∈ rest.head?, q x = false := by
  refine ⟨given.takeWhile q, given.dropWhile q, List.takeWhile_append_dropWhile.symm,
    fun _ among => List.mem_takeWhile_imp among, fun x first => ?_⟩
  have stops := List.head?_dropWhile_not q given
  rw [first] at stops
  exact stops

/-- The characters of pieces that follow one another. -/
def charsOf (given : List (Located Piece)) : List Char := given.flatMap fun piece => piece.item.text

@[simp] theorem charsOf_nil : charsOf [] = [] := rfl

@[simp] theorem charsOf_cons (piece : Located Piece) (rest : List (Located Piece)) :
    charsOf (piece :: rest) = piece.item.text ++ charsOf rest := List.flatMap_cons

@[simp] theorem charsOf_append (first second : List (Located Piece)) :
    charsOf (first ++ second) = charsOf first ++ charsOf second := List.flatMap_append

/-- The span of a group of pieces that follow one another from an offset on. -/
def spanFrom (start : Nat) (group : List (Located Piece)) : Span :=
  ⟨start, start + byteLength (charsOf group)⟩

def isErrorPiece (piece : Located Piece) : Bool := piece.item.kind.isError

def isBlankPiece (piece : Located Piece) : Bool :=
  match piece.item.kind with
  | .blank => true
  | .token _ | .invalid | .unterminated => false

/-- The first piece that is neither white space nor a comment. -/
def visible? (given : List (Located Piece)) : Option (Located Piece) :=
  (given.dropWhile isBlankPiece).head?

/-- Blanks in front do not change the first visible piece. -/
theorem visible?_append {blanks : List (Located Piece)}
    (all : ∀ piece ∈ blanks, isBlankPiece piece = true) (rest : List (Located Piece)) :
    visible? (blanks ++ rest) = visible? rest := by
  rw [visible?, List.dropWhile_append_of_pos all, visible?]

theorem visible?_cons {piece : Located Piece} (visible : isBlankPiece piece = false)
    (rest : List (Located Piece)) : visible? (piece :: rest) = some piece := by
  rw [visible?, List.dropWhile_cons_of_neg (by simp [visible])]
  rfl

theorem kind_of_isBlankPiece {piece : Located Piece} (blank : isBlankPiece piece = true) :
    piece.item.kind = .blank := by
  obtain ⟨⟨kind, text⟩, span⟩ := piece
  cases kind <;> cases blank
  rfl

theorem not_error_of_blank {piece : Located Piece} (blank : isBlankPiece piece = true) :
    isErrorPiece piece = false := by
  rw [isErrorPiece, kind_of_isBlankPiece blank, Kind.isError]

theorem not_blank_of_error {piece : Located Piece} (error : isErrorPiece piece = true) :
    isBlankPiece piece = false := by
  obtain ⟨⟨kind, text⟩, span⟩ := piece
  cases kind with
  | blank | token => cases error
  | invalid | unterminated => rfl

/-- An item reports a group of errors: a run that starts with an invalid character, or a string
without its closing quote. -/
inductive Gathers : List (Located Piece) → Item → Prop
  | run {first : Located Piece} {more : List (Located Piece)} (starts : first.item.kind = .invalid)
      (errors : ∀ piece ∈ more, isErrorPiece piece = true) :
      Gathers (first :: more)
        (unexpected (charsOf (first :: more)) (spanFrom first.span.start (first :: more)))
  | unterminated {text : List Char} {span : Span} :
      Gathers [⟨⟨.unterminated, text⟩, span⟩] (.error ⟨.unterminatedString, span⟩)

section
variable {group : List (Located Piece)} {item : Item}

/-- Only pieces that are errors are gathered. -/
theorem Gathers.errors (gathered : Gathers group item) :
    ∀ piece ∈ group, isErrorPiece piece = true := by
  cases gathered with
  | run starts errors =>
      refine List.forall_mem_cons.2 ⟨?_, errors⟩
      rw [isErrorPiece, starts, Kind.isError]
  | unterminated => exact List.forall_mem_singleton.2 rfl

theorem Gathers.ne_nil (gathered : Gathers group item) : group ≠ [] := by
  cases gathered <;> exact List.cons_ne_nil _ _

end

/-- The lexeme for an error that is met behind a group of errors, apart from it. -/
def leftover (piece : Located Piece) : Item :=
  .lexeme ⟨.invalid, String.ofList piece.item.text, piece.span⟩

/-- The items of pieces. A group of errors goes as far as errors do. If there is nothing but white
space and comments between it and the next error, then this error is a lexeme. -/
inductive Groups : List (Located Piece) → List Item → Prop
  | nil : Groups [] []
  | blank {piece : Located Piece} {rest : List (Located Piece)} {given : List Item}
      (blank : isBlankPiece piece = true) (further : Groups rest given) :
      Groups (piece :: rest) given
  | token {token : Token} {text : List Char} {span : Span} {rest : List (Located Piece)}
      {given : List Item} (further : Groups rest given) :
      Groups (⟨⟨.token token, text⟩, span⟩ :: rest)
        (.lexeme ⟨token, String.ofList text, span⟩ :: given)
  | error {group rest : List (Located Piece)} {item : Item} {given : List Item}
      (gathered : Gathers group item) (ends : ∀ piece ∈ visible? rest, isErrorPiece piece = false)
      (further : Groups rest given) : Groups (group ++ rest) (item :: given)
  | leftover {group blanks rest : List (Located Piece)} {piece : Located Piece} {item : Item}
      {given : List Item} (gathered : Gathers group item) (some : blanks ≠ [])
      (between : ∀ piece ∈ blanks, isBlankPiece piece = true) (error : isErrorPiece piece = true)
      (further : Groups rest given) :
      Groups (group ++ (blanks ++ piece :: rest)) (item :: leftover piece :: given)

section
variable {start : Nat} {cs : List Char}

/-- The first piece is at the start of the scanned text. -/
theorem Scans.head {piece : Located Piece} {rest : List (Located Piece)}
    (scans : Scans start cs (piece :: rest)) :
    piece.span = ⟨start, start + byteLength piece.item.text⟩ ∧ StartsWith cs piece.item := by
  cases scans with
  | cons first further => exact ⟨rfl, first⟩

/-- Pieces of a text take up its characters one after another. -/
theorem Scans.append {before behind : List (Located Piece)}
    (scans : Scans start cs (before ++ behind)) :
    ∃ rest, cs = charsOf before ++ rest ∧
      Scans (start + byteLength (charsOf before)) rest behind := by
  induction before generalizing start cs with
  | nil => exact ⟨cs, rfl, scans⟩
  | cons piece before ih =>
      cases scans with
      | @cons _ piece rest _ first further =>
          obtain ⟨others, rfl, scans⟩ := ih further
          refine ⟨others, by simp, ?_⟩
          rwa [charsOf_cons, byteLength_append, ← Nat.add_assoc]

/-- The other pieces scan the text behind the first one. -/
theorem Scans.tail {piece : Located Piece} {rest : List (Located Piece)}
    (scans : Scans start cs (piece :: rest)) :
    ∃ behind, cs = piece.item.text ++ behind ∧
      Scans (start + byteLength piece.item.text) behind rest := by
  have parts : Scans start cs ([piece] ++ rest) := scans
  obtain ⟨behind, split, further⟩ := parts.append
  rw [charsOf_cons, charsOf_nil, List.append_nil] at split further
  exact ⟨behind, split, further⟩

/-- Pieces take up some characters. -/
theorem Scans.pos {given behind : List (Located Piece)} (scans : Scans start cs (given ++ behind))
    (some : given ≠ []) : 0 < byteLength (charsOf given) := by
  obtain ⟨piece, rest, rfl⟩ := List.exists_cons_of_ne_nil some
  have first : byteLength piece.item.text ≠ 0 := mt byteLength_eq_zero.1 scans.head.2.ne_nil
  rw [charsOf_cons, byteLength_append]
  omega

/-- A string without its closing quote is the last piece. -/
theorem Scans.unterminated {piece : Located Piece} {rest : List (Located Piece)}
    (scans : Scans start cs (piece :: rest)) (kind : piece.item.kind = .unterminated) :
    rest = [] := by
  obtain ⟨behind, split, further⟩ := scans.tail
  have first := scans.head.2
  obtain ⟨⟨_, text⟩, span⟩ := piece
  cases kind
  cases first with
  | unterminated =>
      obtain rfl : behind = [] := by simpa using split
      generalize given : ([] : List Char) = none at further
      cases further with
      | nil => rfl
      | cons first _ => exact absurd given.symm (List.append_ne_nil_of_left_ne_nil first.ne_nil _)

/-- Errors that follow a run without a gap join it. -/
theorem itemsAfter_errors {first stop : Nat} {more rest : List (Located Piece)}
    (scans : Scans stop cs (more ++ rest)) (errors : ∀ piece ∈ more, isErrorPiece piece = true)
    (run : List Char) :
    itemsAfter run ⟨first, stop⟩ (more ++ rest) =
      itemsAfter (run ++ charsOf more) ⟨first, stop + byteLength (charsOf more)⟩ rest := by
  induction more generalizing run stop cs with
  | nil => simp
  | cons piece more ih =>
      have spans := scans.head.1
      obtain ⟨behind, -, further⟩ := scans.tail
      obtain ⟨error, errors⟩ := List.forall_mem_cons.1 errors
      have joined := ih further errors (run ++ piece.item.text)
      rw [List.append_assoc, Nat.add_assoc, ← byteLength_append, ← charsOf_cons] at joined
      obtain ⟨⟨kind, text⟩, span⟩ := piece
      obtain rfl : span = ⟨stop, stop + byteLength text⟩ := spans
      cases kind with
      | blank => cases error
      | token token => cases error
      | invalid | unterminated =>
          rw [List.cons_append, itemsAfter]
          simpa [spanFrom, Span.to] using joined

/-- White space and comments do not end a run. -/
theorem itemsAfter_blanks {run : List Char} {span : Span} {blanks rest : List (Located Piece)}
    (all : ∀ piece ∈ blanks, isBlankPiece piece = true) :
    itemsAfter run span (blanks ++ rest) = itemsAfter run span rest := by
  induction blanks with
  | nil => rfl
  | cons piece blanks ih =>
      obtain ⟨blank, others⟩ := List.forall_mem_cons.1 all
      obtain ⟨⟨kind, text⟩, span⟩ := piece
      cases kind <;> cases blank
      exact ih others

/-- Blanks in front give no items. -/
theorem items_blanks {blanks rest : List (Located Piece)}
    (all : ∀ piece ∈ blanks, isBlankPiece piece = true) : items (blanks ++ rest) = items rest := by
  induction blanks with
  | nil => rfl
  | cons piece blanks ih =>
      obtain ⟨blank, others⟩ := List.forall_mem_cons.1 all
      obtain ⟨⟨kind, text⟩, span⟩ := piece
      cases kind <;> cases blank
      exact ih others

/-- Behind a run there is the end of the pieces or a token, or an error apart from the run. -/
theorem itemsAfter_rest {run : List Char} {first stop : Nat} {rest : List (Located Piece)}
    (scans : Scans stop cs rest) (ends : ∀ piece ∈ rest.head?, isErrorPiece piece = false) :
    ((∀ piece ∈ visible? rest, isErrorPiece piece = false) ∧
      itemsAfter run ⟨first, stop⟩ rest = unexpected run ⟨first, stop⟩ :: items rest) ∨
    ∃ blanks piece behind, rest = blanks ++ piece :: behind ∧ blanks ≠ [] ∧
      (∀ piece ∈ blanks, isBlankPiece piece = true) ∧ isErrorPiece piece = true ∧
      itemsAfter run ⟨first, stop⟩ rest =
        unexpected run ⟨first, stop⟩ :: leftover piece :: items behind := by
  obtain ⟨blanks, behind, rfl, all, stops⟩ := exists_split isBlankPiece rest
  rw [itemsAfter_blanks all, items_blanks all, visible?_append all]
  rcases behind with _ | ⟨⟨⟨kind, text⟩, next⟩, behind⟩
  · exact .inl ⟨nofun, rfl⟩
  rw [visible?_cons (stops _ rfl)]
  cases kind with
  | blank => cases stops _ rfl
  | token token => exact .inl ⟨fun piece same => Option.some.inj same ▸ rfl, rfl⟩
  | invalid | unterminated =>
      have some : blanks ≠ [] := by
        rintro rfl
        cases ends _ rfl
      refine .inr ⟨blanks, _, behind, rfl, some, all, rfl, ?_⟩
      have apart : next.start ≠ stop := by
        obtain ⟨_, -, further⟩ := scans.append
        have starts := congrArg Span.start further.head.1
        change next.start = stop + byteLength (charsOf blanks) at starts
        have positive := scans.pos some
        omega
      rw [itemsAfter, if_neg apart]
      rfl

end

/-- The items of the pieces of a text are those that the errors in it demand. -/
theorem groups_of_scans {start : Nat} {cs : List Char} {given : List (Located Piece)}
    (scans : Scans start cs given) : Groups given (items given) := by
  match given with
  | [] => exact .nil
  | ⟨⟨kind, text⟩, span⟩ :: rest =>
      obtain ⟨spans, -⟩ := scans.head
      obtain ⟨behind, -, further⟩ := scans.tail
      cases kind with
      | blank => exact .blank rfl (groups_of_scans further)
      | token token => exact .token (groups_of_scans further)
      | unterminated =>
          obtain rfl := scans.unterminated rfl
          exact Groups.error Gathers.unterminated nofun .nil
      | invalid =>
          obtain ⟨more, others, rfl, errors, ends⟩ := exists_split isErrorPiece rest
          obtain ⟨tail, -, scans⟩ := further.append
          obtain rfl : span = ⟨start, start + byteLength text⟩ := spans
          have gathered : Gathers (⟨⟨.invalid, text⟩, ⟨start, start + byteLength text⟩⟩ :: more) _ :=
            .run rfl errors
          rw [spanFrom, charsOf_cons, byteLength_append, ← Nat.add_assoc] at gathered
          rw [items, itemsAfter_errors further errors]
          rcases itemsAfter_rest scans ends with
            ⟨ends, same⟩ | ⟨blanks, piece, behind, rfl, some, between, error, same⟩
          · rw [same]
            exact .error gathered ends (groups_of_scans scans)
          · obtain ⟨tail, -, scans⟩ := scans.append
            obtain ⟨tail, -, scans⟩ := scans.tail
            rw [same]
            exact .leftover gathered some between error (groups_of_scans scans)
termination_by given.length

end Lox.Token
