import Lox.Proofs.Layout.Boundaries
import Lox.Proofs.Layout.Tree
import Lox.Proofs.Syntax.Recognition

namespace Lox.Token

open Text

def Item.span : Item → Span
  | .lexeme given => given.span
  | .error given => given.span

section
variable (text : List Char)

/-- Pieces take up the characters of a text without a gap, from an offset on. -/
def Adjoin : Nat → List (Located Piece) → Prop
  | _, [] => True
  | start, ⟨piece, span⟩ :: rest =>
      span.start = start ∧ Occupies text span piece.text ∧ Adjoin span.stop rest

/-- Items take up characters of a text one after another, from an offset on. -/
def Succeed : Nat → List Item → Prop
  | _, [] => True
  | start, item :: rest =>
      start ≤ item.span.start ∧ (∃ chars, Occupies text item.span chars) ∧
        Succeed item.span.stop rest

end

/-- The pieces of a text adjoin, from its first byte on. -/
theorem pieces_adjoin (before cs : List Char) :
    Adjoin (before ++ cs) (byteLength before) (pieces (byteLength before) cs) := by
  generalize given : byteLength before = start
  fun_induction pieces start cs generalizing before with
  | case1 => trivial
  | case2 start c cs stop ih =>
      have split := firstPiece_append c cs
      have taken : byteLength (before ++ (firstPiece c cs).1.text) = stop := by
        rw [byteLength_append, given]
      have rest := ih (before ++ (firstPiece c cs).1.text) taken
      rw [List.append_assoc, split] at rest
      refine ⟨rfl, ⟨firstPiece_ne_nil c cs, before, (firstPiece c cs).2, ?_, ?_⟩, rest⟩
      · rw [List.append_assoc, split]
      · rw [given]

section
variable {text : List Char}

/-- Two runs of characters that meet are one run. -/
theorem occupies_append {first second : List Char} {span next : Span}
    (before : Occupies text span first) (behind : Occupies text next second)
    (meet : next.start = span.stop) : Occupies text (span.to next) (first ++ second) := by
  obtain ⟨some, left, after, rfl, rfl⟩ := before
  obtain ⟨-, other, right, again, rfl⟩ := behind
  change byteLength other = byteLength left + byteLength first at meet
  have parts := splitAt?_append (left ++ first) after
  rw [byteLength_append, ← meet, again, List.append_assoc, splitAt?_append] at parts
  obtain ⟨rfl, rfl⟩ := Prod.mk.inj (Option.some.inj parts)
  refine ⟨by simp [some], left, right, by simp only [List.append_assoc], ?_⟩
  rw [Span.to, meet, byteLength_append, Nat.add_assoc]

/-- Items that succeed a byte succeed every byte before it. -/
theorem Succeed.weaken {first start : Nat} {given : List Item} (items : Succeed text start given)
    (below : first ≤ start) : Succeed text first given := by
  cases given with
  | nil => trivial
  | cons item rest => exact ⟨Nat.le_trans below items.1, items.2⟩

mutual

/-- The items of pieces take up characters like the pieces do. -/
theorem items_succeed : ∀ {start : Nat} {given : List (Located Piece)}, Adjoin text start given →
    Succeed text start (items given)
  | _, [], _ => trivial
  | _, ⟨⟨kind, chars⟩, span⟩ :: rest, ⟨starts, occupies, adjoin⟩ => by
      have below := Nat.le_of_eq starts.symm
      cases kind with
      | blank => exact (items_succeed adjoin).weaken (by have := occupies.proper; omega)
      | token token => exact ⟨below, ⟨chars, occupies⟩, items_succeed adjoin⟩
      | invalid => exact itemsAfter_succeed below occupies adjoin (Nat.le_refl _)
      | unterminated => exact ⟨below, ⟨chars, occupies⟩, items_succeed adjoin⟩

/-- The error for unrecognized characters and the items behind it succeed what comes before. -/
theorem itemsAfter_succeed : ∀ {first start : Nat} {run : List Char} {span : Span}
    {given : List (Located Piece)}, first ≤ span.start → Occupies text span run →
    Adjoin text start given → span.stop ≤ start → Succeed text first (itemsAfter run span given)
  | _, _, run, _, [], below, occupies, _, _ => ⟨below, ⟨run, occupies⟩, trivial⟩
  | first, _, run, span, ⟨⟨kind, chars⟩, next⟩ :: rest, below, occupies, ⟨starts, following, adjoin⟩,
      behind => by
      have proper := following.proper
      have further : span.stop ≤ next.start := starts ▸ behind
      have single : Succeed text first (unexpected run span ::
          .lexeme ⟨.invalid, String.ofList chars, next⟩ :: items rest) :=
        ⟨below, ⟨run, occupies⟩, further, ⟨chars, following⟩, items_succeed adjoin⟩
      cases kind with
      | blank =>
          rw [itemsAfter]
          exact itemsAfter_succeed below occupies adjoin (by omega)
      | token token =>
          exact ⟨below, ⟨run, occupies⟩, further, ⟨chars, following⟩, items_succeed adjoin⟩
      | invalid | unterminated =>
          rw [itemsAfter]
          split
          next meet =>
            have joined := occupies_append occupies following meet
            exact itemsAfter_succeed below joined adjoin (Nat.le_refl _)
          next => exact single

end

/-- Items that succeed one another take up characters in this order. -/
theorem Succeed.ordered {start : Nat} {given : List Item} (items : Succeed text start given) :
    (∀ item ∈ given, start ≤ item.span.start ∧ ∃ chars, Occupies text item.span chars) ∧
      given.Pairwise fun first second => first.span.stop ≤ second.span.start := by
  induction given generalizing start with
  | nil => exact ⟨nofun, .nil⟩
  | cons item rest ih =>
      obtain ⟨below, ⟨chars, occupies⟩, later⟩ := items
      obtain ⟨others, ordered⟩ := ih later
      have proper := occupies.proper
      refine ⟨List.forall_mem_cons.2 ⟨⟨below, chars, occupies⟩, fun other given => ?_⟩,
        List.pairwise_cons.2 ⟨fun other given => (others other given).1, ordered⟩⟩
      obtain ⟨behind, some⟩ := others other given
      exact ⟨by omega, some⟩

/-- The items of a text succeed each other from its first byte on. -/
theorem lex_succeed (text : String) : Succeed text.toList 0 (lex text) :=
  items_succeed (pieces_adjoin [] text.toList)

end

end Lox.Token

namespace Lox.Parser

open Text Token

/-- Every lexeme of a text takes up some of its characters. -/
theorem lexemesOf_occupies {text : String} {lexeme : Lexeme} (given : lexeme ∈ lexemesOf text) :
    ∃ chars, Occupies text.toList lexeme.span chars := by
  obtain ⟨item, among, same⟩ := List.mem_filterMap.1 given
  cases item with
  | lexeme other =>
      cases same
      exact ((lex_succeed text).ordered.1 _ among).2
  | error error => cases same

/-- Every error of the lexer is at some characters of the text. -/
theorem lexErrorsOf_occupies {text : String} {error : Located Error}
    (given : error ∈ lexErrorsOf text) : ∃ chars, Occupies text.toList error.span chars := by
  obtain ⟨item, among, same⟩ := List.mem_filterMap.1 given
  cases item with
  | lexeme lexeme => cases same
  | error other =>
      cases same
      exact ((lex_succeed text).ordered.1 _ among).2

/-- The lexemes of a text follow one another. -/
theorem lexemesOf_inOrder (text : String) : InOrder (lexemesOf text) where
  proper lexeme given := by
    obtain ⟨chars, occupies⟩ := lexemesOf_occupies given
    exact occupies.proper
  ordered := by
    apply (lex_succeed text).ordered.2.filterMap
    intro first second before lexeme same other also
    cases first <;> cases same
    cases second <;> cases also
    exact before

/-- What goes from a lexeme to a lexeme takes up characters of the text. -/
theorem occupies_of_bounded {text : String} {span : Span}
    (bounded : Bounded (lexemesOf text) span) : ∃ chars, Occupies text.toList span chars := by
  obtain ⟨⟨first, among, starts⟩, ⟨last, also, stops⟩, proper⟩ := bounded
  obtain ⟨_, left⟩ := lexemesOf_occupies among
  obtain ⟨_, right⟩ := lexemesOf_occupies also
  exact Boundary.occupies (starts ▸ left.start) (stops ▸ right.stop) proper

end Lox.Parser
