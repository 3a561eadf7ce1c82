import Lox.Proofs.Layout.Statements
import Lox.Proofs.Lexing.Slices

namespace Lox

open Text

/-- A node of a tree is an expression or a statement. -/
inductive Node where
  | expr (expr : Expr)
  | stmt (stmt : Stmt)

namespace Node

def span : Node → Span
  | .expr given => given.span
  | .stmt given => given.span

/-- The nodes that a node is made of. -/
def children : Node → List Node
  | .expr (.literal _ _) | .expr (.variable _) => []
  | .expr (.assign _ _ value) => [.expr value]
  | .expr (.group _ inner) => [.expr inner]
  | .expr (.unary _ _ operand) => [.expr operand]
  | .expr (.binary _ _ left right) | .expr (.logical _ _ left right) => [.expr left, .expr right]
  | .expr (.call _ _ callee given) => .expr callee :: given.map .expr
  | .stmt (.expression _ value) | .stmt (.print _ value) => [.expr value]
  | .stmt (.variable _ _ initializer) => initializer.toList.map .expr
  | .stmt (.function _ _ _ body) | .stmt (.block _ body) => body.map .stmt
  | .stmt (.branch _ condition consequent alternative) =>
      .expr condition :: .stmt consequent :: alternative.toList.map .stmt
  | .stmt (.loop _ condition body) => [.expr condition, .stmt body]
  | .stmt (.giveBack _ _ value) => value.toList.map .expr

/-- The names, the operator, the keyword and the closing parenthesis that a node has by itself, with
the text that each of them stands for. -/
def marks : Node → List (Located String)
  | .expr (.variable target) | .expr (.assign _ target _) => [⟨target.name, target.span⟩]
  | .expr (.unary _ op _) => [⟨op.item.text, op.span⟩]
  | .expr (.binary _ op _ _) => [⟨op.item.text, op.span⟩]
  | .expr (.logical _ op _ _) => [⟨op.item.text, op.span⟩]
  | .expr (.call _ paren _ _) => [⟨")", paren⟩]
  | .stmt (.variable _ name _) => [name]
  | .stmt (.function _ name parameters _) => name :: parameters
  | .stmt (.giveBack _ keyword _) => [⟨"return", keyword⟩]
  | .expr (.literal _ _) | .expr (.group _ _) | .stmt (.expression _ _) | .stmt (.print _ _)
  | .stmt (.block _ _) | .stmt (.branch _ _ _ _) | .stmt (.loop _ _ _) => []

/-- The operands of an operator between two of them, with the span of the operator. -/
def joined? : Node → Option (Expr × Span × Expr)
  | .expr (.binary _ op left right) => some (left, op.span, right)
  | .expr (.logical _ op left right) => some (left, op.span, right)
  | _ => none

end Node

mutual

/-- The nodes of an expression, each of them before those that it is made of. -/
def Expr.nodes : Expr → List Node
  | expr@(.literal _ _) | expr@(.variable _) => [.expr expr]
  | expr@(.assign _ _ value) => .expr expr :: value.nodes
  | expr@(.group _ inner) => .expr expr :: inner.nodes
  | expr@(.unary _ _ operand) => .expr expr :: operand.nodes
  | expr@(.binary _ _ left right) => .expr expr :: (left.nodes ++ right.nodes)
  | expr@(.logical _ _ left right) => .expr expr :: (left.nodes ++ right.nodes)
  | expr@(.call _ _ callee given) => .expr expr :: (callee.nodes ++ Expr.nodesAll given)

def Expr.nodesAll : List Expr → List Node
  | [] => []
  | expr :: rest => expr.nodes ++ Expr.nodesAll rest

end

def Expr.nodesOption (given : Option Expr) : List Node := (given.map Expr.nodes).getD []

mutual

def Stmt.nodes : Stmt → List Node
  | stmt@(.expression _ value) | stmt@(.print _ value) => .stmt stmt :: value.nodes
  | stmt@(.variable _ _ initializer) => .stmt stmt :: Expr.nodesOption initializer
  | stmt@(.function _ _ _ body) => .stmt stmt :: Stmt.nodesAll body
  | stmt@(.block _ body) => .stmt stmt :: Stmt.nodesAll body
  | stmt@(.branch _ condition consequent none) =>
      .stmt stmt :: (condition.nodes ++ consequent.nodes)
  | stmt@(.branch _ condition consequent (some alternative)) =>
      .stmt stmt :: (condition.nodes ++ (consequent.nodes ++ alternative.nodes))
  | stmt@(.loop _ condition body) => .stmt stmt :: (condition.nodes ++ body.nodes)
  | stmt@(.giveBack _ _ value) => .stmt stmt :: Expr.nodesOption value

def Stmt.nodesAll : List Stmt → List Node
  | [] => []
  | stmt :: rest => stmt.nodes ++ Stmt.nodesAll rest

end

def Node.LaidOut (lexemes : List Lexeme) : Node → Prop
  | .expr given => given.LaidOut lexemes
  | .stmt given => given.LaidOut lexemes

section
variable {lexemes : List Lexeme}

mutual

/-- All nodes of an expression are laid out with it. -/
theorem Expr.LaidOut.nodes : ∀ {expr : Expr}, expr.LaidOut lexemes →
    ∀ node ∈ expr.nodes, node.LaidOut lexemes
  | .literal _ _, laid | .variable _, laid => List.forall_mem_singleton.2 laid
  | .assign .., laid => List.forall_mem_cons.2 ⟨laid, laid.2.2.2.nodes⟩
  | .group .., laid => by
      have inner := laid
      obtain ⟨_, _, -, -, -, -, -, inner⟩ := inner
      exact List.forall_mem_cons.2 ⟨laid, inner.nodes⟩
  | .unary .., laid => List.forall_mem_cons.2 ⟨laid, laid.2.2.2.nodes⟩
  | .binary .., laid | .logical .., laid =>
      List.forall_mem_cons.2 ⟨laid, List.forall_mem_append.2
        ⟨laid.2.2.2.2.1.nodes, laid.2.2.2.2.2.nodes⟩⟩
  | .call .., laid =>
      List.forall_mem_cons.2 ⟨laid, List.forall_mem_append.2 ⟨laid.2.2.1.nodes, laid.2.2.2.nodes⟩⟩

/-- Every node of expressions that are laid out in a row is laid out. -/
theorem Expr.LaidOutBetween.nodes {first last : Nat} : ∀ {given : List Expr},
    Expr.LaidOutBetween lexemes first last given →
      ∀ node ∈ Expr.nodesAll given, node.LaidOut lexemes
  | [], _ => nofun
  | _ :: _, ⟨_, laid, others⟩ => List.forall_mem_append.2 ⟨laid.nodes, others.nodes⟩

end

/-- Every node of an expression that may be absent is laid out. -/
theorem nodes_of_option {span : Span} {given : Option Expr}
    (laid : ∀ value ∈ given, value.LaidOutIn lexemes span) :
    ∀ node ∈ Expr.nodesOption given, node.LaidOut lexemes := by
  cases given with
  | none => exact nofun
  | some value => exact (laid value rfl).laid.nodes

mutual

/-- All nodes of a statement are laid out with it. -/
theorem Stmt.LaidOut.nodes : ∀ {stmt : Stmt}, stmt.LaidOut lexemes →
    ∀ node ∈ stmt.nodes, node.LaidOut lexemes
  | .expression .., laid | .print .., laid => List.forall_mem_cons.2 ⟨laid, laid.2.laid.nodes⟩
  | .variable .., laid => List.forall_mem_cons.2 ⟨laid, nodes_of_option laid.2.2⟩
  | .function .., laid => List.forall_mem_cons.2 ⟨laid, laid.2.2.2.nodes⟩
  | .block .., laid => List.forall_mem_cons.2 ⟨laid, laid.2.nodes⟩
  | .branch _ _ _ none, laid =>
      List.forall_mem_cons.2 ⟨laid, List.forall_mem_append.2
        ⟨laid.2.1.laid.nodes, laid.2.2.2.nodes⟩⟩
  | .branch _ _ _ (some _), laid =>
      List.forall_mem_cons.2 ⟨laid, List.forall_mem_append.2 ⟨laid.2.1.laid.nodes,
        List.forall_mem_append.2 ⟨laid.2.2.2.1.nodes, laid.2.2.2.2.2.nodes⟩⟩⟩
  | .loop .., laid =>
      List.forall_mem_cons.2 ⟨laid, List.forall_mem_append.2
        ⟨laid.2.1.laid.nodes, laid.2.2.2.nodes⟩⟩
  | .giveBack .., laid => List.forall_mem_cons.2 ⟨laid, nodes_of_option laid.2.2.2⟩

/-- Every node of statements that are laid out in a span is laid out. -/
theorem Stmt.LaidOutIn.nodes {span : Span} : ∀ {given : List Stmt},
    Stmt.LaidOutIn lexemes span given → ∀ node ∈ Stmt.nodesAll given, node.LaidOut lexemes
  | [], _ => nofun
  | _ :: _, ⟨_, laid, others⟩ => List.forall_mem_append.2 ⟨laid.nodes, others.nodes⟩

end

/-- Expressions between two offsets are inside every span around the offsets. -/
theorem Expr.LaidOutBetween.inside (order : InOrder lexemes) {first last : Nat} {outer : Span} :
    ∀ {given : List Expr}, Expr.LaidOutBetween lexemes first last given → outer.start ≤ first →
      last ≤ outer.stop → ∀ expr ∈ given, expr.span.Inside outer
  | [], _, _, _ => nofun
  | expr :: rest, ⟨follows, laid, others⟩, start, stop => by
      have proper := (laid.bounded order).proper
      have reach := others.le fun expr _ laid => (laid.bounded order).proper
      exact List.forall_mem_cons.2 ⟨⟨by omega, by omega⟩,
        others.inside order (by omega) stop⟩

/-- Statements that are laid out in a span are inside it. -/
theorem Stmt.LaidOutIn.inside {span : Span} {given : List Stmt}
    (laid : Stmt.LaidOutIn lexemes span given) : ∀ stmt ∈ given, stmt.span.Inside span := by
  induction given with
  | nil => exact nofun
  | cons stmt rest ih => exact List.forall_mem_cons.2 ⟨laid.1, ih laid.2.2⟩

/-- The span of a node reaches from the start of a lexeme to the end of one. -/
theorem Node.LaidOut.bounded (order : InOrder lexemes) {node : Node} (laid : node.LaidOut lexemes) :
    Bounded lexemes node.span := by
  cases node with
  | expr expr => exact Expr.LaidOut.bounded order laid
  | stmt stmt => exact Stmt.LaidOut.bounded laid

/-- A span that comes first, or last, is inside of the whole. -/
theorem Span.inside_to {first last : Span} (order : first.start ≤ last.start ∧ first.stop ≤ last.stop) :
    first.Inside (first.to last) ∧ last.Inside (first.to last) :=
  ⟨⟨Nat.le_refl _, order.2⟩, ⟨order.1, Nat.le_refl _⟩⟩

/-- The spans of what an expression is made of are inside of it. -/
theorem Expr.LaidOut.parts (order : InOrder lexemes) {expr : Expr} (laid : expr.LaidOut lexemes) :
    (∀ child ∈ (Node.expr expr).children, child.span.Inside expr.span) ∧
      ∀ mark ∈ (Node.expr expr).marks,
        mark.span.Inside expr.span ∧ Stands lexemes mark.item mark.span := by
  cases expr with
  | literal => exact ⟨nofun, nofun⟩
  | «variable» => exact ⟨nofun, List.forall_mem_singleton.2 ⟨.refl _, laid⟩⟩
  | assign span target value =>
      obtain ⟨rfl, stands, follows, inner⟩ := laid
      have first := (stands.bounded order).proper
      have second := (inner.bounded order).proper
      obtain ⟨assigned, given⟩ := Span.inside_to
        (show target.span.start ≤ value.span.start ∧ target.span.stop ≤ value.span.stop by omega)
      exact ⟨List.forall_mem_singleton.2 given, List.forall_mem_singleton.2 ⟨assigned, stands⟩⟩
  | group span inner =>
      obtain ⟨opening, closing, opens, closes, rfl, first, second, -⟩ := laid
      have before := (opens.bounded order).proper
      have behind := (closes.bounded order).proper
      have inside : inner.span.Inside (opening.to closing) :=
        ⟨Nat.le_trans (Nat.le_of_lt before) first, Nat.le_trans second (Nat.le_of_lt behind)⟩
      exact ⟨List.forall_mem_singleton.2 inside, nofun⟩
  | unary span op operand =>
      obtain ⟨rfl, stands, follows, inner⟩ := laid
      have first := (stands.bounded order).proper
      have second := (inner.bounded order).proper
      obtain ⟨operator, applied⟩ := Span.inside_to
        (show op.span.start ≤ operand.span.start ∧ op.span.stop ≤ operand.span.stop by omega)
      exact ⟨List.forall_mem_singleton.2 applied, List.forall_mem_singleton.2 ⟨operator, stands⟩⟩
  | binary span op left right | logical span op left right =>
      obtain ⟨rfl, stands, before, behind, first, second⟩ := laid
      have middle := (stands.bounded order).proper
      have start := (first.bounded order).proper
      have stop := (second.bounded order).proper
      obtain ⟨early, late⟩ := Span.inside_to
        (show left.span.start ≤ right.span.start ∧ left.span.stop ≤ right.span.stop by omega)
      have operator : op.span.Inside (left.span.to right.span) :=
        ⟨Nat.le_trans (Nat.le_of_lt start) before, Nat.le_trans behind (Nat.le_of_lt stop)⟩
      exact ⟨List.forall_mem_cons.2 ⟨early, List.forall_mem_singleton.2 late⟩,
        List.forall_mem_singleton.2 ⟨operator, stands⟩⟩
  | call span paren callee given =>
      obtain ⟨rfl, stands, called, others⟩ := laid
      have last := (stands.bounded order).proper
      have start := (called.bounded order).proper
      have reach := others.le fun expr _ laid => (laid.bounded order).proper
      obtain ⟨early, late⟩ := Span.inside_to
        (show callee.span.start ≤ paren.start ∧ callee.span.stop ≤ paren.stop by omega)
      have arguments : ∀ expr ∈ given, expr.span.Inside (callee.span.to paren) :=
        others.inside order (Nat.le_of_lt start) (Nat.le_of_lt last)
      exact ⟨List.forall_mem_cons.2 ⟨early, List.forall_mem_map.2 arguments⟩,
        List.forall_mem_singleton.2 ⟨late, stands⟩⟩

/-- An expression that may be absent is inside the span that it is laid out in. -/
theorem children_of_option {span : Span} {given : Option Expr}
    (laid : ∀ value ∈ given, value.LaidOutIn lexemes span) :
    ∀ child ∈ given.toList.map Node.expr, child.span.Inside span :=
  List.forall_mem_map.2 fun value among => (laid value (Option.mem_toList.1 among)).inside

/-- A name is inside the span that it is laid out in, and stands at its own one. -/
theorem Name.LaidOutIn.mark {span : Span} {name : Name} (laid : Name.LaidOutIn lexemes span name) :
    name.span.Inside span ∧ Stands lexemes name.item name.span := ⟨laid.inside, laid.stands⟩

/-- The spans of what a statement is made of are inside of it. -/
theorem Stmt.LaidOut.parts {stmt : Stmt} (laid : stmt.LaidOut lexemes) :
    (∀ child ∈ (Node.stmt stmt).children, child.span.Inside stmt.span) ∧
      ∀ mark ∈ (Node.stmt stmt).marks,
        mark.span.Inside stmt.span ∧ Stands lexemes mark.item mark.span := by
  cases stmt with
  | expression | print => exact ⟨List.forall_mem_singleton.2 laid.2.inside, nofun⟩
  | «variable» =>
      obtain ⟨-, name, initializer⟩ := laid
      exact ⟨children_of_option initializer, List.forall_mem_singleton.2 name.mark⟩
  | function =>
      obtain ⟨-, name, parameters, body⟩ := laid
      exact ⟨List.forall_mem_map.2 body.inside,
        List.forall_mem_cons.2 ⟨name.mark, fun parameter given => (parameters parameter given).mark⟩⟩
  | block => exact ⟨List.forall_mem_map.2 laid.2.inside, nofun⟩
  | branch span condition consequent alternative =>
      cases alternative with
      | none =>
          obtain ⟨-, condition, consequent, -⟩ := laid
          exact ⟨List.forall_mem_cons.2 ⟨condition.inside, List.forall_mem_singleton.2 consequent⟩,
            nofun⟩
      | some alternative =>
          obtain ⟨-, condition, consequent, -, alternative, -⟩ := laid
          exact ⟨List.forall_mem_cons.2 ⟨condition.inside, List.forall_mem_cons.2
            ⟨consequent, List.forall_mem_singleton.2 alternative⟩⟩, nofun⟩
  | loop =>
      obtain ⟨-, condition, body, -⟩ := laid
      exact ⟨List.forall_mem_cons.2 ⟨condition.inside, List.forall_mem_singleton.2 body⟩, nofun⟩
  | giveBack =>
      obtain ⟨-, keyword, inside, value⟩ := laid
      exact ⟨children_of_option value, List.forall_mem_singleton.2 ⟨inside, keyword⟩⟩

/-- The operands of an operator stand before it and behind it. -/
theorem Node.LaidOut.joined {node : Node} (laid : node.LaidOut lexemes) {left right : Expr}
    {place : Span} (joins : node.joined? = some (left, place, right)) :
    left.span.stop ≤ place.start ∧ place.stop ≤ right.span.start := by
  obtain given | given := node
  · cases given with
    | binary | logical =>
        cases joins
        exact ⟨laid.2.2.1, laid.2.2.2.1⟩
    | _ => cases joins
  · cases joins

end

/-- The span of a node goes from a lexeme of the text to a lexeme, it is around all that the node is
made of, and the text of a mark is the slice at its span. -/
structure Node.Exact (text : String) (node : Node) : Prop where
  bounded : Bounded (Parser.lexemesOf text) node.span
  children : ∀ child ∈ node.children, child.span.Inside node.span
  marks : ∀ mark ∈ node.marks, mark.span.Inside node.span ∧
    slice? text.toList mark.span = some mark.item.toList
  joined : ∀ left place right, node.joined? = some (left, place, right) →
    left.span.stop ≤ place.start ∧ place.stop ≤ right.span.start

/-- A node that is laid out among the lexemes of a text is exact in the text. -/
theorem Node.LaidOut.exact {text : String} {node : Node}
    (laid : node.LaidOut (Parser.lexemesOf text)) : node.Exact text := by
  have order := Parser.lexemesOf_inOrder text
  have parts : (∀ child ∈ node.children, child.span.Inside node.span) ∧ ∀ mark ∈ node.marks,
      mark.span.Inside node.span ∧ Stands (Parser.lexemesOf text) mark.item mark.span := by
    cases node with
    | expr given => exact Expr.LaidOut.parts order laid
    | stmt given => exact Stmt.LaidOut.parts laid
  exact ⟨laid.bounded order, parts.1, fun mark given => (parts.2 mark given).imp_right fun stands =>
    Parser.Stands.slice stands, fun _ _ _ joins => laid.joined joins⟩

end Lox
