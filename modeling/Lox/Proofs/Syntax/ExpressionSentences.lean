import Lox.Proofs.Syntax.ExpressionForms

namespace Lox.Parser

open Lox.Computation Grammar

/-- The symbol of the first lexeme, if it is one. -/
def leading (lexemes : List Lexeme) : Option Symbol := lexemes.head?.bind Lexeme.symbol?

@[simp] theorem leading_cons (lexeme : Lexeme) (rest : List Lexeme) :
    leading (lexeme :: rest) = lexeme.symbol? := rfl

/-- A production accepts lexemes before others when it takes them without an error and gives the
tree, unless its fuel is used up. -/
def Accepts {α : Type} (production : Production α) (stop first : Nat) (lexemes : List Lexeme)
    (tree : α) (next : Nat) (rest : List Lexeme) : Prop :=
  ∀ errors,
    production ⟨lexemes ++ rest, stop, first, errors⟩ =
        .ok tree ⟨rest, endOf stop lexemes, next, errors⟩ ∨
      ∃ last, production ⟨lexemes ++ rest, stop, first, errors⟩ = .error .outOfFuel last

namespace Accepts

variable {α β : Type} {eof stop first middle next : Nat} {lexeme : Lexeme}
  {lexemes others rest : List Lexeme} {symbol : Symbol} {production : Production α}
  {follow : α → Production β} {tree : α} {result : β}

theorem outOfFuel : Accepts (throw .outOfFuel : Production α) stop first lexemes tree next rest :=
  fun _ => .inr ⟨_, rfl⟩

theorem pure : Accepts (pure tree : Production α) stop first [] tree first rest :=
  fun _ => .inl rfl

/-- A sequence accepts what its steps accept one after the other. -/
theorem bind (start : Accepts production stop first lexemes tree middle (others ++ rest))
    (goes : Accepts (follow tree) (endOf stop lexemes) middle others result next rest) :
    Accepts (production >>= follow) stop first (lexemes ++ others) result next rest := by
  intro errors
  rw [List.append_assoc, endOf_append]
  rcases start errors with given | ⟨last, out⟩
  · rw [bind_of_ok given]
    exact goes errors
  · exact .inr ⟨last, bind_of_error out follow⟩

/-- The first step takes one lexeme. -/
theorem step (start : Accepts production stop first [lexeme] tree middle (others ++ rest))
    (goes : Accepts (follow tree) lexeme.span.stop middle others result next rest) :
    Accepts (production >>= follow) stop first (lexeme :: others) result next rest :=
  bind start goes

/-- The first step only looks at what comes next. -/
theorem look (start : Accepts production stop first [] tree first (others ++ rest))
    (goes : Accepts (follow tree) stop first others result next rest) :
    Accepts (production >>= follow) stop first others result next rest :=
  bind start goes

/-- The steps behind the first one take nothing. -/
theorem done (start : Accepts production stop first lexemes tree next rest)
    (goes : Accepts (follow tree) (endOf stop lexemes) next [] result next rest) :
    Accepts (production >>= follow) stop first lexemes result next rest := by
  have whole := bind start goes
  rwa [List.append_nil] at whole

theorem map (f : α → β) (start : Accepts production stop first lexemes tree next rest) :
    Accepts (f <$> production) stop first lexemes (f tree) next rest := by
  rw [map_eq_pure_bind]
  exact done start pure

theorem peek : Accepts peek? stop first [] (leading rest) first rest := fun _ => .inl rfl

theorem isNext : Accepts (isNext symbol) stop first [] (decide (leading rest = some symbol)) first
    rest := fun _ => .inl rfl

theorem atEnd : Accepts atEnd stop first [] rest.isEmpty first rest := fun _ => .inl rfl

theorem here : Accepts (here eof) stop first [] lexeme.span first (lexeme :: rest) :=
  fun _ => .inl rfl

theorem spanFrom {start : Nat} : Accepts (spanFrom start) stop first [] ⟨start, stop⟩ first rest :=
  fun _ => .inl rfl

theorem take : Accepts (take eof) stop first [lexeme] lexeme.span first rest :=
  fun _ => .inl rfl

/-- An expected symbol is accepted where it stands. -/
theorem expect (spelled : Spells symbol lexeme) :
    Accepts (expect eof symbol) stop first [lexeme] lexeme.span first rest :=
  fun _ => .inl (expect_eq_ok.2 ⟨lexeme, rest, rfl, spelled, rfl, rfl⟩)

/-- A symbol that may be taken is taken where it stands. -/
theorem accept (spelled : Spells symbol lexeme) :
    Accepts (accept symbol) stop first [lexeme] true first rest :=
  fun _ => .inl (accept_eq_ok.2 (.inl ⟨rfl, lexeme, rest, rfl, spelled, rfl⟩))

/-- A symbol that may be taken is left where another one stands. -/
theorem decline (other : leading rest ≠ some symbol) :
    Accepts (Parser.accept symbol) stop first [] false first rest :=
  fun _ => .inl (accept_of_other other)

theorem expectName {expected name text : String} {span : Span} :
    Accepts (expectName eof expected) stop first [⟨.identifier name, text, span⟩] ⟨name, span⟩
      first rest :=
  fun _ => .inl (expectName_cons rfl)

theorem checkLength {listed : Listed} {length : Nat} (short : length < listLimit) :
    Accepts (checkLength eof listed length) stop first [] () first rest :=
  fun _ => .inl (checkLength_of_short short)

end Accepts

/-- The symbols that an operand without a sign can start with. Names, numbers and strings are no
symbols. -/
def opensOperand : Option Symbol → Bool
  | none | some .true | some .false | some .nil | some .leftParen => true
  | _ => false

/-- The symbols that an expression can start with. -/
def opensExpression : Option Symbol → Bool
  | some .bang | some .minus => true
  | next => opensOperand next

/-- A part of a program starts with a lexeme that has one of some symbols. -/
def Opens (symbols : Option Symbol → Bool) (lexemes : List Lexeme) : Prop :=
  ∃ lexeme rest, lexemes = lexeme :: rest ∧ symbols lexeme.symbol? = true

namespace Opens

variable {symbols others : Option Symbol → Bool} {lexemes rest : List Lexeme}

/-- What opens lexemes opens them with more behind. -/
theorem append (opens : Opens symbols lexemes) : Opens symbols (lexemes ++ rest) := by
  obtain ⟨lexeme, inner, rfl, start⟩ := opens
  exact ⟨lexeme, inner ++ rest, rfl, start⟩

/-- What opens with some symbols opens with more of them. -/
theorem weaken (opens : Opens symbols lexemes)
    (implied : ∀ next, symbols next = true → others next = true) : Opens others lexemes := by
  obtain ⟨lexeme, inner, rfl, start⟩ := opens
  exact ⟨lexeme, inner, rfl, implied _ start⟩

/-- The leading symbol is one of those that open. -/
theorem leading (opens : Opens symbols lexemes) : symbols (leading (lexemes ++ rest)) = true := by
  obtain ⟨lexeme, inner, rfl, start⟩ := opens
  exact start

/-- A symbol that is not among those that the part starts with does not come next. -/
theorem leading_ne {symbol : Symbol} (opens : Opens symbols lexemes)
    (other : symbols (some symbol) = false) (rest : List Lexeme) :
    Parser.leading (lexemes ++ rest) ≠ some symbol := by
  intro same
  have start : symbols (Parser.leading (lexemes ++ rest)) = true := opens.leading
  rw [same, other] at start
  exact Bool.noConfusion start

end Opens

/-- What opens an operand opens an expression. -/
theorem opensExpression_of_operand (next : Option Symbol) (opens : opensOperand next = true) :
    opensExpression next = true := by
  unfold opensExpression
  split
  · rfl
  · rfl
  · exact opens

/-- No prefix operator opens an operand. -/
theorem opensOperand_unaryOp? {next : Option Symbol} (opens : opensOperand next = true) :
    next.bind unaryOp? = none := by
  unfold opensOperand at opens
  split at opens
  all_goals first | rfl | exact Bool.noConfusion opens

/-- A primary expression opens with a literal, a name or a parenthesis. -/
theorem primary_opens {first next : Nat} {lexemes : List Lexeme} {expr : Expr}
    (form : Primary first lexemes expr next) : Opens opensOperand lexemes := by
  cases form with
  | literal denotes => exact ⟨_, _, rfl, by cases denotes <;> rfl⟩
  | «variable» => exact ⟨_, _, rfl, rfl⟩
  | group opens grouped closes => exact ⟨_, _, rfl, by rw [symbol?_eq_some.2 opens]; rfl⟩

theorem call_opens {first next : Nat} {lexemes : List Lexeme} {expr : Expr}
    (form : Call first lexemes expr next) : Opens opensOperand lexemes := by
  obtain ⟨operand, -⟩ := form
  exact (primary_opens operand).append

theorem unary_opens {first next : Nat} {lexemes : List Lexeme} {expr : Expr}
    (form : Unary first lexemes expr next) : Opens opensExpression lexemes := by
  cases form with
  | operator applies spelled applied =>
      refine ⟨_, _, rfl, ?_⟩
      rw [symbol?_eq_some.2 spelled]
      cases applies <;> rfl
  | call called => exact (call_opens called).weaken opensExpression_of_operand

mutual

theorem operand_opens {level : Level} {first next : Nat} {lexemes : List Lexeme} {expr : Expr} :
    Operand level first lexemes expr next → Opens opensExpression lexemes
  | .tighter _ operands => chain_opens operands
  | .unary operand => unary_opens operand

/-- A chain opens as its first operand does. -/
theorem chain_opens {level : Level} {first next : Nat} {lexemes : List Lexeme} {expr : Expr} :
    Chain level first lexemes expr next → Opens opensExpression lexemes
  | .start operand _ => (operand_opens operand).append

end

theorem expression_opens {first next : Nat} {lexemes : List Lexeme} {expr : Expr}
    (form : Expression first lexemes expr next) : Opens opensExpression lexemes := by
  cases form with
  | assign => exact ⟨_, _, rfl, rfl⟩
  | chain operands => exact chain_opens operands

theorem arguments_opens {first next : Nat} {lexemes : List Lexeme} {given : List Expr}
    (form : Arguments first lexemes given next) : Opens opensExpression lexemes := by
  cases form with
  | last argument => exact expression_opens argument
  | more argument => exact (expression_opens argument).append

/-- What comes next does not go on with an operand: it is no argument list, and no operator of a
level with fewer levels below it than a number. -/
def Stops (depth : Nat) (next : Option Symbol) : Prop :=
  next ≠ some .leftParen ∧
    ∀ ⦃level : Level⦄ ⦃symbol : Symbol⦄ ⦃operator : Operator⦄, next = some symbol →
      Joins level symbol operator → depth ≤ level.depth

/-- What stops many levels stops fewer of them. -/
theorem Stops.weaken {depth less : Nat} {next : Option Symbol} (stops : Stops depth next)
    (fewer : less ≤ depth) : Stops less next :=
  ⟨stops.1, fun _ _ _ same joins => Nat.le_trans fewer (stops.2 same joins)⟩

/-- The operands of a level end before its operators. -/
theorem joins_stops {level : Level} {symbol : Symbol} {operator : Operator}
    (joins : Joins level symbol operator) : Stops level.depth (some symbol) := by
  refine ⟨by cases joins <;> decide, fun other _ _ same joinsOther => ?_⟩
  cases same
  cases joins <;> cases joinsOther <;> exact Nat.le_refl _

/-- A chain ends before a symbol that stops its level. -/
theorem chainAfter_stops {level : Level} {first next : Nat} {left expr : Expr}
    {lexemes rest : List Lexeme} (form : ChainAfter level first left lexemes expr next)
    (stops : Stops (level.depth + 1) (leading rest)) :
    Stops level.depth (leading (lexemes ++ rest)) := by
  cases form with
  | done => exact stops.weaken (Nat.le_succ _)
  | more joins spelled =>
      rw [List.cons_append, leading_cons, symbol?_eq_some.2 spelled]
      exact joins_stops joins

/-- The symbols that stand behind an expression. -/
def Closes (next : Option Symbol) : Prop :=
  next = some .rightParen ∨ next = some .semicolon ∨ next = some .comma

theorem Closes.rightParen {closing : Lexeme} {rest : List Lexeme}
    (closes : Spells .rightParen closing) : Closes (leading (closing :: rest)) :=
  .inl (symbol?_eq_some.2 closes)

theorem Closes.semicolon {closing : Lexeme} {rest : List Lexeme}
    (closes : Spells .semicolon closing) : Closes (leading (closing :: rest)) :=
  .inr (.inl (symbol?_eq_some.2 closes))

theorem Closes.comma {closing : Lexeme} {rest : List Lexeme} (closes : Spells .comma closing) :
    Closes (leading (closing :: rest)) :=
  .inr (.inr (symbol?_eq_some.2 closes))

/-- A symbol that closes an expression stops every level. -/
theorem Closes.stops {next : Option Symbol} (closes : Closes next) : Stops 6 next := by
  rcases closes with rfl | rfl | rfl
  all_goals
    refine ⟨by decide, fun _ _ _ same joins => ?_⟩
    cases same
    cases joins

theorem stops_equal : Stops 6 (some .equal) := by
  refine ⟨by decide, fun _ _ _ same joins => ?_⟩
  cases same
  cases joins

/-- A symbol that closes an expression is no equal sign. -/
theorem Closes.ne_equal {next : Option Symbol} (closes : Closes next) : next ≠ some .equal := by
  rcases closes with rfl | rfl | rfl <;> decide

/-- Operands without an operator are a chain. -/
theorem operand_chain {level : Level} {first next : Nat} {lexemes : List Lexeme} {expr : Expr}
    (form : Operand level first lexemes expr next) : Chain level first lexemes expr next := by
  have whole := Chain.start form .done
  rwa [List.append_nil] at whole

/-- A unary expression is a chain of the loosest level. -/
theorem unary_chain {first next : Nat} {lexemes : List Lexeme} {expr : Expr}
    (form : Unary first lexemes expr next) : Chain .or first lexemes expr next := by
  have factor := operand_chain (.unary form)
  have comparison := operand_chain (.tighter .term (operand_chain (.tighter .factor factor)))
  have equality := operand_chain (.tighter .comparison comparison)
  exact operand_chain (.tighter .and (operand_chain (.tighter .equality equality)))

/-- A variable is a chain by itself. -/
theorem variable_chain {first : Nat} {name text : String} {span : Span} :
    Chain .or first [⟨.identifier name, text, span⟩] (.variable ⟨first, name, span⟩) (first + 1) :=
  unary_chain (.call (.start .variable .done))

/-- The productions of expressions accept the sentences of their parts of the grammar. -/
structure ExpressionsAccepted (eof fuel : Nat) : Prop where
  expression {stop first next : Nat} {lexemes rest : List Lexeme} {expr : Expr}
    (form : Expression first lexemes expr next) (closes : Closes (leading rest)) :
    Accepts (expression eof fuel) stop first lexemes expr next rest
  operand {level : Level} {stop first next : Nat} {lexemes rest : List Lexeme} {expr : Expr}
    (form : Operand level first lexemes expr next) (stops : Stops level.depth (leading rest)) :
    Accepts (operand eof fuel level) stop first lexemes expr next rest
  chain {level : Level} {stop first next : Nat} {lexemes rest : List Lexeme} {expr : Expr}
    (form : Chain level first lexemes expr next) (stops : Stops (level.depth + 1) (leading rest)) :
    Accepts (chain eof fuel level) stop first lexemes expr next rest
  chainAfter {level : Level} {stop first next : Nat} {left expr : Expr}
    {lexemes rest : List Lexeme} (form : ChainAfter level first left lexemes expr next)
    (stops : Stops (level.depth + 1) (leading rest)) :
    Accepts (chainAfter eof fuel level left) stop first lexemes expr next rest
  unary {stop first next : Nat} {lexemes rest : List Lexeme} {expr : Expr}
    (form : Unary first lexemes expr next) (stops : Stops 0 (leading rest)) :
    Accepts (unary eof fuel) stop first lexemes expr next rest
  call {stop first next : Nat} {lexemes rest : List Lexeme} {expr : Expr}
    (form : Call first lexemes expr next) (stops : Stops 0 (leading rest)) :
    Accepts (call eof fuel) stop first lexemes expr next rest
  callAfter {stop first next : Nat} {callee expr : Expr} {lexemes rest : List Lexeme}
    (form : CallAfter first callee lexemes expr next) (stops : Stops 0 (leading rest)) :
    Accepts (callAfter eof fuel callee) stop first lexemes expr next rest
  arguments {stop first next length : Nat} {lexemes rest : List Lexeme} {given : List Expr}
    (form : Arguments first lexemes given next) (short : length + given.length ≤ listLimit)
    (closes : leading rest = some .rightParen) :
    Accepts (arguments eof fuel length) stop first lexemes given next rest
  primary {stop first next : Nat} {lexemes rest : List Lexeme} {expr : Expr}
    (form : Primary first lexemes expr next) :
    Accepts (primary eof fuel) stop first lexemes expr next rest

section
variable {eof fuel stop first next : Nat} {lexemes rest : List Lexeme}
  (parts : ExpressionsAccepted eof fuel)
include parts

/-- A sentence is read as the expression that it is. -/
theorem expression_accepts {expr : Expr} (form : Expression first lexemes expr next)
    (closes : Closes (leading rest)) :
    Accepts (expression eof (fuel + 1)) stop first lexemes expr next rest := by
  rw [expression]
  cases form with
  | assign sign assigned =>
      refine .bind (parts.chain variable_chain ?_) ?_
      · rw [List.cons_append, leading_cons, symbol?_eq_some.2 sign]
        exact stops_equal
      refine .look .isNext ?_
      rw [List.cons_append, leading_cons, decide_eq_true (symbol?_eq_some.2 sign)]
      refine .step .take (.done (parts.expression assigned closes) ?_)
      exact .pure
  | chain operands =>
      refine .done (parts.chain operands closes.stops) ?_
      refine .look .isNext ?_
      rw [List.nil_append, decide_eq_false closes.ne_equal]
      exact .pure

/-- A sentence is read as the operand that it is. -/
theorem operand_accepts {level : Level} {expr : Expr}
    (form : Operand level first lexemes expr next) (stops : Stops level.depth (leading rest)) :
    Accepts (operand eof (fuel + 1) level) stop first lexemes expr next rest := by
  rw [operand]
  cases form with
  | tighter below operands =>
      rw [below_iff.1 below]
      refine parts.chain operands ?_
      rwa [Level.depth_of_tighter (below_iff.1 below)]
  | unary operand => exact parts.unary operand stops

/-- A sentence is read as the chain that it is. -/
theorem chain_accepts {level : Level} {expr : Expr} (form : Chain level first lexemes expr next)
    (stops : Stops (level.depth + 1) (leading rest)) :
    Accepts (chain eof (fuel + 1) level) stop first lexemes expr next rest := by
  rw [chain]
  obtain ⟨operand, joined⟩ := form
  exact .bind (parts.operand operand (chainAfter_stops joined stops)) (parts.chainAfter joined stops)

/-- The rest of a chain is read behind its left operand. -/
theorem chainAfter_accepts {level : Level} {left expr : Expr}
    (form : ChainAfter level first left lexemes expr next)
    (stops : Stops (level.depth + 1) (leading rest)) :
    Accepts (chainAfter eof (fuel + 1) level left) stop first lexemes expr next rest := by
  rw [chainAfter]
  refine .look .peek ?_
  cases form with
  | done =>
      have none : (leading ([] ++ rest)).bind level.operator? = none := by
        rw [Option.bind_eq_none_iff]
        intro symbol same
        refine Option.eq_none_iff_forall_ne_some.2 fun operator joins => ?_
        have := stops.2 same (joins_iff.2 joins)
        omega
      rw [none]
      exact .pure
  | more joins spelled operand joined =>
      rw [List.cons_append, leading_cons, symbol?_eq_some.2 spelled, Option.bind_some,
        joins_iff.1 joins]
      exact .step .take (.bind (parts.operand operand (chainAfter_stops joined stops))
        (parts.chainAfter joined stops))

/-- A sentence is read as the prefixed expression that it is. -/
theorem unary_accepts {expr : Expr} (form : Unary first lexemes expr next)
    (stops : Stops 0 (leading rest)) :
    Accepts (unary eof (fuel + 1)) stop first lexemes expr next rest := by
  rw [unary]
  refine .look .peek ?_
  cases form with
  | operator applies spelled applied =>
      rw [List.cons_append, leading_cons, symbol?_eq_some.2 spelled, Option.bind_some,
        applies_iff.1 applies]
      exact .step .take (.done (parts.unary applied stops) .pure)
  | call called =>
      rw [opensOperand_unaryOp? (call_opens called).leading]
      exact parts.call called stops

theorem call_accepts {expr : Expr} (form : Call first lexemes expr next)
    (stops : Stops 0 (leading rest)) :
    Accepts (call eof (fuel + 1)) stop first lexemes expr next rest := by
  rw [call]
  obtain ⟨operand, given⟩ := form
  exact .bind (parts.primary operand) (parts.callAfter given stops)

/-- The calls of a callee are read behind it. -/
theorem callAfter_accepts {callee expr : Expr} (form : CallAfter first callee lexemes expr next)
    (stops : Stops 0 (leading rest)) :
    Accepts (callAfter eof (fuel + 1) callee) stop first lexemes expr next rest := by
  rw [callAfter]
  cases form with
  | done => exact .look (.decline stops.1) .pure
  | more opens arguments closes called =>
      refine .step (.accept opens) (.look .isNext ?_)
      have closing (others : List Lexeme) :
          leading ((_ :: others) ++ rest) = some .rightParen := symbol?_eq_some.2 closes
      cases arguments with
      | none =>
          rw [List.nil_append, decide_eq_true (closing _)]
          exact .look .pure (.step (.expect closes) (parts.callAfter called stops))
      | some arguments short =>
          rw [decide_eq_false ((arguments_opens arguments).append.leading_ne rfl rest)]
          refine .bind (parts.arguments arguments ?_ (closing _)) ?_
          · rwa [Nat.zero_add]
          · exact .step (.expect closes) (parts.callAfter called stops)

/-- Arguments within the limit are read as they are. -/
theorem arguments_accepts {length : Nat} {given : List Expr}
    (form : Arguments first lexemes given next) (short : length + given.length ≤ listLimit)
    (closes : leading rest = some .rightParen) :
    Accepts (arguments eof (fuel + 1) length) stop first lexemes given next rest := by
  rw [arguments]
  refine .look (.checkLength ?_) ?_
  · cases form <;> (rw [List.length_cons] at short; omega)
  cases form with
  | last argument =>
      refine .done (parts.expression argument (.inl closes)) (.look (.decline ?_) .pure)
      rw [List.nil_append, closes]
      decide
  | more argument separated arguments =>
      refine .bind (parts.expression argument (.comma separated)) ?_
      refine .step (.accept separated) (.done (parts.arguments arguments ?_ closes) .pure)
      rw [List.length_cons] at short
      omega

/-- A sentence is read as the primary expression that it is. -/
theorem primary_accepts {expr : Expr} (form : Primary first lexemes expr next) :
    Accepts (primary eof (fuel + 1)) stop first lexemes expr next rest := by
  cases form with
  | «variable» =>
      intro errors
      rw [primary, bind_of_ok (get_apply _)]
      exact .inl rfl
  | literal denotes =>
      intro errors
      rw [primary, bind_of_ok (get_apply _)]
      left
      cases denotes <;> rfl
  | @group _ _ opening _ _ _ opens grouped closes =>
      intro errors
      rw [primary, bind_of_ok (get_apply _)]
      obtain ⟨token, text, span⟩ := opening
      cases opens
      refine Accepts.step .take (.bind (parts.expression grouped (.rightParen closes))
        (.done (.expect closes) ?_)) errors
      exact .pure

end

/-- Expressions are accepted with any amount of fuel. -/
theorem expressionsAccepted (eof fuel : Nat) : ExpressionsAccepted eof fuel := by
  induction fuel with
  | zero =>
      exact ⟨fun _ _ => .outOfFuel, fun _ _ => .outOfFuel, fun _ _ => .outOfFuel,
        fun _ _ => .outOfFuel, fun _ _ => .outOfFuel, fun _ _ => .outOfFuel, fun _ _ => .outOfFuel,
        fun _ _ _ => .outOfFuel, fun _ => .outOfFuel⟩
  | succ fuel parts =>
      exact ⟨expression_accepts parts, operand_accepts parts, chain_accepts parts,
        chainAfter_accepts parts, unary_accepts parts, call_accepts parts,
        callAfter_accepts parts, arguments_accepts parts, primary_accepts parts⟩

end Lox.Parser
