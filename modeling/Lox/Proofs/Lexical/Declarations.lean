import Lox.Proofs.Lexical.Simulation

namespace Lox.Lexical

open Lox.Computation Resolution
open Evaluation (Context Settled makeClosure)

/-- A declaration gives a world a new variable, except at the top level. -/
def World.declare (world : World) (frame : FrameId) (name : String) (location : Location) :
    Env → World
  | .top => world
  | .inner _ => world.bind frame name location

section
variable (context : Context) (world : World)

/-- Statements stand at the top level, outside of all scopes, or they stand in an innermost scope
that has all names of the innermost frame, and see the same variables in both runs. -/
inductive Stands : Lox.Env → List Scope → Env → Prop
  | top : Stands context.globals [] .top
  | inner {env : Lox.Env} {scope : Scope} {outer : List Scope} {locals : Locals}
      (other : env.frame ≠ context.globals.frame) (old : env.frame < world.frames)
      (sees : Sees world env.frames (scope :: outer) locals)
      (settled : ∀ inner ∈ scope :: outer, Settled inner)
      (listed : ∀ name, scope.binds name = false → world.location? env.frame name = none) :
      Stands env (scope :: outer) (.inner locals)

end

section
variable {context : Context} {changing : FrameId → Prop} {world after : World} {env : Lox.Env}
  {scopes : List Scope} {lexical : Env} {name : String} {location : Location}

namespace Stands

/-- The lexical environment sees what the frames of the chain bind. -/
theorem sees (stands : Stands context world env scopes lexical) :
    Sees world env.frames scopes lexical.locals := by
  cases stands with
  | top => exact .nothing _ _
  | inner _ _ sees _ _ => exact sees

/-- No open scope waits for an initializer. -/
theorem settled (stands : Stands context world env scopes lexical) :
    ∀ scope ∈ scopes, Settled scope := by
  cases stands with
  | top => simp
  | inner _ _ _ settled _ => exact settled

/-- Nothing changes for code whose frame does not change. -/
theorem grow (stands : Stands context world env scopes lexical)
    (grows : world.Grows changing after) (unchanged : ¬ changing env.frame) :
    Stands context after env scopes lexical := by
  cases stands with
  | top => exact .top
  | inner other old sees settled listed =>
      refine .inner other (Nat.lt_of_lt_of_le old grows.frames) (sees.grow grows) settled ?_
      intro name free
      rw [grows.others old unchanged, listed name free]

/-- A name that is new in its scope may be placed without a change of any other name. -/
theorem grows (stands : Stands context world env scopes lexical)
    (fresh : declared scopes name = false) (location : Location) (changed : changing env.frame) :
    world.Grows changing (world.declare env.frame name location lexical) := by
  cases stands with
  | top => exact .refl world
  | inner _ _ _ _ listed => exact .bind (listed name fresh) location changed

/-- Behind a declaration the new variable is seen as well. -/
theorem introduce (stands : Stands context world env scopes lexical)
    (fresh : declared scopes name = false) (location : Location) :
    Stands context (world.declare env.frame name location lexical) env (introduced scopes name)
      (lexical.extend name location) := by
  have grows : world.Grows (fun _ => True) (world.declare env.frame name location lexical) :=
    stands.grows fresh location trivial
  cases stands with
  | top => exact .top
  | inner other old sees settled listed =>
      refine .inner other old ?_ (Evaluation.settled_introduced settled name) ?_
      · exact (sees.grow grows).introduce settled (if_pos ⟨rfl, rfl⟩)
      · intro query free
        rw [Bindings.binds_put, Bindings.binds_put] at free
        simp only [Bool.or_eq_false_iff, decide_eq_false_iff_not] at free
        exact (if_neg fun same => free.1 same.2).trans (listed query free.2.2)

end Stands

/-- A declaration keeps states alike. -/
theorem RelatedStates.declare {state : Evaluation.State} {held : State} {value : Lox.Value}
    {same : Value} (related : RelatedStates context world state held)
    (stands : Stands context world env scopes lexical) (fresh : declared scopes name = false)
    (alike : Related context (world.declare env.frame name held.store.cells.size lexical) value
      same) :
    RelatedStates context (world.declare env.frame name held.store.cells.size lexical)
      { state with store := state.store.define env name value }
      { held with store := held.store.declare name same lexical } := by
  cases stands with
  | top => exact { related with memory := related.memory.writeGlobal alike name }
  | inner other old _ _ listed =>
      exact { related with memory := related.memory.declare other old (listed name fresh) alike }

/-- A variable is declared in both runs. -/
theorem declare_simulates {value : Lox.Value} {held : Value}
    (stands : Stands context world env scopes lexical) (fresh : declared scopes name = false)
    (alike : Related context world value held) :
    Simulates context (· = env.frame) world (Evaluation.define env name value)
      (declare lexical name held)
      (fun grown _ other => Stands context grown env (introduced scopes name) other) := by
  refine .modifyGet fun state stored related => ?_
  have grows : world.Grows (· = env.frame)
      (world.declare env.frame name stored.store.cells.size lexical) := stands.grows fresh _ rfl
  exact ⟨_, grows, related.declare stands fresh (alike.grow grows), stands.introduce fresh _⟩

/-- The parameters of a function that is checked have different names. -/
theorem parameters_distinct {scope : Scope} {outer : List Scope} {parameters : List Name}
    (checked : Checked context (visitParameters (scope :: outer) parameters)) :
    (parameters.map Located.item).Nodup ∧
      ∀ name ∈ parameters.map Located.item, scope.binds name = false := by
  induction parameters generalizing scope with
  | nil => simp
  | cons name rest ih =>
      have free : scope.binds name.item = false := checked.fresh
      obtain ⟨distinct, others⟩ := ih checked.tail
      have apart (query : String) (given : query ∈ rest.map Located.item) :
          name.item ≠ query ∧ scope.binds query = false := by
        have unbound := others query given
        rw [Bindings.binds_put, Bindings.binds_put] at unbound
        simpa using unbound
      rw [List.map_cons, List.nodup_cons, List.forall_mem_cons]
      exact ⟨⟨fun again => (apart _ again).1 rfl, distinct⟩, free,
        fun query given => (apart query given).2⟩

/-- A function is declared in both runs, and sees itself in both. -/
theorem declareFunction_simulates {span : Span} {name : Name} {parameters : List Name}
    {body : List Stmt} {inFunction : Bool} (stands : Stands context world env scopes lexical)
    (checked : Checked context
      (visitStmt scopes inFunction (.function span name parameters body)))
    (proper : Stmt.ProperAll body) :
    Simulates context (· = env.frame) world
      (makeClosure env name parameters body >>= Evaluation.define env name.item)
      (declareFunction lexical name parameters body)
      (fun grown _ other => Stands context grown env (introduced scopes name.item) other) := by
  rw [visitStmt] at checked
  have fresh := checked.fresh
  obtain ⟨listed, inside⟩ := checked_append.1 checked.tail
  intro state held related
  have grows : world.Grows (· = env.frame)
      (world.declare env.frame name.item held.store.cells.size lexical) := stands.grows fresh _ rfl
  have behind := stands.introduce fresh held.store.cells.size
  have alike : Related context
      (world.declare env.frame name.item held.store.cells.size lexical)
      (.closure ⟨state.closures, name.item, parameters.map Located.item, body, env⟩)
      (.closure ⟨held.closures, name.item, parameters.map Located.item, body,
        (lexical.extend name.item held.store.cells.size).locals⟩) :=
    .closure ⟨related.closures, rfl, rfl, rfl, (parameters_distinct listed).1, proper,
      introduced scopes name.item, behind.sees, behind.settled, inside⟩
  have made : RelatedStates context world { state with closures := state.closures + 1 }
      { held with closures := held.closures + 1 } :=
    { related with closures := congrArg (· + 1) related.closures }
  exact ⟨_, grows, made.declare stands fresh alike, behind⟩

/-- An introduced name is the only one that becomes declared. -/
theorem declared_introduced {name query : String} (other : name ≠ query)
    (fresh : declared scopes query = false) : declared (introduced scopes name) query = false := by
  cases scopes with
  | nil => rfl
  | cons scope outer =>
      have unbound : scope.binds query = false := fresh
      simp [declared, introduced, put, Bindings.binds_put, other, unbound]

/-- The parameters are declared one after the other. -/
theorem parameters_simulates {names : List String} {values : List Lox.Value} {same : List Value}
    (stands : Stands context world env scopes lexical) (distinct : names.Nodup)
    (fresh : ∀ name ∈ names, declared scopes name = false)
    (many : names.length = values.length)
    (alike : List.Forall₂ (Related context world) values same) :
    Simulates context (· = env.frame) world
      ((names.zip values).forM fun (name, value) => Evaluation.define env name value)
      ((names.zip same).foldlM (fun env (name, value) => declare env name value) lexical)
      (fun grown _ other => Stands context grown env (names.foldl introduced scopes) other) := by
  induction names generalizing world scopes lexical values same with
  | nil => exact .pure stands
  | cons name rest ih =>
      cases alike with
      | nil => cases many
      | cons first others =>
          obtain ⟨apart, distinct⟩ := List.nodup_cons.1 distinct
          obtain ⟨free, unbound⟩ := List.forall_mem_cons.1 fresh
          refine (declare_simulates stands free first).bind ?_
          intro _ _ inner grows behind
          have passed := others.imp fun _ _ given => given.grow grows
          refine ih behind distinct ?_ (Nat.succ.inj many) passed
          intro query given
          exact declared_introduced (fun again => apart (again ▸ given)) (unbound query given)

/-- Code goes on in a new frame where the other run only opens a scope. -/
theorem nest_simulates {γ δ : Type} {next : Lox.Env → Evaluation.Eval γ} {other : Eval δ}
    {result : World → γ → δ → Prop} {locals : Locals} {env : Lox.Env}
    (sees : Sees world env.frames scopes locals) (settled : ∀ scope ∈ scopes, Settled scope)
    (rest : ∀ inner, inner.frame = world.frames →
      Stands context world.push inner ([] :: scopes) (.inner locals) →
        Simulates context (· = inner.frame) world.push (next inner) other result) :
    Simulates context (fun _ => False) world (Evaluation.nest env >>= next) other result := by
  intro state held related
  have grows : world.Grows (· = world.frames) world.push := .push world
  have stands : Stands context world.push ⟨world.frames, env.frames⟩ ([] :: scopes)
      (.inner locals) := by
    refine .inner (Nat.ne_of_gt related.memory.present) (Nat.lt_succ_self _) ?_ ?_ ?_
    · exact (sees.grow grows).open_ settled world.frames
    · exact List.forall_mem_cons.2 ⟨Evaluation.settled_nil, settled⟩
    · exact fun name _ => related.memory.fresh name
  have pushed : RelatedStates context world.push { state with store := state.store.push } held :=
    { related with memory := related.memory.push }
  have nested : Evaluation.nest env state =
      .ok ⟨world.frames, env.frames⟩ { state with store := state.store.push } := by
    rw [← related.memory.frames]
    rfl
  rw [bind_of_ok nested]
  have behind := rest _ rfl stands pushed
  split at behind
  next =>
    obtain ⟨grown, growsOn, kept, given⟩ := behind
    exact ⟨grown, (grows.trans growsOn).weaken fun frame old same => Nat.ne_of_lt old same, kept,
      given⟩
  next => exact behind
  next => exact behind

/-- A call that passes enough arguments leads to a body that sees them. -/
theorem enter_simulates {γ δ : Type} {next : Lox.Env → Evaluation.Eval γ} {follow : Env → Eval δ}
    {result : World → γ → δ → Prop} {closure : Closure} {other : ClosureIn Locals}
    {given : List Lox.Value} {same : List Value} (alike : RelatedClosure context world closure other)
    (values : List.Forall₂ (Related context world) given same)
    (many : closure.parameters.length = given.length)
    (rest : ∀ grown inner scopes lexical, Stands context grown inner scopes lexical →
      Checked context (visitStmts scopes true closure.body) →
        Simulates context (· = inner.frame) grown (next inner) (follow lexical) result) :
    Simulates context (fun _ => False) world (Evaluation.enter closure given >>= next)
      (enter other same >>= follow) result := by
  obtain ⟨scopes, sees, settled, checked⟩ := alike.declared
  unfold Evaluation.enter enter
  rw [bind_assoc, ← alike.parameters]
  refine nest_simulates sees settled fun inner _ stands => ?_
  rw [bind_assoc]
  have grows : world.Grows (fun _ => True) world.push := .push world
  have passed := values.imp fun _ _ given => given.grow grows
  refine (parameters_simulates stands alike.distinct (fun _ _ => rfl) many passed).bind ?_
  intro grown _ lexical _ behind
  rw [pure_bind]
  exact rest grown inner _ lexical behind checked

end

end Lox.Lexical
