import Lox.Evaluation
import Lox.Proofs.Scope.Numbering

namespace Lox.Evaluation

open Resolution

/-- A store keeps another one when it has all of its frames and binds all of its names. -/
structure Keeps (before after : Store Value) : Prop where
  frames : before.frames.size ≤ after.frames.size
  bound : ∀ ⦃frame : FrameId⦄ ⦃name : String⦄, (before.read? frame name).isSome →
    (after.read? frame name).isSome

namespace Keeps

variable {before middle after : Store Value}

theorem refl (store : Store Value) : Keeps store store := ⟨Nat.le_refl _, fun _ _ => id⟩

theorem trans (first : Keeps before middle) (second : Keeps middle after) : Keeps before after :=
  ⟨Nat.le_trans first.frames second.frames, fun _ _ given => second.bound (first.bound given)⟩

/-- A write binds a name or replaces its value. -/
theorem write (store : Store Value) (frame : FrameId) (name : String) (value : Value) :
    Keeps store (store.write frame name value) := by
  by_cases present : frame < store.frames.size
  · refine ⟨by simp [Store.write], fun other query given => ?_⟩
    rw [Store.read?_write store frame other name query value present]
    split
    · rfl
    · exact given
  · rw [Store.write_of_absent store frame name value present]
    exact .refl store

theorem push (store : Store Value) : Keeps store store.push :=
  ⟨by simp [Store.push], fun frame name given => by rwa [Store.read?_push]⟩

end Keeps

/-- No initializer of a scope is being passed. -/
def Settled (scope : Scope) : Prop := ∀ name, scope.value? name ≠ some false

/-- Some frames fit some open scopes when each scope has a frame that is not the global one and
binds what the scope has passed, and the global frame lies outside of them. -/
inductive Fits (globals : FrameId) (store : Store Value) : List FrameId → List Scope → Prop
  | globals : Fits globals store [globals] []
  | scope {frame : FrameId} {frames : List FrameId} {scope : Scope} {scopes : List Scope}
      (present : frame < store.frames.size) (other : frame ≠ globals)
      (bound : ∀ ⦃name : String⦄, scope.value? name = some true →
        (store.read? frame name).isSome)
      (outer : Fits globals store frames scopes) (settled : ∀ scope ∈ scopes, Settled scope) :
      Fits globals store (frame :: frames) (scope :: scopes)

namespace Fits

variable {globals : FrameId} {store after : Store Value} {frames : List FrameId}
  {scopes : List Scope}

/-- Frames fit their scopes when bindings are kept. -/
theorem keep (fits : Fits globals store frames scopes) (keeps : Keeps store after) :
    Fits globals after frames scopes := by
  induction fits with
  | globals => exact .globals
  | scope present other bound outer settled ih =>
      exact .scope (Nat.lt_of_lt_of_le present keeps.frames) other
        (fun _ given => keeps.bound (bound given)) ih settled

/-- The frame of a scope is not the global one, and it binds what the scope has passed. -/
theorem frame_of_scope (fits : Fits globals store frames scopes) {distance : Nat} {scope : Scope}
    (open_ : scopes[distance]? = some scope) :
    ∃ frame, frames[distance]? = some frame ∧ frame ≠ globals ∧
      ∀ ⦃name⦄, scope.value? name = some true → (store.read? frame name).isSome := by
  induction fits generalizing distance with
  | globals => simp at open_
  | @scope frame _ _ _ _ other bound _ _ ih =>
      cases distance with
      | zero =>
          cases open_
          exact ⟨frame, rfl, other, bound⟩
      | succ distance => exact ih open_

end Fits

theorem settled_nil : Settled [] := nofun

/-- A scope is settled again when the name that it initializes is. -/
theorem settled_put {scope : Scope} (settled : Settled scope) (name : String) :
    Settled (Bindings.put (Bindings.put scope name false) name true) := by
  intro other
  rw [Bindings.value?_put, Bindings.value?_put]
  split
  · decide
  · exact settled other

/-- The scopes behind a declaration are settled if those before it are. -/
theorem settled_introduced {scopes : List Scope} (settled : ∀ scope ∈ scopes, Settled scope)
    (name : String) : ∀ scope ∈ introduced scopes name, Settled scope := by
  cases scopes with
  | nil => exact nofun
  | cons scope outer =>
      intro inner given
      rcases List.mem_cons.1 given with rfl | given
      · exact settled_put (settled scope List.mem_cons_self) name
      · exact settled inner (List.mem_cons_of_mem _ given)

/-- A settled scope has initialized what it binds. -/
theorem binds_of_settled {scope : Scope} {name : String} (settled : Settled scope)
    (bound : scope.binds name = true) : scope.value? name = some true := by
  obtain ⟨passed, found⟩ := Option.isSome_iff_exists.1 bound
  cases passed with
  | true => exact found
  | false => exact absurd found (settled name)

/-- The distance of an occurrence leads to a scope that has passed its name. -/
theorem scope_of_distanceIn? {scopes : List Scope} {name : String} {distance : Nat}
    (settled : ∀ scope ∈ scopes.tail, Settled scope)
    (found : distanceIn? scopes name = some distance) :
    ∃ scope, scopes[distance]? = some scope ∧ scope.value? name = some true := by
  have within {scopes : List Scope} {index : Nat}
      (first : (scopes.findIdx? fun scope => scope.binds name) = some index) :
      ∃ scope, scopes[index]? = some scope ∧ scope.binds name = true := by
    obtain ⟨inside, bound, -⟩ := List.findIdx?_eq_some_iff_getElem.1 first
    exact ⟨_, List.getElem?_eq_getElem inside, bound⟩
  unfold distanceIn? at found
  cases scopes with
  | nil => simp [initializing] at found
  | cons scope outer =>
      have passed {index : Nat} {inner : Scope} (given : outer[index]? = some inner)
          (bound : inner.binds name = true) : inner.value? name = some true :=
        binds_of_settled (settled inner (List.mem_of_getElem? given)) bound
      cases pending : initializing (scope :: outer) name with
      | true =>
          -- The innermost scope is left out.
          rw [pending] at found
          obtain ⟨index, first, rfl⟩ := Option.map_eq_some_iff.1 found
          obtain ⟨inner, given, bound⟩ := within first
          exact ⟨inner, given, passed given bound⟩
      | false =>
          rw [pending] at found
          obtain ⟨index, first, rfl⟩ := Option.map_eq_some_iff.1 found
          obtain ⟨inner, given, bound⟩ := within first
          refine ⟨inner, given, ?_⟩
          cases index with
          | zero =>
              cases given
              obtain ⟨state, same⟩ := Option.isSome_iff_exists.1 bound
              cases state with
              | true => exact same
              | false => simp [initializing, same] at pending
          | succ index => exact passed given bound

section
variable (context : Context)

/-- A closure is valid when the frames that it sees fit the scopes of its declaration, and the
distances agree with the visits of its body. -/
def ValidClosure (store : Store Value) (closure : Closure) : Prop :=
  ∃ scopes, Fits context.globals.frame store closure.env.frames scopes ∧
    (∀ scope ∈ scopes, Settled scope) ∧
    Agrees context.distances (visitStmts (bodyScopes scopes closure.parameters) true closure.body) ∧
    Stmt.ProperAll closure.body

/-- A value is valid when it is no closure or a valid one. -/
def Valid (store : Store Value) (value : Value) : Prop :=
  ∀ ⦃closure⦄, value = .closure closure → ValidClosure context store closure

/-- A store is valid when it has a global frame without another one outside of it, and holds valid
values only. -/
structure ValidStore (store : Store Value) : Prop where
  alone : context.globals.outer = []
  present : context.globals.frame < store.frames.size
  values : ∀ ⦃frame : FrameId⦄ ⦃name : String⦄ ⦃value : Value⦄,
    store.read? frame name = some value → Valid context store value

end

section
variable {context : Context} {store after : Store Value} {env : Env} {scopes : List Scope}

/-- A value stays valid when bindings are kept. -/
theorem Valid.keep {value : Value} (valid : Valid context store value)
    (keeps : Keeps store after) : Valid context after value := by
  intro closure same
  obtain ⟨scopes, fits, settled, agrees, proper⟩ := valid same
  exact ⟨scopes, fits.keep keeps, settled, agrees, proper⟩

/-- A value that is no closure is valid in every store. -/
theorem valid_of_not_closure {value : Value} (other : ∀ closure, value ≠ .closure closure) :
    Valid context store value :=
  fun closure same => absurd same (other closure)

/-- A valid value may be written anywhere. -/
theorem ValidStore.write {value : Value} (valid : ValidStore context store) (frame : FrameId)
    (name : String) (new : Valid context (store.write frame name value) value) :
    ValidStore context (store.write frame name value) := by
  by_cases present : frame < store.frames.size
  · have keeps := Keeps.write store frame name value
    refine ⟨valid.alone, Nat.lt_of_lt_of_le valid.present keeps.frames, ?_⟩
    intro other query found given
    rw [Store.read?_write store frame other name query value present] at given
    split at given
    · cases given
      exact new
    · exact (valid.values given).keep keeps
  · rw [Store.write_of_absent store frame name value present]
    exact valid

/-- A new frame keeps the store valid. -/
theorem ValidStore.push (valid : ValidStore context store) : ValidStore context store.push := by
  have keeps := Keeps.push store
  refine ⟨valid.alone, Nat.lt_of_lt_of_le valid.present keeps.frames, ?_⟩
  intro frame name value given
  rw [Store.read?_push] at given
  exact (valid.values given).keep keeps

/-- The scopes outside the innermost one are settled. -/
theorem Fits.settled_tail {globals : FrameId} {frames : List FrameId}
    (fits : Fits globals store frames scopes) : ∀ scope ∈ scopes.tail, Settled scope := by
  cases fits with
  | globals => exact nofun
  | scope _ _ _ _ settled => exact settled

/-- A name whose initializer comes next needs no binding yet. -/
theorem Fits.declare {globals : FrameId} {frames : List FrameId}
    (fits : Fits globals store frames scopes) (name : String) :
    Fits globals store frames (put scopes name false) := by
  cases fits with
  | globals => exact .globals
  | scope present other bound outer settled =>
      refine .scope present other (fun query given => ?_) outer settled
      rw [Bindings.value?_put] at given
      split at given
      · cases given
      · exact bound given

/-- A name that is defined in the innermost frame is passed by the innermost scope. -/
theorem Fits.define {globals : FrameId} (fits : Fits globals store env.frames scopes)
    (name : String) (value : Value) :
    Fits globals (store.define env name value) env.frames (introduced scopes name) := by
  have keeps := Keeps.write store env.frame name value
  obtain ⟨frame, outer⟩ := env
  cases fits with
  | globals => exact .globals
  | scope present other bound outer settled =>
      refine .scope (Nat.lt_of_lt_of_le present keeps.frames) other (fun query given => ?_)
        (outer.keep keeps) settled
      rw [Store.define, Store.read?_write store _ _ _ _ _ present]
      rw [Bindings.value?_put, Bindings.value?_put] at given
      split at given
      next same => simp [same]
      next differs =>
        rw [if_neg (fun both => differs both.2)]
        exact bound given

/-- A new frame fits a new scope. -/
theorem Fits.child {globals : FrameId} (fits : Fits globals store env.frames scopes)
    (settled : ∀ scope ∈ scopes, Settled scope) (present : globals < store.frames.size) :
    Fits globals (store.child env).2 (store.child env).1.frames ([] :: scopes) := by
  refine .scope ?_ ?_ nofun (fits.keep (.push store)) settled
  · simp [Store.child, Store.push]
  · exact Nat.ne_of_gt present

/-- The distance of an occurrence leads to a frame that is not the global one and binds the
name. -/
theorem Fits.frame_of_distance {globals : FrameId} {frames : List FrameId} {name : String}
    {distance : Nat} (fits : Fits globals store frames scopes)
    (found : distanceIn? scopes name = some distance) :
    ∃ frame, frames[distance]? = some frame ∧ frame ≠ globals ∧
      (store.read? frame name).isSome := by
  obtain ⟨scope, open_, passed⟩ := scope_of_distanceIn? fits.settled_tail found
  obtain ⟨frame, given, other, bound⟩ := fits.frame_of_scope open_
  exact ⟨frame, given, other, bound passed⟩

end

end Lox.Evaluation
