import Mathlib.Data.List.Forall2
import Lox.Proofs.Lexical.Evaluation
import Lox.Proofs.Run.Validity

namespace Lox.Resolution

open Evaluation (Settled)

/-- A name that is not being initialized is found at the first scope that binds it. -/
theorem distanceIn?_of_other {scopes : List Scope} {name : String}
    (other : initializing scopes name = false) :
    distanceIn? scopes name = scopes.findIdx? fun scope => scope.binds name := by
  simp [distanceIn?, other]

/-- A name that is being initialized is found outside the innermost scope. -/
theorem distanceIn?_of_initializing {scope : Scope} {outer : List Scope} {name : String}
    (pending : initializing (scope :: outer) name = true) :
    distanceIn? (scope :: outer) name =
      (outer.findIdx? fun scope => scope.binds name).map (· + 1) := by
  simp [distanceIn?, pending]

/-- Settled scopes initialize no name. -/
theorem initializing_of_settled {scopes : List Scope}
    (settled : ∀ scope ∈ scopes, Settled scope) (name : String) :
    initializing scopes name = false := by
  cases scopes with
  | nil => rfl
  | cons scope outer => exact decide_eq_false (settled scope List.mem_cons_self name)

/-- A name that is being declared is looked for where it was before. -/
theorem distanceIn?_pending {scope : Scope} {outer : List Scope}
    (settled : ∀ inner ∈ scope :: outer, Settled inner) {name : String}
    (fresh : scope.binds name = false) (query : String) :
    distanceIn? (put (scope :: outer) name false) query = distanceIn? (scope :: outer) query := by
  have before := initializing_of_settled settled query
  rw [distanceIn?_of_other before, List.findIdx?_cons]
  by_cases same : name = query
  · subst same
    have pending : initializing (put (scope :: outer) name false) name = true := by
      simp [initializing, put, Bindings.value?_put]
    rw [put, distanceIn?_of_initializing pending, fresh]
    rfl
  · have other : initializing (put (scope :: outer) name false) query = false := by
      simp only [initializing, put, Bindings.value?_put, if_neg same]
      exact before
    rw [distanceIn?_of_other other, put, List.findIdx?_cons, Bindings.binds_put,
      decide_eq_false same, Bool.false_or]

/-- A name that has been declared is found in the innermost scope. -/
theorem distanceIn?_introduced {scope : Scope} {outer : List Scope}
    (settled : ∀ inner ∈ scope :: outer, Settled inner) (name query : String) :
    distanceIn? (introduced (scope :: outer) name) query =
      if name = query then some 0 else distanceIn? (scope :: outer) query := by
  have before := initializing_of_settled settled query
  have after := initializing_of_settled (Evaluation.settled_introduced settled name) query
  rw [distanceIn?_of_other after, distanceIn?_of_other before, introduced, put, put,
    List.findIdx?_cons, List.findIdx?_cons, Bindings.binds_put, Bindings.binds_put]
  by_cases same : name = query <;> simp [same]

/-- A new scope is one more scope to pass. -/
theorem distanceIn?_open {scopes : List Scope} (settled : ∀ scope ∈ scopes, Settled scope)
    (query : String) :
    distanceIn? ([] :: scopes) query = (distanceIn? scopes query).map (· + 1) := by
  rw [distanceIn?_of_other (initializing_of_settled settled query),
    distanceIn?_of_other (by rfl : initializing ([] :: scopes) query = false),
    List.findIdx?_cons]
  rfl

end Lox.Resolution

namespace Lox.Lexical

open Resolution
open Evaluation (Context Settled)

/-- A world has the frames made so far, and the location of each variable in them. -/
structure World where
  frames : Nat
  location? : FrameId → String → Option Location

namespace World

/-- A new frame has no variables. -/
def push (world : World) : World := { world with frames := world.frames + 1 }

/-- A frame gets a variable. -/
def bind (world : World) (frame : FrameId) (name : String) (location : Location) : World :=
  { world with
    location? := fun other query =>
      if frame = other ∧ name = query then some location else world.location? other query }

/-- A name found after a binding is the bound one, or it was found before. -/
theorem bind_cases {world : World} {frame other : FrameId} {name query : String}
    {new location : Location}
    (found : (world.bind frame name new).location? other query = some location) :
    (frame = other ∧ name = query ∧ new = location) ∨
      (¬ (frame = other ∧ name = query) ∧ world.location? other query = some location) := by
  by_cases same : frame = other ∧ name = query
  · exact .inl ⟨same.1, same.2, Option.some.inj ((if_pos same).symm.trans found)⟩
  · exact .inr ⟨same, (if_neg same).symm.trans found⟩

/-- A world grows when it keeps its variables and gets others only in new frames and in those that
may change. -/
structure Grows (changing : FrameId → Prop) (before after : World) : Prop where
  frames : before.frames ≤ after.frames
  kept : ∀ ⦃frame : FrameId⦄ ⦃name : String⦄ ⦃location : Location⦄,
    before.location? frame name = some location → after.location? frame name = some location
  others : ∀ ⦃frame : FrameId⦄, frame < before.frames → ¬ changing frame → ∀ name,
    after.location? frame name = before.location? frame name

namespace Grows

variable {changing more : FrameId → Prop} {before middle after : World}

theorem refl (world : World) : Grows changing world world :=
  ⟨Nat.le_refl _, fun _ _ _ => id, fun _ _ _ _ => rfl⟩

theorem trans (first : Grows changing before middle) (second : Grows changing middle after) :
    Grows changing before after := by
  refine ⟨Nat.le_trans first.frames second.frames, ?_, ?_⟩
  · intro frame name location found
    exact second.kept (first.kept found)
  · intro frame old other name
    exact (second.others (Nat.lt_of_lt_of_le old first.frames) other name).trans
      (first.others old other name)

/-- Frames that are new may change in any case. -/
theorem weaken (grows : Grows changing before after)
    (within : ∀ frame < before.frames, changing frame → more frame) :
    Grows more before after :=
  ⟨grows.frames, grows.kept, fun frame old other =>
    grows.others old fun changed => other (within frame old changed)⟩

theorem push (world : World) : Grows changing world world.push :=
  ⟨Nat.le_succ _, fun _ _ _ => id, fun _ _ _ _ => rfl⟩

theorem bind {world : World} {frame : FrameId} {name : String}
    (fresh : world.location? frame name = none) (location : Location) (changed : changing frame) :
    Grows changing world (world.bind frame name location) := by
  refine ⟨Nat.le_refl _, ?_, ?_⟩
  · intro other query found given
    have differs : ¬ (frame = other ∧ name = query) := by
      rintro ⟨rfl, rfl⟩
      cases fresh.symm.trans given
    exact (if_neg differs).trans given
  · intro other _ unchanged query
    exact if_neg fun (same : frame = other ∧ name = query) => unchanged (same.1 ▸ changed)

end Grows

end World

/-- Code sees the same variables in its frames and in a map: the map has the location of a name in
the frame at its distance, or it has none if there is no distance. -/
def Sees (world : World) (frames : List FrameId) (scopes : List Scope) (locals : Locals) : Prop :=
  ∀ name, match distanceIn? scopes name with
    | none => locals.value? name = none
    | some distance => ∃ frame location, frames[distance]? = some frame ∧
        world.location? frame name = some location ∧ locals.value? name = some location

namespace Sees

variable {changing : FrameId → Prop} {world after : World} {frames : List FrameId} {frame : FrameId}
  {scopes : List Scope} {locals : Locals}

theorem nothing (world : World) (frames : List FrameId) : Sees world frames [] [] := fun _ => rfl

/-- What is seen stays so when the world grows. -/
theorem grow (sees : Sees world frames scopes locals) (grows : world.Grows changing after) :
    Sees after frames scopes locals := by
  intro name
  have here := sees name
  split
  next missing => simpa only [missing] using here
  next distance found =>
    simp only [found] at here
    obtain ⟨frame, location, given, placed, listed⟩ := here
    exact ⟨frame, location, given, grows.kept placed, listed⟩

/-- The distances are all that code sees of its scopes. -/
theorem of_distances {others : List Scope} (sees : Sees world frames scopes locals)
    (same : ∀ name, distanceIn? others name = distanceIn? scopes name) :
    Sees world frames others locals := by
  intro name
  rw [same name]
  exact sees name

/-- Behind a new frame and a new scope code sees what it has seen before. -/
theorem open_ (sees : Sees world frames scopes locals)
    (settled : ∀ scope ∈ scopes, Settled scope) (frame : FrameId) :
    Sees world (frame :: frames) ([] :: scopes) locals := by
  intro name
  have here := sees name
  rw [distanceIn?_open settled]
  cases found : distanceIn? scopes name with
  | none =>
      simp only [found] at here
      exact here
  | some distance =>
      simp only [found] at here
      exact here

/-- Behind a declaration code sees the new variable and the other ones. -/
theorem introduce {scope : Scope} {outer : List Scope} {name : String} {location : Location}
    (sees : Sees world (frame :: frames) (scope :: outer) locals)
    (settled : ∀ inner ∈ scope :: outer, Settled inner)
    (placed : world.location? frame name = some location) :
    Sees world (frame :: frames) (introduced (scope :: outer) name) (locals.put name location) := by
  intro query
  rw [distanceIn?_introduced settled, Bindings.value?_put]
  by_cases same : name = query
  · subst same
    rw [if_pos rfl, if_pos rfl]
    exact ⟨frame, location, rfl, placed, rfl⟩
  · rw [if_neg same, if_neg same]
    exact sees query

end Sees

end Lox.Lexical
