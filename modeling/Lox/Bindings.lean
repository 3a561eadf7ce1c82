/-
This file gives finite maps from names.
-/

namespace Lox

/-- The bindings list each name once, in the order of first binding. -/
abbrev Bindings (α : Type) := List (String × α)

namespace Bindings

variable {α : Type}

def value? : Bindings α → String → Option α
  | [], _ => none
  | (bound, value) :: rest, name => if bound = name then some value else value? rest name

def binds (bindings : Bindings α) (name : String) : Bool := (bindings.value? name).isSome

/-- A name is bound anew, or its value is replaced. -/
def put : Bindings α → String → α → Bindings α
  | [], name, value => [(name, value)]
  | (bound, old) :: rest, name, value =>
      if bound = name then (bound, value) :: rest else (bound, old) :: put rest name value

@[simp] theorem value?_nil (name : String) : value? ([] : Bindings α) name = none := rfl

/-- What is put for a name is found for this name, and other names keep what they have. -/
theorem value?_put (bindings : Bindings α) (name other : String) (value : α) :
    (bindings.put name value).value? other =
      if name = other then some value else bindings.value? other := by
  induction bindings with
  | nil => rfl
  | cons binding rest ih =>
      obtain ⟨bound, old⟩ := binding
      by_cases same : bound = name
      · subst same
        by_cases hit : bound = other <;> simp [put, value?, hit]
      · by_cases hit : bound = other
        · subst hit
          simp [put, value?, same, Ne.symm same]
        · simp [put, value?, same, hit, ih]

/-- A put name is bound, and no other name becomes so. -/
theorem binds_put (bindings : Bindings α) (name other : String) (value : α) :
    (bindings.put name value).binds other = (decide (name = other) || bindings.binds other) := by
  rw [binds, value?_put]
  by_cases same : name = other <;> simp [same, binds]

end Bindings

end Lox
