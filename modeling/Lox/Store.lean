/-
This file gives the frames that hold the values of variables, and the chains of frames that
code sees.
-/

import Lox.Bindings

namespace Lox

/-- A frame is known by its number in the store. -/
abbrev FrameId := Nat

/-- An environment is a chain of frames, from the innermost outwards. -/
structure Env where
  frame : FrameId
  outer : List FrameId
  deriving DecidableEq, Repr

/-- The frames of an environment, each with its distance as its index. -/
def Env.frames (env : Env) : List FrameId := env.frame :: env.outer

/-- The store holds the bindings of every frame ever made. -/
structure Store (α : Type) where
  frames : Array (Bindings α)

namespace Store

variable {α : Type}

def empty : Store α := ⟨#[]⟩

/-- The value of a name in one frame. -/
def read? (store : Store α) (frame : FrameId) (name : String) : Option α := do
  (← store.frames[frame]?).value? name

/-- The name gets the value in one frame. -/
def write (store : Store α) (frame : FrameId) (name : String) (value : α) : Store α :=
  ⟨store.frames.modify frame fun bindings => bindings.put name value⟩

/-- A write to a frame is read back for its name, and nothing else changes. -/
theorem read?_write (store : Store α) (frame other : FrameId) (name query : String) (value : α)
    (present : frame < store.frames.size) :
    (store.write frame name value).read? other query =
      if frame = other ∧ name = query then some value else store.read? other query := by
  simp only [read?, write, Array.getElem?_modify]
  by_cases same : frame = other
  · subst same
    simp [present, Bindings.value?_put]
  · simp [same]

/-- Nothing is written to a frame that is not there. -/
theorem write_of_absent (store : Store α) (frame : FrameId) (name : String) (value : α)
    (absent : ¬ frame < store.frames.size) : store.write frame name value = store := by
  have same : (store.frames.modify frame fun bindings => bindings.put name value) =
      store.frames := by
    apply Array.ext
    · exact Array.size_modify
    · intro index _ inside
      have other : frame ≠ index := fun equal => absent (equal ▸ inside)
      rw [Array.getElem_modify, if_neg other]
  rw [write, same]

/-- A new frame has no bindings. -/
def push (store : Store α) : Store α := ⟨store.frames.push []⟩

/-- A new frame binds nothing. -/
theorem read?_push (store : Store α) (frame : FrameId) (name : String) :
    store.push.read? frame name = store.read? frame name := by
  simp only [read?, push, Array.getElem?_push]
  by_cases fresh : frame = store.frames.size
  · subst fresh
    simp
  · simp [fresh]

/-- A new environment whose one frame is new. -/
def root (store : Store α) : Env × Store α := (⟨store.frames.size, []⟩, store.push)

/-- A new frame in front of an environment. -/
def child (store : Store α) (env : Env) : Env × Store α :=
  (⟨store.frames.size, env.frames⟩, store.push)

/-- The name is bound in the innermost frame, or its value there is replaced. -/
def define (store : Store α) (env : Env) (name : String) (value : α) : Store α :=
  store.write env.frame name value

/-- An access fails because its frame does not bind the name, or because the chain of frames
ends before it. -/
inductive Fault where
  | unbound
  | lostScope
  deriving DecidableEq, Repr

/-- The innermost frame that binds a name. -/
def frameOf (store : Store α) (env : Env) (name : String) : Except Fault FrameId :=
  match env.frames.find? fun frame => (store.read? frame name).isSome with
  | none => .error .unbound
  | some frame => .ok frame

/-- The frame at a distance, if it binds a name. -/
def frameAt (store : Store α) (env : Env) (name : String) (distance : Nat) :
    Except Fault FrameId :=
  match env.frames[distance]? with
  | none => .error .lostScope
  | some frame => if (store.read? frame name).isSome then .ok frame else .error .unbound

/-- The value of a name in a frame that binds it. -/
def readIn (store : Store α) (frame : FrameId) (name : String) : Except Fault α :=
  match store.read? frame name with
  | none => .error .unbound
  | some value => .ok value

/-- The value of a name in the innermost frame that binds it. -/
def get (store : Store α) (env : Env) (name : String) : Except Fault α := do
  store.readIn (← store.frameOf env name) name

/-- The value of a name in the frame at a distance. -/
def getAt (store : Store α) (env : Env) (name : String) (distance : Nat) : Except Fault α := do
  store.readIn (← store.frameAt env name distance) name

/-- The innermost frame that binds a name gets a new value for it. -/
def assign (store : Store α) (env : Env) (name : String) (value : α) :
    Except Fault (Store α) := do
  return store.write (← store.frameOf env name) name value

/-- The frame at a distance gets a new value for a name that it binds. -/
def assignAt (store : Store α) (env : Env) (name : String) (value : α) (distance : Nat) :
    Except Fault (Store α) := do
  return store.write (← store.frameAt env name distance) name value

end Store

end Lox
