import Lox.Proofs.Store.Parents

namespace Lox

/-- Environments over one store, where several may have the same frame. The parents are those that
the frames were made with. -/
structure Forest (α : Type) where
  envs : List Env
  parents : Parents
  store : Store α

namespace Forest

variable {α : Type}

def empty : Forest α := ⟨[], [], .empty⟩

/-- A new frame without a parent gets an environment. -/
def root (forest : Forest α) : Forest α :=
  ⟨forest.store.root.1 :: forest.envs, forest.parents ++ [none], forest.store.root.2⟩

/-- A new frame inside of an environment gets one too. -/
def child (forest : Forest α) (env : Env) : Forest α :=
  ⟨(forest.store.child env).1 :: forest.envs, forest.parents ++ [some env.frame],
    (forest.store.child env).2⟩

/-- One more handle on the frame of an environment. -/
def clone (forest : Forest α) (env : Env) : Forest α :=
  { forest with envs := env :: forest.envs }

/-- A write that fails leaves everything as it is. -/
def settle (forest : Forest α) : Except Store.Fault (Store α) → Forest α
  | .ok store => { forest with store }
  | .error _ => forest

/-- An operation on one of the environments leads from a collection to another one. -/
inductive Step (forest : Forest α) : Forest α → Prop
  | root : Step forest forest.root
  | child {env : Env} (among : env ∈ forest.envs) : Step forest (forest.child env)
  | clone {env : Env} (among : env ∈ forest.envs) : Step forest (forest.clone env)
  | define {env : Env} (among : env ∈ forest.envs) (name : String) (value : α) :
      Step forest { forest with store := forest.store.define env name value }
  | assign {env : Env} (among : env ∈ forest.envs) (name : String) (value : α) :
      Step forest (forest.settle (forest.store.assign env name value))
  | assignAt {env : Env} (among : env ∈ forest.envs) (name : String) (value : α)
      (distance : Nat) : Step forest (forest.settle (forest.store.assignAt env name value distance))

/-- Some operations lead from nothing to a collection. -/
def Built (forest : Forest α) : Prop := Relation.ReflTransGen Step empty forest

/-- Every frame has a parent or is known to have none, parents are older, and every environment
follows them. -/
structure Coherent (forest : Forest α) : Prop where
  size : forest.parents.length = forest.store.frames.size
  ordered : forest.parents.Ordered
  follows : ∀ env ∈ forest.envs, forest.parents.Follows env.frames

namespace Coherent

variable {forest after : Forest α} {env : Env}

/-- Every frame of an environment is in the store. -/
theorem present (coherent : Coherent forest) (among : env ∈ forest.envs) :
    ∀ frame ∈ env.frames, frame < forest.store.frames.size := by
  rw [← coherent.size]
  exact (coherent.follows env among).present

/-- What is written does not change the chains. -/
theorem write (coherent : Coherent forest) (frame : FrameId) (name : String) (value : α) :
    Coherent { forest with store := forest.store.write frame name value } :=
  ⟨by simp only [Store.write, Array.size_modify]; exact coherent.size, coherent.ordered,
    coherent.follows⟩

/-- The frame that an access finds gets the value, or the access fails. -/
theorem settle (coherent : Coherent forest) (found : Except Store.Fault FrameId) (name : String)
    (value : α) :
    Coherent (forest.settle do return forest.store.write (← found) name value) := by
  cases found with
  | ok frame => exact coherent.write frame name value
  | error => exact coherent

/-- One operation leaves a collection coherent. -/
theorem step (coherent : Coherent forest) (leads : Step forest after) : Coherent after := by
  have grown (parent : Option FrameId) :
      (forest.parents ++ [parent]).length = forest.store.push.frames.size := by
    simp only [List.length_append, List.length_singleton, Store.push, Array.size_push,
      coherent.size]
  cases leads with
  | root =>
      refine ⟨grown none, Parents.ordered_root coherent.ordered, fun env among => ?_⟩
      rcases List.mem_cons.1 among with rfl | earlier
      · have alone := Parents.Follows.root forest.parents
        rw [coherent.size] at alone
        exact alone
      · exact (coherent.follows env earlier).append _
  | @child inner among =>
      refine ⟨grown (some inner.frame), Parents.ordered_child coherent.ordered ?_,
        fun env given => ?_⟩
      · exact (coherent.follows inner among).present _ List.mem_cons_self
      · rcases List.mem_cons.1 given with rfl | earlier
        · have linked := Parents.Follows.child (coherent.follows inner among)
          rw [coherent.size] at linked
          exact linked
        · exact (coherent.follows env earlier).append _
  | clone among =>
      refine ⟨coherent.size, coherent.ordered, fun env given => ?_⟩
      rcases List.mem_cons.1 given with rfl | earlier
      · exact coherent.follows _ among
      · exact coherent.follows env earlier
  | define among name value => exact coherent.write _ name value
  | assign among name value => exact coherent.settle _ name value
  | assignAt among name value distance => exact coherent.settle _ name value

end Coherent

/-- All collections that can be built are coherent. -/
theorem Built.coherent {forest : Forest α} (built : Built forest) : Coherent forest := by
  induction built with
  | refl => exact ⟨rfl, nofun, nofun⟩
  | tail _ leads ih => exact ih.step leads

end Forest

end Lox
