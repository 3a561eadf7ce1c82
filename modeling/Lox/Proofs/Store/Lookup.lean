import Lox.Proofs.Store.Forest
import Mathlib.Data.List.Find

namespace Lox.Forest

variable {α : Type}

/-- The search for a name goes from parent to parent until a frame binds the name. -/
inductive Searches (parents : Parents) (store : Store α) (name : String) :
    FrameId → Except Store.Fault FrameId → Prop
  | found {frame : FrameId} (bound : (store.read? frame name).isSome) :
      Searches parents store name frame (.ok frame)
  | outward {frame parent : FrameId} {result : Except Store.Fault FrameId}
      (unbound : store.read? frame name = none) (linked : parents.Links frame parent)
      (further : Searches parents store name parent result) :
      Searches parents store name frame result
  | ended {frame : FrameId} (unbound : store.read? frame name = none)
      (alone : parents[frame]? = some none) : Searches parents store name frame (.error .unbound)

/-- The nearest frame of a chain that binds a name is at a distance. -/
structure NearestAt (store : Store α) (env : Env) (name : String) (distance : Nat)
    (frame : FrameId) : Prop where
  given : env.frames[distance]? = some frame
  bound : (store.read? frame name).isSome
  nearest : ∀ nearer < distance, ∀ other, env.frames[nearer]? = some other →
    store.read? other name = none

section
variable {parents : Parents} {store : Store α} {env : Env} {name : String}

/-- A search comes to one end only. -/
theorem Searches.unique {frame : FrameId} {first second : Except Store.Fault FrameId}
    (searches : Searches parents store name frame first)
    (again : Searches parents store name frame second) : first = second := by
  induction searches with
  | found bound =>
      cases again with
      | found => rfl
      | outward unbound | ended unbound => simp [unbound] at bound
  | outward unbound linked _ ih =>
      cases again with
      | found bound => simp [unbound] at bound
      | outward _ relinked further =>
          cases linked.symm.trans relinked
          exact ih further
      | ended _ alone => cases linked.symm.trans alone
  | ended unbound alone =>
      cases again with
      | found bound => simp [unbound] at bound
      | outward _ linked => cases linked.symm.trans alone
      | ended => rfl

/-- The search along a chain ends at its innermost frame that binds the name. -/
theorem searches_frameOf (follows : parents.Follows env.frames) :
    Searches parents store name env.frame (store.frameOf env name) := by
  obtain ⟨frame, outer⟩ := env
  unfold Store.frameOf
  generalize whole : Env.frames ⟨frame, outer⟩ = frames at follows
  induction follows generalizing frame outer with
  | last alone =>
      cases whole
      cases found : store.read? frame name with
      | none =>
          simp only [List.find?_cons, List.find?_nil, found, Option.isSome_none]
          exact .ended found alone
      | some value =>
          simp only [List.find?_cons, found, Option.isSome_some]
          exact .found (by rw [found]; rfl)
  | @link _ parent outer linked _ ih =>
      cases whole
      cases found : store.read? frame name with
      | none =>
          rw [List.find?_cons, found]
          exact .outward found linked (ih parent outer rfl)
      | some value =>
          simp only [List.find?_cons, found, Option.isSome_some]
          exact .found (by rw [found]; rfl)

/-- A name is found in the nearest frame that binds it. -/
theorem frameOf_eq_ok {frame : FrameId} :
    store.frameOf env name = .ok frame ↔ ∃ distance, NearestAt store env name distance frame := by
  have found : store.frameOf env name = .ok frame ↔
      (env.frames.find? fun frame => (store.read? frame name).isSome) = some frame := by
    unfold Store.frameOf
    cases env.frames.find? fun frame => (store.read? frame name).isSome <;> simp
  rw [found, List.find?_eq_some_iff_getElem]
  constructor
  · rintro ⟨bound, distance, inside, given, nearest⟩
    refine ⟨distance, List.getElem?_eq_some_iff.2 ⟨inside, given⟩, bound, ?_⟩
    intro nearer before other there
    obtain ⟨_, rfl⟩ := List.getElem?_eq_some_iff.1 there
    have unbound := nearest nearer before
    rw [Bool.not_eq_true', Option.isSome_eq_false_iff, Option.isNone_iff_eq_none] at unbound
    exact unbound
  · rintro ⟨distance, given, bound, nearest⟩
    obtain ⟨inside, there⟩ := List.getElem?_eq_some_iff.1 given
    refine ⟨bound, distance, inside, there, fun nearer before => ?_⟩
    rw [nearest nearer before _ (List.getElem?_eq_getElem _)]
    rfl

/-- A name is not found when no frame of the chain binds it. -/
theorem frameOf_eq_error {fault : Store.Fault} :
    store.frameOf env name = .error fault ↔
      fault = .unbound ∧ ∀ frame ∈ env.frames, store.read? frame name = none := by
  have missing : (env.frames.find? fun frame => (store.read? frame name).isSome) = none ↔
      ∀ frame ∈ env.frames, store.read? frame name = none := by
    simp only [List.find?_eq_none, Bool.not_eq_true, Option.isSome_eq_false_iff,
      Option.isNone_iff_eq_none]
  rw [← missing]
  unfold Store.frameOf
  cases env.frames.find? fun frame => (store.read? frame name).isSome with
  | none => simp [eq_comm]
  | some frame => simp

/-- The nearest frame that binds a name is the one at its distance. -/
theorem NearestAt.frameAt {distance : Nat} {frame : FrameId}
    (nearest : NearestAt store env name distance frame) :
    store.frameAt env name distance = .ok frame := by
  simp only [Store.frameAt, nearest.given, nearest.bound, ↓reduceIte]

/-- The frame at a distance is found when it exists and binds the name. -/
theorem frameAt_eq_ok {distance : Nat} {frame : FrameId} :
    store.frameAt env name distance = .ok frame ↔
      env.frames[distance]? = some frame ∧ (store.read? frame name).isSome := by
  unfold Store.frameAt
  cases env.frames[distance]? with
  | none => simp
  | some other =>
      simp only [Option.some.injEq]
      split
      next bound =>
        rw [Except.ok.injEq]
        exact ⟨fun same => ⟨same, same ▸ bound⟩, And.left⟩
      next unbound => exact iff_of_false nofun fun both => unbound (both.1 ▸ both.2)

/-- There is no scope at a distance beyond the chain. -/
theorem frameAt_lost {distance : Nat} :
    store.frameAt env name distance = .error .lostScope ↔ env.outer.length < distance := by
  have beyond : env.frames[distance]? = none ↔ env.outer.length < distance := by
    rw [List.getElem?_eq_none_iff]
    exact Nat.succ_le_iff
  rw [← beyond]
  unfold Store.frameAt
  cases env.frames[distance]? with
  | none => exact iff_of_true rfl rfl
  | some other =>
      simp only [reduceCtorEq, iff_false]
      split <;> nofun

/-- A lookup reads from the frame in which the name is found. -/
theorem get_of_frameOf {frame : FrameId} (found : store.frameOf env name = .ok frame) :
    store.get env name = store.readIn frame name := by
  unfold Store.get
  rw [found]
  rfl

/-- An assignment writes to the frame in which the name is found. -/
theorem assign_of_frameOf {frame : FrameId} (found : store.frameOf env name = .ok frame)
    (value : α) : store.assign env name value = .ok (store.write frame name value) := by
  unfold Store.assign
  rw [found]
  rfl

/-- A lookup at a distance reads from the frame there. -/
theorem getAt_of_frameAt {distance : Nat} {frame : FrameId}
    (found : store.frameAt env name distance = .ok frame) :
    store.getAt env name distance = store.readIn frame name := by
  unfold Store.getAt
  rw [found]
  rfl

/-- An assignment at a distance writes to the frame there. -/
theorem assignAt_of_frameAt {distance : Nat} {frame : FrameId}
    (found : store.frameAt env name distance = .ok frame) (value : α) :
    store.assignAt env name value distance = .ok (store.write frame name value) := by
  unfold Store.assignAt
  rw [found]
  rfl

/-- A bound name has a value. -/
theorem readIn_of_bound {frame : FrameId} (bound : (store.read? frame name).isSome) :
    ∃ value, store.readIn frame name = .ok value := by
  obtain ⟨value, found⟩ := Option.isSome_iff_exists.1 bound
  exact ⟨value, by rw [Store.readIn, found]⟩

/-- The frame at a distance is all that matters to reading there. -/
theorem getAt_eq {distance : Nat} {frame : FrameId} (given : env.frames[distance]? = some frame) :
    store.getAt env name distance = store.readIn frame name := by
  by_cases bound : (store.read? frame name).isSome
  · exact getAt_of_frameAt (frameAt_eq_ok.2 ⟨given, bound⟩)
  · unfold Store.getAt Store.frameAt Store.readIn
    rw [Option.not_isSome_iff_eq_none] at bound
    simp only [given, bound]
    rfl

/-- A lookup beyond the chain fails, since there is no scope. -/
theorem getAt_of_beyond {distance : Nat} (beyond : env.frames[distance]? = none) :
    store.getAt env name distance = .error .lostScope := by
  unfold Store.getAt Store.frameAt
  rw [beyond]
  rfl

end

/-- A write gives a name a value in one frame when the chains that first meet the name there read
the value, and every other lookup is as before. -/
structure Hits (before after : Store α) (frame : FrameId) (name : String) (value : α) :
    Prop where
  reads : ∀ other distance, NearestAt after other name distance frame →
    after.get other name = .ok value
  readsAt : ∀ other distance, other.frames[distance]? = some frame →
    after.getAt other name distance = .ok value
  others : ∀ other query, ¬ (query = name ∧ ∃ distance, NearestAt after other name distance frame) →
    after.get other query = before.get other query
  othersAt : ∀ other query distance, ¬ (query = name ∧ other.frames[distance]? = some frame) →
    after.getAt other query distance = before.getAt other query distance

section
variable {store after : Store α} {frame : FrameId} {name : String} {value : α}

/-- A search is decided by the bindings of its own name along the chain. -/
theorem get_congr {env : Env} {query : String}
    (same : ∀ frame ∈ env.frames, after.read? frame query = store.read? frame query) :
    after.get env query = store.get env query := by
  have found : after.frameOf env query = store.frameOf env query := by
    unfold Store.frameOf
    rw [List.find?_congr fun frame among => by rw [same frame among]]
  cases located : store.frameOf env query with
  | error fault =>
      unfold Store.get
      rw [found, located]
      rfl
  | ok frame =>
      rw [get_of_frameOf located, get_of_frameOf (found.trans located), Store.readIn, Store.readIn]
      obtain ⟨distance, given, -, -⟩ := frameOf_eq_ok.1 located
      rw [same frame (List.mem_of_getElem? given)]

/-- What is written is read. -/
theorem read?_write_self (present : frame < store.frames.size) :
    (store.write frame name value).read? frame name = some value := by
  rw [Store.read?_write store frame frame name name value present, if_pos ⟨rfl, rfl⟩]

/-- A write leaves every other binding as it is. -/
theorem read?_write_of_apart {other : FrameId} {query : String}
    (present : frame < store.frames.size) (apart : ¬ (query = name ∧ other = frame)) :
    (store.write frame name value).read? other query = store.read? other query := by
  rw [Store.read?_write store frame other name query value present,
    if_neg fun both => apart ⟨both.2.symm, both.1.symm⟩]

/-- A search for the name itself stays as it is when it does not lead to the frame written to. -/
theorem get_write_of_shadowed {env : Env} (present : frame < store.frames.size)
    (apart : ∀ distance, ¬ NearestAt (store.write frame name value) env name distance frame) :
    (store.write frame name value).get env name = store.get env name := by
  have written : (store.write frame name value).read? frame name = some value :=
    read?_write_self present
  cases located : (store.write frame name value).frameOf env name with
  | error =>
      -- The chain does not reach the frame written to.
      refine get_congr fun inner among => read?_write_of_apart present fun both => ?_
      have unbound := (frameOf_eq_error.1 located).2 inner among
      rw [both.2, written] at unbound
      cases unbound
  | ok inner =>
      -- The frame written to does not lie in front of the nearest one.
      obtain ⟨distance, given, bound, nearest⟩ := frameOf_eq_ok.1 located
      have same : (store.write frame name value).read? inner name = store.read? inner name := by
        refine read?_write_of_apart present fun both => ?_
        rw [both.2] at given bound
        exact apart distance ⟨given, bound, nearest⟩
      have before : NearestAt store env name distance inner := by
        refine ⟨given, same ▸ bound, fun nearer closer further there => ?_⟩
        have unbound := nearest nearer closer further there
        rwa [read?_write_of_apart present] at unbound
        rintro ⟨-, rfl⟩
        cases unbound.symm.trans written
      rw [get_of_frameOf located, get_of_frameOf (frameOf_eq_ok.2 ⟨distance, before⟩),
        Store.readIn, Store.readIn, same]

/-- A write hits the one binding that it is for. -/
theorem hits_write (present : frame < store.frames.size) :
    Hits store (store.write frame name value) frame name value := by
  refine ⟨fun other distance nearest => ?_, fun other distance given => ?_,
    fun other query apart => ?_, fun other query distance apart => ?_⟩
  · rw [get_of_frameOf (frameOf_eq_ok.2 ⟨distance, nearest⟩), Store.readIn,
      read?_write_self present]
  · rw [getAt_eq given, Store.readIn, read?_write_self present]
  · rcases Classical.em (query = name) with rfl | differs
    · exact get_write_of_shadowed present fun distance nearest => apart ⟨rfl, distance, nearest⟩
    · exact get_congr fun inner _ => read?_write_of_apart present fun both => differs both.1
  · cases given : other.frames[distance]? with
    | none => rw [getAt_of_beyond given, getAt_of_beyond given]
    | some inner =>
        rw [getAt_eq given, getAt_eq given, Store.readIn, Store.readIn,
          read?_write_of_apart present]
        rintro ⟨rfl, rfl⟩
        exact apart ⟨rfl, given⟩

/-- A name that gets a new value is bound where it was bound before. -/
theorem nearestAt_write (bound : (store.read? frame name).isSome)
    (present : frame < store.frames.size) (env : Env) (query : String) (distance : Nat)
    (inner : FrameId) : NearestAt (store.write frame name value) env query distance inner ↔
      NearestAt store env query distance inner := by
  have same (other : FrameId) : ((store.write frame name value).read? other query).isSome =
      (store.read? other query).isSome := by
    rw [Store.read?_write store frame other name query value present]
    split
    next both =>
      obtain ⟨rfl, rfl⟩ := both
      exact bound.symm
    next => rfl
  have unbound (other : FrameId) : (store.write frame name value).read? other query = none ↔
      store.read? other query = none := by
    rw [← Option.not_isSome_iff_eq_none, ← Option.not_isSome_iff_eq_none, same]
  constructor
  · rintro ⟨given, there, nearest⟩
    exact ⟨given, same inner ▸ there, fun nearer before other found =>
      (unbound other).1 (nearest nearer before other found)⟩
  · rintro ⟨given, there, nearest⟩
    exact ⟨given, same inner ▸ there, fun nearer before other found =>
      (unbound other).2 (nearest nearer before other found)⟩

end

/-- Searching for a name and going to a distance agree on the chain of an environment. -/
structure Searching (forest : Forest α) (env : Env) (name : String) : Prop where
  /-- The search along the parents ends, with one result. -/
  ends : ∀ result, Searches forest.parents forest.store name env.frame result ↔
    forest.store.frameOf env name = result
  get_succeeds : (∃ value, forest.store.get env name = .ok value) ↔
    ∃ frame ∈ env.frames, (forest.store.read? frame name).isSome
  assign_succeeds : ∀ value, (∃ after, forest.store.assign env name value = .ok after) ↔
    ∃ frame ∈ env.frames, (forest.store.read? frame name).isSome
  /-- A search that succeeds is an access at the least distance to a frame that binds the name. -/
  nearest : (∃ frame ∈ env.frames, (forest.store.read? frame name).isSome) →
    ∃ distance frame, NearestAt forest.store env name distance frame ∧
      forest.store.get env name = forest.store.getAt env name distance ∧
      ∀ value, forest.store.assign env name value =
        forest.store.assignAt env name value distance
  unbound : (∀ frame ∈ env.frames, forest.store.read? frame name = none) →
    forest.store.get env name = .error .unbound ∧
      ∀ value, forest.store.assign env name value = .error .unbound

/-- The chain of an environment holds its frame and all ancestors of it, and going to a distance
fails exactly beyond the last of them. -/
structure Climbing (forest : Forest α) (env : Env) : Prop where
  ancestors : ∀ frame, frame ∈ env.outer ↔
    Relation.TransGen forest.parents.Links env.frame frame
  once : env.frames.Nodup
  climbs : ∀ distance, forest.parents.climb env.frame distance = env.frames[distance]?
  getAt_lost : ∀ name distance, forest.store.getAt env name distance = .error .lostScope ↔
    env.outer.length < distance
  assignAt_lost : ∀ name value distance,
    forest.store.assignAt env name value distance = .error .lostScope ↔
      env.outer.length < distance
  /-- All handles on one frame are the same environment. -/
  handles : ∀ other ∈ forest.envs, other.frame = env.frame → other = env
  descendants : ∀ other ∈ forest.envs, env.frame ∈ other.frames → env.frames <:+ other.frames

/-- A write to an environment changes one binding, or it fails and changes nothing. -/
structure Writing (forest : Forest α) (env : Env) (name : String) (value : α) : Prop where
  defines : Hits forest.store (forest.store.define env name value) env.frame name value
  assigns : ∀ after, forest.store.assign env name value = .ok after →
    ∃ distance frame, NearestAt forest.store env name distance frame ∧
      Hits forest.store after frame name value ∧
      ∀ other query distance inner, NearestAt after other query distance inner ↔
        NearestAt forest.store other query distance inner
  assignsAt : ∀ distance after, forest.store.assignAt env name value distance = .ok after →
    ∃ frame, env.frames[distance]? = some frame ∧ (forest.store.read? frame name).isSome ∧
      Hits forest.store after frame name value ∧
      ∀ other query distance inner, NearestAt after other query distance inner ↔
        NearestAt forest.store other query distance inner
  fails : ∀ fault, forest.store.assign env name value = .error fault →
    forest.settle (forest.store.assign env name value) = forest
  failsAt : ∀ distance fault, forest.store.assignAt env name value distance = .error fault →
    forest.settle (forest.store.assignAt env name value distance) = forest

section
variable {forest : Forest α} {env : Env}

/-- Lookups without a distance are searches in coherent environments. -/
theorem Coherent.searching (coherent : Coherent forest) (among : env ∈ forest.envs)
    (name : String) : Searching forest env name := by
  have nearestOf (bound : ∃ frame ∈ env.frames, (forest.store.read? frame name).isSome) :
      ∃ distance frame, NearestAt forest.store env name distance frame ∧
        forest.store.frameOf env name = .ok frame := by
    cases located : forest.store.frameOf env name with
    | ok frame =>
        obtain ⟨distance, nearest⟩ := frameOf_eq_ok.1 located
        exact ⟨distance, frame, nearest, rfl⟩
    | error =>
        obtain ⟨frame, inside, there⟩ := bound
        rw [(frameOf_eq_error.1 located).2 frame inside] at there
        cases there
  have unboundOf (unbound : ∀ frame ∈ env.frames, forest.store.read? frame name = none) :
      forest.store.get env name = .error .unbound ∧
        ∀ value, forest.store.assign env name value = .error .unbound := by
    have located := frameOf_eq_error.2 ⟨rfl, unbound⟩
    unfold Store.get Store.assign
    rw [located]
    exact ⟨rfl, fun _ => rfl⟩
  have boundOf (bound : ¬ ∀ frame ∈ env.frames, forest.store.read? frame name = none) :
      ∃ frame ∈ env.frames, (forest.store.read? frame name).isSome := by
    simpa only [not_forall, exists_prop, ← ne_eq, Option.ne_none_iff_isSome] using bound
  refine ⟨fun result => ?_, ⟨?_, ?_⟩, fun value => ⟨?_, ?_⟩, ?_, unboundOf⟩
  · have ended : Searches forest.parents forest.store name env.frame
        (forest.store.frameOf env name) := searches_frameOf (coherent.follows env among)
    constructor
    · exact ended.unique
    · rintro rfl
      exact ended
  · rintro ⟨value, given⟩
    refine boundOf fun unbound => ?_
    cases given.symm.trans (unboundOf unbound).1
  · intro bound
    obtain ⟨distance, frame, nearest, located⟩ := nearestOf bound
    rw [get_of_frameOf located]
    exact readIn_of_bound nearest.bound
  · rintro ⟨after, given⟩
    refine boundOf fun unbound => ?_
    cases given.symm.trans ((unboundOf unbound).2 value)
  · intro bound
    obtain ⟨distance, frame, nearest, located⟩ := nearestOf bound
    exact ⟨_, assign_of_frameOf located value⟩
  · intro bound
    obtain ⟨distance, frame, nearest, located⟩ := nearestOf bound
    refine ⟨distance, frame, nearest, ?_, fun value => ?_⟩
    · rw [get_of_frameOf located, getAt_of_frameAt nearest.frameAt]
    · rw [assign_of_frameOf located, assignAt_of_frameAt nearest.frameAt]

/-- Lookups with a distance climb as many parents in coherent environments. -/
theorem Coherent.climbing (coherent : Coherent forest) (among : env ∈ forest.envs) :
    Climbing forest env := by
  have follows := coherent.follows env among
  have lost (name : String) (distance : Nat) :
      forest.store.frameAt env name distance = .error .lostScope ↔
        env.outer.length < distance := frameAt_lost
  refine ⟨follows.mem_outer, follows.nodup coherent.ordered, follows.climb_eq,
    fun name distance => ?_, fun name value distance => ?_, fun other given same => ?_,
    fun other given meets => follows.suffix_of_mem (coherent.follows other given) meets⟩
  · rw [← lost name distance]
    cases located : forest.store.frameAt env name distance with
    | error =>
        unfold Store.getAt
        rw [located]
        simp [bind, Except.bind]
    | ok frame =>
        obtain ⟨value, there⟩ := readIn_of_bound (frameAt_eq_ok.1 located).2
        rw [getAt_of_frameAt located, there]
        exact iff_of_false nofun nofun
  · rw [← lost name distance]
    cases located : forest.store.frameAt env name distance with
    | error =>
        unfold Store.assignAt
        rw [located]
        simp [bind, Except.bind]
    | ok frame =>
        rw [assignAt_of_frameAt located]
        exact iff_of_false nofun nofun
  · obtain ⟨frame, outer⟩ := env
    obtain ⟨frame, inner⟩ := other
    cases same
    exact congrArg (Env.mk frame) ((coherent.follows _ given).unique follows)

/-- Both kinds of assignments hit one binding in coherent environments. -/
theorem Coherent.writing (coherent : Coherent forest) (among : env ∈ forest.envs)
    (name : String) (value : α) : Writing forest env name value := by
  have present := coherent.present among
  refine ⟨hits_write (present _ List.mem_cons_self), fun after written => ?_,
    fun distance after written => ?_, fun fault failed => ?_, fun distance fault failed => ?_⟩
  · cases located : forest.store.frameOf env name with
    | error =>
        unfold Store.assign at written
        rw [located] at written
        cases written
    | ok frame =>
        cases (assign_of_frameOf located value).symm.trans written
        obtain ⟨distance, nearest⟩ := frameOf_eq_ok.1 located
        have inside := present frame (List.mem_of_getElem? nearest.given)
        exact ⟨distance, frame, nearest, hits_write inside, nearestAt_write nearest.bound inside⟩
  · cases located : forest.store.frameAt env name distance with
    | error =>
        unfold Store.assignAt at written
        rw [located] at written
        cases written
    | ok frame =>
        cases (assignAt_of_frameAt located value).symm.trans written
        obtain ⟨given, bound⟩ := frameAt_eq_ok.1 located
        have inside := present frame (List.mem_of_getElem? given)
        exact ⟨frame, given, bound, hits_write inside, nearestAt_write bound inside⟩
  · rw [failed]
    rfl
  · rw [failed]
    rfl

/-- In every collection of environments that can be built, searching a chain and direct access to
it agree, and a write changes exactly the lookups that lead to the frame written to. -/
theorem lookups_agree (built : Built forest) (among : env ∈ forest.envs) (name : String)
    (value : α) :
    Searching forest env name ∧ Climbing forest env ∧ Writing forest env name value :=
  ⟨built.coherent.searching among name, built.coherent.climbing among,
    built.coherent.writing among name value⟩

/-- Two handles on the same inner frame, which hides a name of the outer one. -/
def shadowing : Forest Nat :=
  let outer : Forest Nat := empty.root
  let named := { outer with store := outer.store.define ⟨0, []⟩ "a" 1 }
  let inner := named.child ⟨0, []⟩
  let hidden := { inner with store := inner.store.define ⟨1, [0]⟩ "a" 2 }
  hidden.clone ⟨1, [0]⟩

/-- The two environments of the example can be built. -/
theorem shadowing_built : Built shadowing := by
  have outer : Built (empty : Forest Nat).root := .single .root
  have named := outer.tail (.define List.mem_cons_self "a" 1)
  have inner := named.tail (.child List.mem_cons_self)
  have hidden := inner.tail (.define List.mem_cons_self "a" 2)
  exact hidden.tail (.clone List.mem_cons_self)

/-- A frame shadows the one around it. -/
theorem lookups_agree_shadowing : Built shadowing ∧ (⟨1, [0]⟩ : Env) ∈ shadowing.envs ∧
    Searching shadowing ⟨1, [0]⟩ "a" ∧ Climbing shadowing ⟨1, [0]⟩ ∧
    Writing shadowing ⟨1, [0]⟩ "a" 3 :=
  ⟨shadowing_built, List.mem_cons_self,
    lookups_agree shadowing_built List.mem_cons_self "a" 3⟩

end

end Lox.Forest
