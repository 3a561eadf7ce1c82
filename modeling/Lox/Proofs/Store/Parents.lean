import Lox.Store
import Mathlib.Logic.Relation

namespace Lox

/-- The parents of the frames of a store, each at the number of its frame. -/
abbrev Parents := List (Option FrameId)

namespace Parents

/-- A frame has another one as its parent. -/
def Links (parents : Parents) (frame parent : FrameId) : Prop :=
  parents[frame]? = some (some parent)

/-- A chain goes from a frame to its parent, and so on up to a frame without one. -/
inductive Follows (parents : Parents) : List FrameId → Prop
  | last {frame : FrameId} (alone : parents[frame]? = some none) : Follows parents [frame]
  | link {frame parent : FrameId} {outer : List FrameId} (linked : parents.Links frame parent)
      (rest : Follows parents (parent :: outer)) : Follows parents (frame :: parent :: outer)

/-- Every frame is made after its parent. -/
def Ordered (parents : Parents) : Prop :=
  ∀ ⦃frame parent : FrameId⦄, parents.Links frame parent → parent < frame

/-- The frame that lies some links outwards. -/
def climb (parents : Parents) (frame : FrameId) : Nat → Option FrameId
  | 0 => some frame
  | distance + 1 =>
      match parents[frame]? with
      | some (some parent) => climb parents parent distance
      | some none | none => none

variable {parents : Parents}

/-- A frame with a parent is one of the frames. -/
theorem Links.present {frame parent : FrameId} (linked : parents.Links frame parent) :
    frame < parents.length :=
  (List.getElem?_eq_some_iff.1 linked).1

/-- A new frame leaves the parents of the others as they are. -/
theorem Links.append {frame parent : FrameId} (linked : parents.Links frame parent)
    (more : Parents) : Links (parents ++ more) frame parent := by
  rw [Links, List.getElem?_append_left linked.present]
  exact linked

namespace Follows

variable {frame : FrameId} {frames outer : List FrameId}

/-- A chain has frames only. -/
theorem present (follows : parents.Follows frames) : ∀ frame ∈ frames, frame < parents.length := by
  induction follows with
  | last alone =>
      intro frame among
      rw [List.mem_singleton.1 among]
      exact (List.getElem?_eq_some_iff.1 alone).1
  | link linked _ ih =>
      intro frame among
      rcases List.mem_cons.1 among with rfl | further
      · exact linked.present
      · exact ih frame further

/-- A chain stays one when there are more frames. -/
theorem append (follows : parents.Follows frames) (more : Parents) :
    Follows (parents ++ more) frames := by
  induction follows with
  | last alone =>
      refine .last ?_
      rw [List.getElem?_append_left (List.getElem?_eq_some_iff.1 alone).1]
      exact alone
  | link linked _ ih => exact .link (linked.append more) ih

/-- A chain is determined by its first frame. -/
theorem unique {other : List FrameId} (follows : parents.Follows (frame :: outer))
    (again : parents.Follows (frame :: other)) : outer = other := by
  generalize whole : frame :: outer = frames at follows
  induction follows generalizing frame outer other with
  | last alone =>
      cases whole
      cases again with
      | last => rfl
      | link linked => cases alone.symm.trans linked
  | link linked _ ih =>
      cases whole
      cases again with
      | last alone => cases alone.symm.trans linked
      | link relinked rest =>
          cases linked.symm.trans relinked
          rw [ih rest rfl]

/-- The part of a chain from one of its frames on follows the parents too. -/
theorem suffix (follows : parents.Follows frames) (among : frame :: outer <:+ frames) :
    parents.Follows (frame :: outer) := by
  induction follows with
  | last alone =>
      rcases List.suffix_cons_iff.1 among with same | none
      · cases same
        exact .last alone
      · cases List.suffix_nil.1 none
  | link linked rest ih =>
      rcases List.suffix_cons_iff.1 among with same | further
      · cases same
        exact .link linked rest
      · exact ih further

/-- A chain that meets the first frame of another one goes on as that one does. -/
theorem suffix_of_mem {inner : List FrameId} (follows : parents.Follows (frame :: outer))
    (longer : parents.Follows inner) (among : frame ∈ inner) : frame :: outer <:+ inner := by
  obtain ⟨before, after, rfl⟩ := List.append_of_mem among
  rw [follows.unique (longer.suffix (List.suffix_append before (frame :: after)))]
  exact List.suffix_append before (frame :: after)

/-- The frames of a chain get older outwards. -/
theorem decreasing (follows : parents.Follows frames) (ordered : parents.Ordered) :
    frames.Pairwise (· > ·) := by
  induction follows with
  | last => exact List.pairwise_singleton _ _
  | link linked rest ih =>
      refine List.pairwise_cons.2 ⟨fun further among => ?_, ih⟩
      have older := ordered linked
      rcases List.mem_cons.1 among with rfl | beyond
      · exact older
      · exact Nat.lt_trans ((List.pairwise_cons.1 ih).1 further beyond) older

/-- A chain does not come back to a frame. -/
theorem nodup (follows : parents.Follows frames) (ordered : parents.Ordered) : frames.Nodup :=
  (follows.decreasing ordered).imp Nat.ne_of_gt

/-- The frames beyond the first one are its ancestors. -/
theorem mem_outer (follows : parents.Follows (frame :: outer)) (other : FrameId) :
    other ∈ outer ↔ Relation.TransGen parents.Links frame other := by
  generalize whole : frame :: outer = frames at follows
  induction follows generalizing frame outer with
  | last alone =>
      cases whole
      refine iff_of_false List.not_mem_nil fun beyond => ?_
      obtain ⟨next, linked, -⟩ := Relation.TransGen.head'_iff.1 beyond
      cases alone.symm.trans linked
  | @link frame parent outer linked _ ih =>
      cases whole
      rw [List.mem_cons, ih rfl]
      constructor
      · rintro (rfl | beyond)
        · exact .single linked
        · exact .head linked beyond
      · intro beyond
        obtain ⟨next, relinked, further⟩ := Relation.TransGen.head'_iff.1 beyond
        cases linked.symm.trans relinked
        exact Relation.reflTransGen_iff_eq_or_transGen.1 further

/-- Climbing gives the frame at the distance in the chain. -/
theorem climb_eq (follows : parents.Follows (frame :: outer)) (distance : Nat) :
    parents.climb frame distance = (frame :: outer)[distance]? := by
  generalize whole : frame :: outer = frames at follows
  induction follows generalizing frame outer distance with
  | last alone =>
      cases whole
      cases distance with
      | zero => rfl
      | succ distance => simp only [climb, alone, List.getElem?_cons_succ, List.getElem?_nil]
  | link linked _ ih =>
      cases whole
      cases distance with
      | zero => rfl
      | succ distance =>
          rw [Links] at linked
          simp only [climb, linked, List.getElem?_cons_succ]
          exact ih distance rfl

/-- A new frame without a parent is a chain of its own. -/
theorem root (parents : Parents) : Follows (parents ++ [none]) [parents.length] :=
  .last (List.getElem?_concat_length ..)

/-- A new frame is put in front of a chain. -/
theorem child {env : Env} (follows : parents.Follows env.frames) :
    Follows (parents ++ [some env.frame]) (parents.length :: env.frames) :=
  .link (List.getElem?_concat_length ..) (follows.append _)

end Follows

/-- A frame without a parent keeps the frames in order. -/
theorem ordered_root (ordered : parents.Ordered) : Ordered (parents ++ [none]) := by
  intro frame parent linked
  rcases Nat.lt_or_ge frame parents.length with inside | outside
  · rw [Links, List.getElem?_append_left inside] at linked
    exact ordered linked
  · rw [Links, List.getElem?_append_right outside] at linked
    cases List.mem_singleton.1 (List.mem_of_getElem? linked)

/-- A frame whose parent is there already keeps the frames in order. -/
theorem ordered_child {parent : FrameId} (ordered : parents.Ordered)
    (present : parent < parents.length) : Ordered (parents ++ [some parent]) := by
  intro frame other linked
  rcases Nat.lt_or_ge frame parents.length with inside | outside
  · rw [Links, List.getElem?_append_left inside] at linked
    exact ordered linked
  · rw [Links, List.getElem?_append_right outside] at linked
    cases List.mem_singleton.1 (List.mem_of_getElem? linked)
    exact Nat.lt_of_lt_of_le present outside

end Parents

end Lox
