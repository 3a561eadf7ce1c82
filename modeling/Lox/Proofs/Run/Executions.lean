import Lox.Proofs.Run.Making

namespace Lox.Evaluation

open Lox.Computation

section
variable (context : Context)

/-- The work at a moment ends in a state. -/
def EndsIn (moment : Moment) (after : State) : Prop :=
  ∃ result, Gives (moment.task.perform context moment.fuel) moment.state result after

/-- The work at one moment ends, and all closures that are made up to its end are counted before
another moment. -/
def Precedes (first second : Moment) : Prop :=
  ∃ after, EndsIn context first after ∧ after.closures ≤ second.state.closures

/-- A closure comes from the execution of a function declaration at the end of a way. -/
inductive ComesFrom (start : Moment) (closure : Closure) : List Moment → Prop
  | intro {last : Moment} {above : List Moment} (way : Way context start (last :: above))
      (makes : Makes last closure) : ComesFrom start closure (last :: above)

end

/-- The register of all closures. -/
def Register.all : Register := ⟨fun _ _ => True, fun _ _ _ _ => id⟩

section
variable {context : Context} {fuel count : Nat} {state after : State}

theorem onlyMade_all {values : List Value} : OnlyMade (Register.all.knows count) values :=
  fun _ _ _ _ => trivial

theorem storesMade_all {store : Store Value} : StoresMade (Register.all.knows count) store :=
  fun _ _ _ _ _ _ => trivial

/-- Every plan keeps the register of all closures. -/
theorem keeps_all (task : Task) : (task.plan context).Keeps Register.all task.given count :=
  plan_keeps onlyMade_all fun _ _ _ => trivial

/-- Every moment tracks the register of all closures. -/
theorem tracksAt_all (moment : Moment) : TracksAt Register.all context moment :=
  tracksAt fun _ _ _ _ => trivial

/-- Work never counts downwards. -/
theorem EndsIn.counts {moment : Moment} (ends : EndsIn context moment after) :
    moment.state.closures ≤ after.closures := by
  obtain ⟨result, ended⟩ := ends
  exact (tracksAt_all moment onlyMade_all storesMade_all ended).counts

/-- The count of closures does not go down on the way to a moment. -/
theorem counts_of_reaches {first last : Moment} (reached : Reaches context first last) :
    first.state.closures ≤ last.state.closures :=
  have allows : Allows Register.all context first := fun _ _ _ _ => trivial
  (tracked_of_reaches reached allows onlyMade_all storesMade_all).counts

namespace Plan.Includes

variable {α : Type} {plan : Plan α} {part other : Moment} {values : α → List Value}
  (included : plan.Includes context fuel state part) (keeps : plan.Keeps Register.all values count)
  (before : count ≤ state.closures)
include included keeps before

/-- The count of closures does not go down on the way to a part. -/
theorem counts : state.closures ≤ part.state.closures :=
  (keeps.part_tracked before (fun other _ => tracksAt_all other) storesMade_all included).counts

/-- A part of a plan that is carried out ends before the plan does. -/
theorem ends {result : α} (ended : Gives (plan.run context fuel) state result after) :
    ∃ middle, EndsIn context part middle ∧ middle.closures ≤ after.closures := by
  induction keeps generalizing state with
  | own => cases included
  | step tracks rest ih =>
      obtain ⟨value, middle, first, ended⟩ := gives_bind.1 ended
      cases included with
      | step started further =>
          cases Eq.trans (Eq.symm started) first
          have counted := (tracks before storesMade_all first).counts
          exact ih value further (Nat.le_trans before counted) ended
  | @part _ task next inputs rest ih =>
      obtain ⟨value, middle, first, ended⟩ := gives_bind.1 ended
      have ends : EndsIn context ⟨fuel, task, state⟩ middle := ⟨value, first⟩
      have later := Nat.le_trans before ends.counts
      cases included with
      | here =>
          have further := (rest _ value later onlyMade_all).tracked (Nat.le_refl _)
            (fun other _ => tracksAt_all other) storesMade_all ended
          exact ⟨middle, ends, further.counts⟩
      | behind started further =>
          cases Eq.trans (Eq.symm started) first
          exact ih _ value later onlyMade_all further (Nat.le_refl _) ended

/-- Of two parts of a plan, one ends before the other starts. -/
theorem ordered (also : plan.Includes context fuel state other) :
    part = other ∨ Precedes context part other ∨ Precedes context other part := by
  induction keeps generalizing state with
  | own => cases included
  | step tracks rest ih =>
      cases included with
      | step first further =>
          cases also with
          | step again beyond =>
              cases Eq.trans (Eq.symm first) again
              have counted := (tracks before storesMade_all first).counts
              exact ih _ further (Nat.le_trans before counted) beyond
  | @part _ task next inputs rest ih =>
      -- What is behind the first part starts where that part ends.
      have behind {result : task.Result} {after : State} {other : Moment}
          (first : Gives (task.perform context fuel) state result after)
          (further : (next result).Includes context fuel after other) :
          Precedes context ⟨fuel, task, state⟩ other :=
        have ends : EndsIn context ⟨fuel, task, state⟩ after := ⟨result, first⟩
        have later := Nat.le_trans before ends.counts
        ⟨after, ends, further.counts (rest _ result later onlyMade_all) (Nat.le_refl _)⟩
      cases included with
      | here =>
          cases also with
          | here => exact .inl rfl
          | behind first further => exact .inr (.inl (behind first further))
      | @behind _ _ _ _ result _ first further =>
          cases also with
          | here => exact .inr (.inr (behind first further))
          | behind again beyond =>
              cases Eq.trans (Eq.symm first) again
              have ends : EndsIn context ⟨fuel, task, state⟩ _ := ⟨result, first⟩
              exact ih _ result (Nat.le_trans before ends.counts) onlyMade_all further
                (Nat.le_refl _) beyond

end Plan.Includes

section
variable {moment part other : Moment} (leads : Part context moment part)
include leads

/-- A part of work that ends has ended itself. -/
theorem Part.ends (ends : EndsIn context moment after) :
    ∃ middle, EndsIn context part middle ∧ middle.closures ≤ after.closures := by
  obtain ⟨fuel, more, included⟩ := leads.includes
  obtain ⟨_, task, state⟩ := moment
  cases more
  obtain ⟨result, ended⟩ := ends
  exact included.ends (keeps_all task) (Nat.le_refl _) (perform_succ task ▸ ended)

/-- Of two parts of some work, one ends before the other starts. -/
theorem parts_ordered (also : Part context moment other) :
    part = other ∨ Precedes context part other ∨ Precedes context other part := by
  obtain ⟨fuel, more, included⟩ := leads.includes
  obtain ⟨_, same, among⟩ := also.includes
  cases Nat.succ.inj (more.symm.trans same)
  exact included.ordered (keeps_all moment.task) (Nat.le_refl _) among

end

/-- Every moment that is reached ends when the run does, and no later. -/
theorem ends_of_reaches {first last : Moment} (reached : Reaches context first last)
    (ends : EndsIn context first after) :
    ∃ middle, EndsIn context last middle ∧ middle.closures ≤ after.closures := by
  induction reached with
  | refl => exact ⟨after, ends, Nat.le_refl _⟩
  | tail _ leads ih =>
      obtain ⟨middle, within, below⟩ := ih
      obtain ⟨inner, further, least⟩ := leads.ends within
      exact ⟨inner, further, Nat.le_trans least below⟩

namespace Precedes

variable {first second last : Moment} (precedes : Precedes context first second)
include precedes

/-- What precedes a moment precedes all that it leads to. -/
theorem of_reaches (reached : Reaches context second last) : Precedes context first last := by
  obtain ⟨after, ends, counted⟩ := precedes
  exact ⟨after, ends, Nat.le_trans counted (counts_of_reaches reached)⟩

/-- All that a moment leads to precedes what it precedes. -/
theorem reached (reached : Reaches context first last) : Precedes context last second := by
  obtain ⟨after, ends, counted⟩ := precedes
  obtain ⟨middle, within, below⟩ := ends_of_reaches reached ends
  exact ⟨middle, within, Nat.le_trans below counted⟩

end Precedes

/-- A way that goes through a moment ends there or goes on through a part of it. -/
theorem Way.onwards {start moment last : Moment} {above moments : List Moment}
    (way : Way context start (last :: moments)) (through : moment :: above <:+ last :: moments) :
    moment :: above = last :: moments ∨ ∃ part, Part context moment part ∧
      Reaches context part last ∧ part :: moment :: above <:+ last :: moments := by
  generalize whole : last :: moments = all at way
  induction way generalizing last moments with
  | start =>
      cases whole
      rcases List.suffix_cons_iff.1 through with same | beyond
      · exact .inl same
      · cases List.suffix_nil.1 beyond
  | part way leads ih =>
      cases whole
      rcases List.suffix_cons_iff.1 through with same | beyond
      · exact .inl same
      · rcases ih beyond rfl with same | ⟨part, below, reached, further⟩
        · cases same
          exact .inr ⟨_, leads, .refl, List.suffix_rfl⟩
        · exact .inr ⟨part, below, reached.tail leads, further.trans (List.suffix_cons _ _)⟩

/-- Every way begins with its start. -/
theorem Way.start_suffix {start last : Moment} {above : List Moment}
    (way : Way context start (last :: above)) : [start] <:+ last :: above := by
  generalize last :: above = moments at way
  induction way with
  | start => exact List.suffix_rfl
  | part _ _ ih => exact ih.trans (List.suffix_cons _ _)

/-- Of two ways, one leads on from the other, or the work at the end of one precedes the end of the
other. -/
theorem ways_ordered {start first second : Moment} {above beyond : List Moment}
    (way : Way context start (first :: above)) (other : Way context start (second :: beyond)) :
    first :: above <:+ second :: beyond ∨ second :: beyond <:+ first :: above ∨
      Precedes context first second ∨ Precedes context second first := by
  generalize whole : first :: above = moments at way
  induction way generalizing first above with
  | start =>
      cases whole
      exact .inl other.start_suffix
  | part way leads ih =>
      cases whole
      rcases ih rfl with through | within | precedes | precedes
      · rcases other.onwards through with same | ⟨part, also, reached, further⟩
        · exact .inr (.inl (same ▸ List.suffix_cons _ _))
        -- The ways part here, or they take the same part.
        · rcases parts_ordered leads also with rfl | before | behind
          · exact .inl further
          · exact .inr (.inr (.inl (before.of_reaches reached)))
          · exact .inr (.inr (.inr (behind.reached reached)))
      · exact .inr (.inl (within.trans (List.suffix_cons _ _)))
      · exact .inr (.inr (.inl (precedes.reached (.single leads))))
      · exact .inr (.inr (.inr (precedes.of_reaches (.single leads))))

section
variable {start moment last : Moment} {closure other : Closure} {above way beyond : List Moment}

/-- A closure is numbered by the closures made before it. -/
theorem Makes.id_eq (makes : Makes moment closure) : closure.id = moment.state.closures := by
  cases makes
  rfl

/-- A moment makes one closure. -/
theorem Makes.unique (makes : Makes moment closure) (again : Makes moment other) :
    closure = other := by
  cases makes
  cases again
  rfl

/-- The execution of a function declaration leads to nothing. -/
theorem Makes.not_part (makes : Makes moment closure) {part : Moment} :
    ¬ Part context moment part := by
  cases makes
  nofun

/-- A closure is counted when the execution that makes it ends. -/
theorem Makes.id_lt (makes : Makes moment closure) (precedes : Precedes context moment last) :
    closure.id < last.state.closures := by
  obtain ⟨after, ⟨flow, ended⟩, counted⟩ := precedes
  cases makes
  cases ended
  exact counted

/-- A way that goes through the execution of a function declaration ends there. -/
theorem Makes.ends_way (makes : Makes moment closure)
    (way : Way context start (last :: beyond)) (through : moment :: above <:+ last :: beyond) :
    moment :: above = last :: beyond := by
  rcases way.onwards through with same | ⟨part, leads, -⟩
  · exact same
  · exact absurd leads makes.not_part

/-- Two executions of function declarations are the same, or one precedes the other. -/
theorem ComesFrom.ordered (comes : ComesFrom context start closure (moment :: above))
    (also : ComesFrom context start other (last :: beyond)) :
    moment :: above = last :: beyond ∨ Precedes context moment last ∨
      Precedes context last moment := by
  obtain ⟨first, made⟩ := comes
  obtain ⟨second, makes⟩ := also
  rcases ways_ordered first second with through | within | precedes
  · exact .inl (made.ends_way second through)
  · exact .inl (makes.ends_way first within).symm
  · exact .inr precedes

/-- An execution that precedes another one makes a closure with a smaller number. -/
theorem ComesFrom.id_lt_id (comes : ComesFrom context start closure (moment :: above))
    (also : ComesFrom context start other (last :: beyond))
    (precedes : Precedes context moment last) : closure.id < other.id := by
  obtain ⟨-, made⟩ := comes
  obtain ⟨-, makes⟩ := also
  exact makes.id_eq ▸ made.id_lt precedes

/-- Closures with one number come from one execution. -/
theorem ComesFrom.way_unique (comes : ComesFrom context start closure way)
    (also : ComesFrom context start other beyond) (same : closure.id = other.id) :
    way = beyond := by
  cases way with
  | nil => cases comes
  | cons moment above =>
      cases beyond with
      | nil => cases also
      | cons last beyond =>
          rcases comes.ordered also with equal | before | behind
          · exact equal
          · exact absurd same (Nat.ne_of_lt (comes.id_lt_id also before))
          · exact absurd same.symm (Nat.ne_of_lt (also.id_lt_id comes behind))

/-- One closure comes from one way. -/
theorem ComesFrom.closure_unique (comes : ComesFrom context start closure way)
    (also : ComesFrom context start other way) : closure = other := by
  cases comes with
  | intro _ makes =>
      cases also with
      | intro _ again => exact makes.unique again

/-- The execution that a closure comes from precedes every moment at which it is counted. -/
theorem ComesFrom.precedes (comes : ComesFrom context start closure (last :: above))
    (reached : Reaches context start moment) (counted : closure.id < moment.state.closures) :
    Precedes context last moment := by
  obtain ⟨way, makes⟩ := comes
  obtain ⟨beyond, other⟩ := exists_way context reached
  have apart {later : Moment} (below : moment.state.closures ≤ later.state.closures)
      (same : closure.id = later.state.closures) : False :=
    absurd (Nat.lt_of_lt_of_le (same ▸ counted) below) (Nat.lt_irrefl _)
  -- In every other order the closure would not be counted yet.
  rcases ways_ordered way other with through | within | precedes | behind
  · cases makes.ends_way other through
    exact (apart (Nat.le_refl _) makes.id_eq).elim
  · rcases way.onwards within with same | ⟨part, leads, further, -⟩
    · cases same
      exact (apart (Nat.le_refl _) makes.id_eq).elim
    · exact (apart (counts_of_reaches (.head leads further)) makes.id_eq).elim
  · exact precedes
  · obtain ⟨after, ends, below⟩ := behind
    exact (apart (Nat.le_trans ends.counts below) makes.id_eq).elim

end

end

end Lox.Evaluation
