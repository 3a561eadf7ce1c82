import Lox.Span

namespace Lox.Computation

variable {ε σ α β : Type}

/-- A sequence has a value when both of its steps have one. -/
theorem bind_eq_ok {compute : EStateM ε σ α} {next : α → EStateM ε σ β} {state after : σ}
    {value : β} :
    (compute >>= next) state = .ok value after ↔
      ∃ first middle, compute state = .ok first middle ∧ next first middle = .ok value after := by
  change EStateM.bind compute next state = _ ↔ _
  unfold EStateM.bind
  constructor
  · intro whole
    cases start : compute state with
    | ok first middle => exact ⟨first, middle, rfl, by rwa [start] at whole⟩
    | error halt middle => rw [start] at whole; cases whole
  · rintro ⟨first, middle, start, rest⟩
    rw [start]
    exact rest

/-- A sequence halts in its first step, or it halts in its second one. -/
theorem bind_eq_error {compute : EStateM ε σ α} {next : α → EStateM ε σ β} {state after : σ}
    {halt : ε} :
    (compute >>= next) state = .error halt after ↔
      compute state = .error halt after ∨
        ∃ first middle, compute state = .ok first middle ∧
          next first middle = .error halt after := by
  change EStateM.bind compute next state = _ ↔ _
  unfold EStateM.bind
  cases start : compute state with
  | ok first middle =>
      constructor
      · intro whole
        exact .inr ⟨first, middle, rfl, whole⟩
      · rintro (stopped | ⟨given, reached, same, rest⟩)
        · cases stopped
        · cases same
          exact rest
  | error stop middle => simp

/-- A computation gives a value and a state. -/
def Gives (compute : EStateM ε σ α) (state : σ) (value : α) (after : σ) : Prop :=
  compute state = .ok value after

/-- A sequence gives a value when its first part gives one with which the second part gives it. -/
theorem gives_bind {compute : EStateM ε σ α} {next : α → EStateM ε σ β} {state after : σ}
    {value : β} :
    Gives (compute >>= next) state value after ↔
      ∃ first middle, Gives compute state first middle ∧ Gives (next first) middle value after :=
  bind_eq_ok

/-- A pure computation gives its value and leaves the state as it is. -/
theorem gives_pure {value given : α} {state after : σ} :
    Gives (pure value : EStateM ε σ α) state given after ↔ value = given ∧ state = after := by
  constructor
  · intro ended
    cases ended
    exact ⟨rfl, rfl⟩
  · rintro ⟨rfl, rfl⟩
    rfl

/-- A mapped computation gives what the function makes of its value. -/
theorem gives_map {compute : EStateM ε σ α} {f : α → β} {state after : σ} {value : β} :
    Gives (f <$> compute) state value after ↔
      ∃ first, Gives compute state first after ∧ value = f first := by
  rw [map_eq_pure_bind, gives_bind]
  constructor
  · rintro ⟨first, middle, given, ended⟩
    obtain ⟨rfl, rfl⟩ := gives_pure.1 ended
    exact ⟨first, given, rfl⟩
  · rintro ⟨first, given, rfl⟩
    exact ⟨first, after, given, rfl⟩

/-- A computation that throws gives no value. -/
theorem not_gives_throw {halt : ε} {value : α} {state after : σ} :
    ¬ Gives (throw halt : EStateM ε σ α) state value after := nofun

/-- A step whose result is known does not have to be looked at again. -/
theorem gives_step {compute : EStateM ε σ α} {next : α → EStateM ε σ β} {state middle after : σ}
    {first : α} {value : β} (start : compute state = .ok first middle) :
    Gives (compute >>= next) state value after ↔ Gives (next first) middle value after := by
  rw [gives_bind]
  constructor
  · rintro ⟨other, reached, again, rest⟩
    cases start.symm.trans again
    exact rest
  · exact fun rest => ⟨first, middle, start, rest⟩

/-- A sequence goes on where its first step has led. -/
theorem bind_of_ok {compute : EStateM ε σ α} {state middle : σ} {first : α}
    (start : compute state = .ok first middle) (next : α → EStateM ε σ β) :
    (compute >>= next) state = next first middle := by
  change EStateM.bind compute next state = _
  unfold EStateM.bind
  rw [start]

/-- A sequence stops with the error of its first part. -/
theorem bind_of_error {compute : EStateM ε σ α} {state middle : σ} {halt : ε}
    (stopped : compute state = .error halt middle) (next : α → EStateM ε σ β) :
    (compute >>= next) state = .error halt middle := by
  change EStateM.bind compute next state = _
  unfold EStateM.bind
  rw [stopped]

@[simp] theorem pure_apply (value : α) (state : σ) :
    (pure value : EStateM ε σ α) state = .ok value state := rfl

@[simp] theorem get_apply (state : σ) : (get : EStateM ε σ σ) state = .ok state state := rfl

@[simp] theorem modifyGet_apply (change : σ → α × σ) (state : σ) :
    (modifyGet change : EStateM ε σ α) state = .ok (change state).1 (change state).2 := by
  change EStateM.modifyGet change state = _
  unfold EStateM.modifyGet
  cases change state
  rfl

/-- A value that is not used may as well be thrown away. -/
@[simp] theorem discard_bind (compute : EStateM ε σ α) (next : Unit → EStateM ε σ β) :
    (discard compute >>= next) = compute >>= fun _ => next () := by
  funext state
  change EStateM.bind (EStateM.map _ compute) next state = EStateM.bind compute _ state
  unfold EStateM.bind EStateM.map
  cases compute state <;> rfl

end Lox.Computation
