import DosText.Attempt

/-! What is known of an attempt before it is made: a condition on its outcome and on the state it
leaves, an error or not. Conditions on the parts of an attempt make one on the whole. -/

namespace DosText.Attempt

variable {Error State Value Other : Type} {state : State}

/-- From a state, the outcome of an attempt and the state that it leaves meet a condition. -/
def Ensures (attempt : Attempt Error State Value) (state : State)
    (condition : Except Error Value → State → Prop) : Prop :=
  condition (attempt state).1 (attempt state).2

theorem Ensures.mono {attempt : Attempt Error State Value}
    {condition weaker : Except Error Value → State → Prop}
    (known : attempt.Ensures state condition)
    (follows : ∀ outcome later, condition outcome later → weaker outcome later) :
    attempt.Ensures state weaker :=
  follows _ _ known

/-- What a run that is at hand shows. -/
theorem Ensures.apply {attempt : Attempt Error State Value}
    {condition : Except Error Value → State → Prop} {outcome : Except Error Value} {later : State}
    (known : attempt.Ensures state condition) (run : attempt state = (outcome, later)) :
    condition outcome later := by
  unfold Ensures at known
  rwa [run] at known

/-- A run that is at hand meets whatever its outcome and its state meet. -/
theorem ensures_of_apply {attempt : Attempt Error State Value}
    {condition : Except Error Value → State → Prop} {outcome : Except Error Value} {later : State}
    (run : attempt state = (outcome, later)) (met : condition outcome later) :
    attempt.Ensures state condition := by
  unfold Ensures
  rwa [run]

/-- What is known of an attempt is known of one that comes down to it. -/
theorem Ensures.of_apply_eq {first second : Attempt Error State Value}
    {condition : Except Error Value → State → Prop} {later : State}
    (known : second.Ensures later condition) (same : first state = second later) :
    first.Ensures state condition := by
  unfold Ensures at *
  rwa [same]

/-- Two attempts in a row: the second goes on from whatever the first can leave. -/
theorem Ensures.bind {first : Attempt Error State Value}
    {next : Value → Attempt Error State Other}
    {between : Except Error Value → State → Prop}
    {condition : Except Error Other → State → Prop}
    (begun : first.Ensures state between)
    (done : ∀ value later, between (.ok value) later → (next value).Ensures later condition)
    (failed : ∀ error later, between (.error error) later → condition (.error error) later) :
    (first >>= next).Ensures state condition := by
  unfold Ensures at *
  rw [bind_apply]
  rcases run : first state with ⟨error | value, later⟩
  · rw [run] at begun
    exact failed error later begun
  · rw [run] at begun
    exact done value later begun

/-- An attempt that is known to succeed, and what follows it. -/
theorem Ensures.andThen {first : Attempt Error State Value}
    {next : Value → Attempt Error State Other} {value : Value} {between : State → Prop}
    {condition : Except Error Other → State → Prop}
    (begun : first.Ensures state fun outcome later => outcome = .ok value ∧ between later)
    (done : ∀ later, between later → (next value).Ensures later condition) :
    (first >>= next).Ensures state condition := by
  refine begun.bind ?_ ?_
  · rintro _ later ⟨⟨⟩, reached⟩
    exact done later reached
  · rintro _ later ⟨⟨⟩, -⟩

/-- An attempt that is known to fail, and so abandons what follows it. -/
theorem Ensures.abandon {first : Attempt Error State Value}
    {next : Value → Attempt Error State Other} {error : Error} {between : State → Prop}
    {condition : Except Error Other → State → Prop}
    (begun : first.Ensures state fun outcome later => outcome = .error error ∧ between later)
    (failed : ∀ later, between later → condition (.error error) later) :
    (first >>= next).Ensures state condition := by
  refine begun.bind ?_ ?_
  · rintro _ later ⟨⟨⟩, -⟩
  · rintro _ later ⟨⟨⟩, reached⟩
    exact failed later reached

/-- The run of an attempt that is known to succeed. -/
theorem Ensures.exists_run {attempt : Attempt Error State Value} {value : Value}
    {condition : State → Prop}
    (known : attempt.Ensures state fun outcome later => outcome = .ok value ∧ condition later) :
    ∃ later, attempt state = (.ok value, later) ∧ condition later :=
  ⟨(attempt state).2, Prod.ext known.1 rfl, known.2⟩

/-- What is asked about the state is known where the state is. -/
theorem ensures_get_bind {next : State → Attempt Error State Other}
    {condition : Except Error Other → State → Prop} :
    (get >>= next).Ensures state condition ↔ (next state).Ensures state condition := Iff.rfl

end DosText.Attempt
