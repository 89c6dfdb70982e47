/-! A computation that may be abandoned. What it had done to the state before it was
abandoned is kept, so that a statement about faults is a statement about the state left
behind. -/

namespace DosText

/-- A computation on a state that ends in a value or in an error, and in a state either way. -/
def Attempt (Error State Value : Type) : Type := State → Except Error Value × State

namespace Attempt

variable {Error State Value Other : Type}

/-- Runs the second computation on what the first one leaves, unless that was abandoned. -/
def andThen (first : Attempt Error State Value) (next : Value → Attempt Error State Other) :
    Attempt Error State Other := fun state =>
  match first state with
  | (.ok value, later) => next value later
  | (.error error, later) => (.error error, later)

instance : Monad (Attempt Error State) where
  pure value := fun state => (.ok value, state)
  bind := andThen

/-- Abandons the computation here. -/
def fail (error : Error) : Attempt Error State Value := fun state => (.error error, state)

/-- Goes on with the handler if the computation was abandoned, from the state left behind. -/
def recover (first : Attempt Error State Value) (handler : Error → Attempt Error State Value) :
    Attempt Error State Value := fun state =>
  match first state with
  | (.ok value, later) => (.ok value, later)
  | (.error error, later) => handler error later

instance : MonadExceptOf Error (Attempt Error State) where
  throw := fail
  tryCatch := recover

instance : MonadStateOf State (Attempt Error State) where
  get := fun state => (.ok state, state)
  set state := fun _ => (.ok ⟨⟩, state)
  modifyGet change := fun state => (.ok (change state).1, (change state).2)

/-- The outcome of an `Except`, with the state as it is. -/
def ofExcept (outcome : Except Error Value) : Attempt Error State Value :=
  fun state => (outcome, state)

private theorem andThen_pure (first : Attempt Error State Value) :
    andThen first (fun value later => (.ok value, later)) = first := by
  funext state
  unfold andThen
  rcases first state with ⟨_ | _, _⟩ <;> rfl

private theorem andThen_assoc {Last : Type} (first : Attempt Error State Value)
    (second : Value → Attempt Error State Other) (third : Other → Attempt Error State Last) :
    andThen (andThen first second) third =
      andThen first fun value => andThen (second value) third := by
  funext state
  unfold andThen
  rcases first state with ⟨_ | _, _⟩ <;> rfl

instance : LawfulMonad (Attempt Error State) :=
  LawfulMonad.mk' _ (fun first => andThen_pure first) (fun _ _ => rfl)
    (fun first second third => andThen_assoc first second third)

@[simp] theorem pure_apply (value : Value) (state : State) :
    (pure value : Attempt Error State Value) state = (.ok value, state) := rfl

@[simp] theorem throw_apply (error : Error) (state : State) :
    (throw error : Attempt Error State Value) state = (.error error, state) := rfl

@[simp] theorem ofExcept_apply (outcome : Except Error Value) (state : State) :
    (ofExcept outcome : Attempt Error State Value) state = (outcome, state) := rfl

@[simp] theorem get_apply (state : State) :
    (get : Attempt Error State State) state = (.ok state, state) := rfl

@[simp] theorem modify_apply (change : State → State) (state : State) :
    (modify change : Attempt Error State PUnit) state = (.ok ⟨⟩, change state) := rfl

theorem bind_apply (first : Attempt Error State Value)
    (next : Value → Attempt Error State Other) (state : State) :
    (first >>= next) state =
      match first state with
      | (.ok value, later) => next value later
      | (.error error, later) => (.error error, later) := rfl

theorem bind_of_ok {first : Attempt Error State Value} {state later : State} {value : Value}
    (next : Value → Attempt Error State Other) (done : first state = (.ok value, later)) :
    (first >>= next) state = next value later := by
  rw [bind_apply, done]

theorem bind_of_error {first : Attempt Error State Value} {state later : State} {error : Error}
    (next : Value → Attempt Error State Other) (failed : first state = (.error error, later)) :
    (first >>= next) state = (.error error, later) := by
  rw [bind_apply, failed]

/-- A value that is not looked at changes nothing of the state. -/
theorem bind_pure_snd (first : Attempt Error State Value) (value : Value → Other)
    (state : State) : ((first >>= fun given => pure (value given)) state).2 = (first state).2 := by
  rw [bind_apply]
  rcases first state with ⟨_ | _, _⟩ <;> rfl

theorem recover_apply (first : Attempt Error State Value)
    (handler : Error → Attempt Error State Value) (state : State) :
    (tryCatch first handler) state =
      match first state with
      | (.ok value, later) => (.ok value, later)
      | (.error error, later) => handler error later := rfl

end Attempt

end DosText
