/-! When a computation that may fail in two places, or whose failure is told in other words,
succeeds, and when it fails. -/
namespace TripleCube

variable {ε α β γ δ : Type}

theorem bind_eq_ok {first : Except ε α} {second : α → Except ε β} {b : β} :
    (first >>= second) = .ok b ↔ ∃ a, first = .ok a ∧ second a = .ok b := by
  cases first <;> simp [bind, Except.bind]

theorem mapError_eq_ok {ε' : Type} {first : Except ε α} {f : ε → ε'} {a : α} :
    first.mapError f = .ok a ↔ first = .ok a := by
  constructor
  · intro told
    cases first <;> cases told
    rfl
  · rintro rfl
    rfl

theorem eq_ok_of_toOption {outcome : Except ε α} {a : α} (found : outcome.toOption = some a) :
    outcome = .ok a := by
  cases outcome <;> cases found
  rfl

def Failed (outcome : Except ε α) : Prop := ∃ e, outcome = .error e

@[simp] theorem failed_error (e : ε) : Failed (.error e : Except ε α) := ⟨e, rfl⟩

@[simp] theorem not_failed_ok (a : α) : ¬ Failed (.ok a : Except ε α) := by
  rintro ⟨e, same⟩
  cases same

@[simp] theorem failed_map {f : α → β} {outcome : Except ε α} :
    Failed (outcome.map f) ↔ Failed outcome := by
  cases outcome <;> simp [Except.map]

/-- A failure of the second computation that does not depend on what the first one answers. -/
theorem failed_bind {first : Except ε α} {second : α → Except ε β} {fails : Prop}
    (each : ∀ a, first = .ok a → (Failed (second a) ↔ fails)) :
    Failed (first >>= second) ↔ Failed first ∨ fails := by
  cases first with
  | error e => simp [bind, Except.bind]
  | ok a => simpa [bind, Except.bind] using each a rfl

theorem failed_bind_pure {first : Except ε α} {answer : α → β} :
    Failed (first >>= fun a => .ok (answer a)) ↔ Failed first :=
  (failed_bind fun _ _ => iff_of_false (not_failed_ok _) not_false).trans (or_iff_left not_false)

theorem failed_two {first : Except ε α} {second : Except ε β} {answer : α → β → γ} :
    Failed (first >>= fun a => second >>= fun b => .ok (answer a b)) ↔
      Failed first ∨ Failed second :=
  failed_bind fun _ _ => failed_bind_pure

theorem failed_three {first : Except ε α} {second : Except ε β} {third : Except ε γ}
    {answer : α → β → γ → δ} :
    Failed (first >>= fun a => second >>= fun b => third >>= fun c => .ok (answer a b c)) ↔
      Failed first ∨ Failed second ∨ Failed third :=
  failed_bind fun _ _ => failed_two

end TripleCube
