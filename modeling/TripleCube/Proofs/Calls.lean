/-! Histories of calls. Two systems whose states are related before a call, and that answer it
alike and stay related, answer every history alike. -/
namespace TripleCube.Calls

variable {χ ω σ τ : Type}

/-- The answers to a history of calls, and the state it leaves. -/
def run (step : σ → χ → ω × σ) : List χ → σ → List ω × σ
  | [], state => ([], state)
  | call :: rest, state =>
    let first := step state call
    let others := run step rest first.2
    (first.1 :: others.1, others.2)

theorem run_append (step : σ → χ → ω × σ) (first second : List χ) (state : σ) :
    run step (first ++ second) state =
      ((run step first state).1 ++ (run step second (run step first state).2).1,
        (run step second (run step first state).2).2) := by
  induction first generalizing state with
  | nil => rfl
  | cons call rest ih => rw [List.cons_append, run, ih, run, List.cons_append]

theorem length_run_fst (step : σ → χ → ω × σ) (calls : List χ) (state : σ) :
    (run step calls state).1.length = calls.length := by
  induction calls generalizing state with
  | nil => rfl
  | cons call rest ih => rw [run, List.length_cons, ih, List.length_cons]

/-- What each call preserves, every history preserves. -/
theorem run_preserves {step : σ → χ → ω × σ} (Holds : σ → Prop)
    (preserves : ∀ state call, Holds state → Holds (step state call).2) (calls : List χ)
    {state : σ} (holds : Holds state) : Holds (run step calls state).2 := by
  induction calls generalizing state with
  | nil => exact holds
  | cons call rest ih => exact ih (preserves state call holds)

theorem run_simulates {concrete : σ → χ → ω × σ} {abstract : τ → χ → ω × τ}
    (Related : σ → τ → Prop)
    (simulates : ∀ s t call, Related s t →
      (concrete s call).1 = (abstract t call).1 ∧ Related (concrete s call).2 (abstract t call).2)
    (calls : List χ) {s : σ} {t : τ} (related : Related s t) :
    (run concrete calls s).1 = (run abstract calls t).1 ∧
      Related (run concrete calls s).2 (run abstract calls t).2 := by
  induction calls generalizing s t with
  | nil => exact ⟨rfl, related⟩
  | cons call rest ih =>
    obtain ⟨answered, still⟩ := simulates s t call related
    obtain ⟨others, final⟩ := ih still
    exact ⟨by rw [run, run, answered, others], final⟩

end TripleCube.Calls
