import Mathlib.Logic.Function.Iterate

/-!
# Repeating a step until it finishes

A method that calls itself again after a failed attempt: a step on a state that finishes with a
result or asks to be repeated on the state that it leaves. `retry` repeats it with some fuel, and
`Returns` says that there is enough of it.

When the states are tracked by values that each failed attempt moves by a function, the repetition
returns exactly when the iterates of that function meet the value at which an attempt finishes
(`returns_iff_iterate`).
-/

namespace NovaBank.Retry

variable {σ α γ : Type} {step : σ → Option α × σ} {s s' t : σ} {a b : α}

/-- Repeat a step until it finishes, at most as often as the fuel says. -/
def retry (step : σ → Option α × σ) : ℕ → σ → Option (α × σ)
  | 0, _ => none
  | fuel + 1, s =>
    match step s with
    | (some a, s) => some (a, s)
    | (none, s) => retry step fuel s

/-- The repetition ends with a result. -/
def Returns (step : σ → Option α × σ) (s : σ) (a : α) (s' : σ) : Prop :=
  ∃ fuel, retry step fuel s = some (a, s')

/-- After a step that finishes there is no other result. -/
theorem returns_iff_of_done (h : step s = (some a, s')) : Returns step s b t ↔ b = a ∧ t = s' := by
  constructor
  · rintro ⟨fuel, hfuel⟩
    cases fuel with
    | zero => cases hfuel
    | succ fuel =>
      rw [retry, h] at hfuel
      cases hfuel
      exact ⟨rfl, rfl⟩
  · rintro ⟨rfl, rfl⟩
    refine ⟨1, ?_⟩
    rw [retry, h]

/-- A step that does not finish is repeated. -/
theorem returns_iff_of_again (h : step s = (none, s')) :
    Returns step s b t ↔ Returns step s' b t := by
  constructor
  · rintro ⟨fuel, hfuel⟩
    cases fuel with
    | zero => cases hfuel
    | succ fuel =>
      rw [retry, h] at hfuel
      exact ⟨fuel, hfuel⟩
  · rintro ⟨fuel, hfuel⟩
    refine ⟨fuel + 1, ?_⟩
    rw [retry, h]
    exact hfuel

/-- The states of a repetition are tracked by values: at a value with `stop` the step finishes, and
at any other one it is repeated at the next value. Then the repetition ends exactly when an iterate
of `next` has `stop`. -/
theorem returns_iff_iterate {At : γ → σ → Prop} {next : γ → γ} {stop : γ → Prop}
    {Post : α → σ → Prop}
    (done : ∀ c s, At c s → stop c → ∃ a s', step s = (some a, s') ∧ Post a s')
    (again : ∀ c s, At c s → ¬ stop c → ∃ s', step s = (none, s') ∧ At (next c) s')
    {c : γ} (h : At c s) :
    (∃ a s', Returns step s a s' ∧ Post a s') ↔ ∃ n, stop (next^[n] c) := by
  constructor
  · rintro ⟨a, s', ⟨fuel, hfuel⟩, -⟩
    -- On the fuel: as long as the counter has not stopped, the attempt is repeated.
    induction fuel generalizing c s with
    | zero => cases hfuel
    | succ fuel ih =>
      by_cases hstop : stop c
      · exact ⟨0, hstop⟩
      · obtain ⟨s₁, hs₁, hAt⟩ := again c s h hstop
        rw [retry, hs₁] at hfuel
        obtain ⟨n, hn⟩ := ih hAt hfuel
        exact ⟨n + 1, hn⟩
  · rintro ⟨n, hn⟩
    -- On the number of steps of the counter, which may stop earlier.
    induction n generalizing c s with
    | zero =>
      obtain ⟨a, s', hs', hpost⟩ := done c s h hn
      exact ⟨a, s', (returns_iff_of_done hs').mpr ⟨rfl, rfl⟩, hpost⟩
    | succ n ih =>
      by_cases hstop : stop c
      · obtain ⟨a, s', hs', hpost⟩ := done c s h hstop
        exact ⟨a, s', (returns_iff_of_done hs').mpr ⟨rfl, rfl⟩, hpost⟩
      · obtain ⟨s₁, hs₁, hAt⟩ := again c s h hstop
        obtain ⟨a, s', hreturns, hpost⟩ := ih hAt hn
        exact ⟨a, s', (returns_iff_of_again hs₁).mpr hreturns, hpost⟩

/-- A step that never finishes, as long as an invariant holds that it keeps. -/
theorem not_returns {I : σ → Prop} (again : ∀ s, I s → ∃ s', step s = (none, s') ∧ I s') (h : I s) :
    ¬ Returns step s a s' := by
  rintro ⟨fuel, hfuel⟩
  induction fuel generalizing s with
  | zero => cases hfuel
  | succ fuel ih =>
    obtain ⟨s₁, hs₁, hI⟩ := again s h
    rw [retry, hs₁] at hfuel
    exact ih hI hfuel

end NovaBank.Retry
