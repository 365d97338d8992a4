import Mathlib.Data.List.Infix

/-!
# Costs of runs

What the steps of a run cost, summed up, and the rule of the potential: when each step with what it adds to
a potential costs no more than what is paid for it, the steps of a run cost no more than the potential at
its start and what is paid for them.
-/

namespace NovaBank.Cost

variable {σ α : Type} {f : σ → α → σ}

/-- The costs of the steps of a run, summed up. -/
def total (f : σ → α → σ) (cost : σ → α → ℕ) : σ → List α → ℕ
  | _, [] => 0
  | s, x :: xs => cost s x + total f cost (f s x) xs

/-- A constant factor comes out of the total. -/
theorem total_mul (n : ℕ) (cost : σ → α → ℕ) (s : σ) (xs : List α) :
    total f (fun s x => n * cost s x) s xs = n * total f cost s xs := by
  induction xs generalizing s with
  | nil => rfl
  | cons x xs ih => rw [total, total, ih, Nat.mul_add]

/-- The rule of the potential, with an invariant that the steps keep where a condition holds, and this
condition at every point of the run. -/
theorem total_le_of_potential {cost paid : σ → α → ℕ} {potential : σ → ℕ} {I J : σ → Prop}
    (keep : ∀ s x, I s → J s → I (f s x))
    (step : ∀ s x, I s → J s → cost s x + potential (f s x) ≤ potential s + paid s x) {s : σ}
    {xs : List α} (start : I s) (along : ∀ ys, ys <+: xs → J (ys.foldl f s)) :
    total f cost s xs + potential (xs.foldl f s) ≤ potential s + total f paid s xs := by
  -- On the steps, from any state in which both properties hold.
  induction xs generalizing s with
  | nil => exact Nat.le_of_eq (Nat.add_comm 0 _)
  | cons x xs ih =>
    have hJ : J s := along [] List.nil_prefix
    have hfirst := step s x start hJ
    have hrest := ih (keep s x start hJ) fun ys hys =>
      along (x :: ys) (List.cons_prefix_cons.mpr ⟨rfl, hys⟩)
    rw [total, total, List.foldl_cons]
    omega

/-- The rule of the potential when nothing is paid. -/
theorem total_le_potential {cost : σ → α → ℕ} {potential : σ → ℕ} {I : σ → Prop}
    (keep : ∀ s x, I s → I (f s x))
    (step : ∀ s x, I s → cost s x + potential (f s x) ≤ potential s) {s : σ} (start : I s)
    (xs : List α) : total f cost s xs ≤ potential s := by
  induction xs generalizing s with
  | nil => exact Nat.zero_le _
  | cons x xs ih =>
    have hfirst := step s x start
    have hrest := ih (keep s x start)
    rw [total]
    omega

end NovaBank.Cost
