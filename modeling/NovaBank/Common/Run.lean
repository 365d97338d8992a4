import Mathlib.Data.List.Induction

/-!
# Properties of every point of a run

A run is the list of its steps, and a point of it is a prefix of that list. A property of all points
is equivalent to a condition on all steps when each step keeps the property exactly under its
condition (`forall_prefix_iff`).
-/

namespace NovaBank.Run

variable {α : Type}

/-- A property and an invariant that hold at the start: when each step keeps the property exactly
under its condition, and then the invariant, too, the property holds at every point of a run exactly
when every step of the run meets its condition. -/
theorem forall_prefix_iff_of_invariant {P I : List α → Prop} {C : List α → α → Prop} (nil : P [])
    (start : I []) (step : ∀ ys x, P ys → I ys → (P (ys ++ [x]) ↔ C ys x))
    (keep : ∀ ys x, P ys → I ys → C ys x → I (ys ++ [x])) (xs : List α) :
    (∀ ys, ys <+: xs → P ys) ↔ ∀ ys x, ys ++ [x] <+: xs → C ys x := by
  have init : ∀ {ys : List α} {x : α}, ys ++ [x] <+: xs → ys <+: xs :=
    fun h => (List.prefix_append _ _).trans h
  constructor
  · intro h
    -- On the points of the run: the invariant holds as long as the property does.
    have hinv : ∀ ys, ys <+: xs → I ys := by
      intro ys
      induction ys using List.reverseRecOn with
      | nil => exact fun _ => start
      | append_singleton ys x ih =>
        intro hx
        have hys := h ys (init hx)
        exact keep ys x hys (ih (init hx)) ((step ys x hys (ih (init hx))).mp (h _ hx))
    intro ys x hx
    exact (step ys x (h ys (init hx)) (hinv ys (init hx))).mp (h _ hx)
  · intro h
    have hboth : ∀ ys, ys <+: xs → P ys ∧ I ys := by
      intro ys
      induction ys using List.reverseRecOn with
      | nil => exact fun _ => ⟨nil, start⟩
      | append_singleton ys x ih =>
        intro hx
        obtain ⟨hP, hI⟩ := ih (init hx)
        have hC := h ys x hx
        exact ⟨(step ys x hP hI).mpr hC, keep ys x hP hI hC⟩
    exact fun ys hys => (hboth ys hys).1

/-- A property that holds at the start, and that each step keeps exactly under its condition, holds
at every point of a run exactly when every step of the run meets its condition. -/
theorem forall_prefix_iff {P : List α → Prop} {C : List α → α → Prop} (nil : P [])
    (step : ∀ ys x, P ys → (P (ys ++ [x]) ↔ C ys x)) (xs : List α) :
    (∀ ys, ys <+: xs → P ys) ↔ ∀ ys x, ys ++ [x] <+: xs → C ys x :=
  forall_prefix_iff_of_invariant (I := fun _ => True) nil trivial (fun ys x h _ => step ys x h)
    (fun _ _ _ _ _ => trivial) xs

/-- What holds after a run and not at its start begins to hold at some step. -/
theorem exists_step {P : List α → Prop} (start : ¬ P []) {xs : List α} (h : P xs) :
    ∃ ys x zs, xs = ys ++ x :: zs ∧ ¬ P ys ∧ P (ys ++ [x]) := by
  induction xs using List.reverseRecOn with
  | nil => exact absurd h start
  | append_singleton xs x ih =>
    by_cases hxs : P xs
    · obtain ⟨ys, y, zs, rfl, hys, hy⟩ := ih hxs
      exact ⟨ys, y, zs ++ [x], by simp, hys, hy⟩
    · exact ⟨xs, x, [], rfl, hxs, h⟩

/-- The steps of a run are its first one and those of the rest, which come after it. -/
theorem forall_concat_prefix_cons {C : List α → α → Prop} {a : α} {xs : List α} (first : C [] a)
    (rest : ∀ ys x, ys ++ [x] <+: xs → C (a :: ys) x) : ∀ ys x, ys ++ [x] <+: a :: xs → C ys x := by
  intro ys x h
  cases ys with
  | nil =>
    obtain ⟨rfl, -⟩ := List.cons_prefix_cons.mp h
    exact first
  | cons y ys =>
    obtain ⟨rfl, htail⟩ := List.cons_prefix_cons.mp h
    exact rest ys x htail

/-- A run without steps has none. -/
theorem forall_concat_prefix_nil {C : List α → α → Prop} : ∀ ys x, ys ++ [x] <+: [] → C ys x := by
  intro ys x h
  simp at h

/-- An invariant of the steps holds after every run. -/
theorem foldl_invariant {σ : Type} {f : σ → α → σ} {I : σ → Prop} (step : ∀ s x, I s → I (f s x))
    (xs : List α) {s : σ} (h : I s) : I (xs.foldl f s) := by
  induction xs generalizing s with
  | nil => exact h
  | cons x xs ih => exact ih (step s x h)

/-- When each step commutes with an abstraction, under an invariant that the steps keep, a whole run
does. -/
theorem foldl_refines {σ τ : Type} {f : σ → α → σ} {g : τ → α → τ} {abs : σ → τ} {I : σ → Prop}
    (step : ∀ s x, I s → abs (f s x) = g (abs s) x) (keep : ∀ s x, I s → I (f s x)) (xs : List α)
    {s : σ} (h : I s) : abs (xs.foldl f s) = xs.foldl g (abs s) := by
  induction xs generalizing s with
  | nil => rfl
  | cons x xs ih =>
    rw [List.foldl_cons, List.foldl_cons, ih (keep s x h), step s x h]

end NovaBank.Run
