import Mathlib.Data.Fintype.Card
import Mathlib.Data.Finset.Max

/-!
# Quorums

Of more than `2 f` members of which at most `f` are faulty, more than `f` are not faulty. Two such
quorums out of `3 f + 1` share a member that is not faulty. And the shortest part of a sequence that
holds a given number of elements with some property (`upToNth`): the moment at which a quorum is
reached.
-/

namespace NovaBank.Quorum

variable {α : Type} [DecidableEq α]

/-- A quorum has more than `f` members outside a faulty minority. -/
theorem lt_card_sdiff {f : ℕ} {quorum faulty : Finset α} (few : faulty.card ≤ f)
    (many : 2 * f + 1 ≤ quorum.card) : f + 1 ≤ (quorum \ faulty).card := by
  have h := Finset.le_card_sdiff faulty quorum
  omega

/-- A quorum has a member outside a faulty minority. -/
theorem exists_correct {f : ℕ} {quorum faulty : Finset α} (few : faulty.card ≤ f)
    (many : 2 * f + 1 ≤ quorum.card) : ∃ i ∈ quorum, i ∉ faulty := by
  have h := lt_card_sdiff few many
  obtain ⟨i, hi⟩ := Finset.card_pos.mp (by omega : 0 < (quorum \ faulty).card)
  exact ⟨i, Finset.mem_sdiff.mp hi⟩

/-- Two quorums have a member in common outside a faulty minority. -/
theorem exists_correct_of_two [Fintype α] {f : ℕ} {quorum quorum' faulty : Finset α}
    (all : Fintype.card α = 3 * f + 1) (few : faulty.card ≤ f) (many : 2 * f + 1 ≤ quorum.card)
    (many' : 2 * f + 1 ≤ quorum'.card) : ∃ i, i ∈ quorum ∧ i ∈ quorum' ∧ i ∉ faulty := by
  have hunion : (quorum ∪ quorum').card ≤ 3 * f + 1 := all ▸ Finset.card_le_univ _
  have hboth := Finset.card_union_add_card_inter quorum quorum'
  have hcorrect := Finset.le_card_sdiff faulty (quorum ∩ quorum')
  obtain ⟨i, hi⟩ := Finset.card_pos.mp (by omega : 0 < ((quorum ∩ quorum') \ faulty).card)
  obtain ⟨hi, hfaulty⟩ := Finset.mem_sdiff.mp hi
  obtain ⟨hquorum, hquorum'⟩ := Finset.mem_inter.mp hi
  exact ⟨i, hquorum, hquorum', hfaulty⟩

/-- Of the correct members of a quorum, one that has got furthest is further than whatever the members
in common with another quorum have passed. -/
theorem exists_furthest [Fintype α] {f : ℕ} {quorum faulty : Finset α}
    (all : Fintype.card α = 3 * f + 1) (few : faulty.card ≤ f) (many : 2 * f + 1 ≤ quorum.card)
    (p : α → ℕ) :
    ∃ i ∈ quorum, i ∉ faulty ∧ ∀ quorum' : Finset α, 2 * f + 1 ≤ quorum'.card → ∀ k,
      (∀ j ∈ quorum', j ∈ quorum → j ∉ faulty → k < p j) → k < p i := by
  obtain ⟨j, hj, hcorrect⟩ := exists_correct few many
  have hsome : (quorum \ faulty).Nonempty := ⟨j, Finset.mem_sdiff.mpr ⟨hj, hcorrect⟩⟩
  -- The correct member that is furthest. Any other quorum shares a correct member with this one.
  obtain ⟨i, hi, hmax⟩ := Finset.exists_max_image (quorum \ faulty) p hsome
  obtain ⟨hquorum, hfaulty⟩ := Finset.mem_sdiff.mp hi
  refine ⟨i, hquorum, hfaulty, ?_⟩
  intro quorum' many' k hpassed
  obtain ⟨j, hj, hj', hcorrect⟩ := exists_correct_of_two all few many many'
  have hle : p j ≤ p i := hmax j (Finset.mem_sdiff.mpr ⟨hj, hcorrect⟩)
  exact Nat.lt_of_lt_of_le (hpassed j hj' hj hcorrect) hle

omit [DecidableEq α] in
/-- The shortest part of a list from its beginning that has `n` elements with the property `p`, or
the whole list when it has fewer. -/
def upToNth (p : α → Bool) : ℕ → List α → List α
  | 0, _ => []
  | _ + 1, [] => []
  | n + 1, a :: l => a :: upToNth p (if p a then n else n + 1) l

end NovaBank.Quorum
