import Mathlib.Data.Set.Defs

/-!
# Operations that look at a part of the state

A state is what it holds in each place (`look`). An operation is local to a set of places, its
footprint, when it changes no other place and when its result, and what it puts into those places,
depend on nothing else (`Local`). The footprint may depend on the state, as long as it can be read off
the places in it. Two operations whose footprints are apart may be exchanged (`Local.exchange`).
-/

namespace NovaBank.Footprint

variable {σ κ ν α β : Type} {look : σ → κ → ν}

/-- Two states hold the same in the places of a set. -/
def AgreeOn (look : σ → κ → ν) (F : Set κ) (s t : σ) : Prop := ∀ k ∈ F, look s k = look t k

/-- Two footprints have no place in common. -/
def Apart (F G : Set κ) : Prop := ∀ k ∈ F, k ∉ G

/-- Being apart does not depend on the order of the two. -/
theorem Apart.symm {F G : Set κ} (h : Apart F G) : Apart G F := fun k hk hF => h k hF hk

/-- An operation that is local to its footprint. -/
structure Local (look : σ → κ → ν) (F : σ → Set κ) (f : σ → α × σ) : Prop where
  /-- The footprint is read off its own places. -/
  stable : ∀ {s t}, AgreeOn look (F s) s t → F t = F s
  /-- So is the result. -/
  result : ∀ {s t}, AgreeOn look (F s) s t → (f t).1 = (f s).1
  /-- So is what is put into them. -/
  effect : ∀ {s t}, AgreeOn look (F s) s t → AgreeOn look (F s) (f s).2 (f t).2
  /-- The other places are left alone. -/
  frame : ∀ {s k}, k ∉ F s → look (f s).2 k = look s k

variable {F G : σ → Set κ} {f : σ → α × σ} {g : σ → β × σ} {s : σ}

/-- An operation changes nothing that an operation with a footprint apart from its own looks at. -/
theorem Local.agreeOn_of_apart (hf : Local look F f) {H : Set κ} (h : Apart (F s) H) :
    AgreeOn look H s (f s).2 := by
  intro k hk
  exact (hf.frame (h.symm k hk)).symm

/-- Operations whose footprints are apart may be exchanged: each returns what it would have returned
without the other, and the state after both is the same. -/
theorem Local.exchange (ext : ∀ {s t : σ}, (∀ k, look s k = look t k) → s = t) (hf : Local look F f)
    (hg : Local look G g) (h : Apart (F s) (G s)) :
    (g (f s).2).1 = (g s).1 ∧ (f (g s).2).1 = (f s).1 ∧ (g (f s).2).2 = (f (g s).2).2 := by
  -- Each of the two leaves alone what the other one looks at.
  have hG : AgreeOn look (G s) s (f s).2 := hf.agreeOn_of_apart h
  have hF : AgreeOn look (F s) s (g s).2 := hg.agreeOn_of_apart h.symm
  refine ⟨hg.result hG, hf.result hF, ext fun k => ?_⟩
  -- A place is in the footprint of the first, of the second, or of neither.
  by_cases hkF : k ∈ F s
  · have hkG : k ∉ G (f s).2 := by
      rw [hg.stable hG]
      exact h k hkF
    calc look (g (f s).2).2 k = look (f s).2 k := hg.frame hkG
      _ = look (f (g s).2).2 k := hf.effect hF k hkF
  · have hkF' : k ∉ F (g s).2 := by
      rw [hf.stable hF]
      exact hkF
    by_cases hkG : k ∈ G s
    · calc look (g (f s).2).2 k = look (g s).2 k := (hg.effect hG k hkG).symm
        _ = look (f (g s).2).2 k := (hf.frame hkF').symm
    · have hkG' : k ∉ G (f s).2 := by
        rw [hg.stable hG]
        exact hkG
      calc look (g (f s).2).2 k = look (f s).2 k := hg.frame hkG'
        _ = look s k := hf.frame hkF
        _ = look (g s).2 k := (hg.frame hkG).symm
        _ = look (f (g s).2).2 k := (hf.frame hkF').symm

end NovaBank.Footprint
