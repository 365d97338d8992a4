import Mathlib.Algebra.BigOperators.Group.List.Basic
import Mathlib.Data.List.Nodup
import Mathlib.Data.List.Perm.Basic
import Mathlib.Tactic.Abel

/-!
# Keyed maps

The finite maps of the Java programs, as lists of values with distinct keys. `KeyedMap key` holds
values that know their own key, `key v`: an entry cannot be stored under another key than its own,
so that no proof carries that fact as a hypothesis. `JavaMap κ ν` is the map from keys to unrelated
values, with the pair as the value and its first component as the key.

`put` replaces an entry where it stands and adds a new one at the end, as a `put` of
`java.util.HashMap` does to the history of insertions that the order of its buckets depends on.
The order of an iteration is not a property of the map: `inOrder` takes it as a parameter.

`total` sums a weight over the values, in any additive group. `total_put` and `total_remove` say
how the two updates move it, which is all that a conservation proof needs of a map.
-/

namespace NovaBank.Java

/-- A finite map whose values carry their key, in the order of their insertion. -/
structure KeyedMap {κ ν : Type} (key : ν → κ) where
  /-- The values, oldest first. -/
  values : List ν
  /-- No two values have the same key. -/
  nodup : (values.map key).Nodup

namespace KeyedMap

variable {κ ν : Type} {key : ν → κ}

/-- Two maps with the same values in the same order are equal. -/
@[ext]
theorem ext {m n : KeyedMap key} (h : m.values = n.values) : m = n := by
  cases m; cases n; cases h; rfl

/-- Two maps are equal when their values are, in order. -/
instance [DecidableEq ν] : DecidableEq (KeyedMap key) := fun m n =>
  decidable_of_iff (m.values = n.values) ⟨KeyedMap.ext, fun h => by rw [h]⟩

/-- The map without entries. -/
def empty : KeyedMap key := ⟨[], List.nodup_nil⟩

/-- The empty map is the default one. -/
instance : Inhabited (KeyedMap key) := ⟨empty⟩

/-- The keys, oldest first. -/
def keys (m : KeyedMap key) : List κ := m.values.map key

/-- The number of entries. -/
def size (m : KeyedMap key) : ℕ := m.values.length

/-- An empty map has no values. -/
@[simp] theorem empty_values : (empty : KeyedMap key).values = [] := rfl

variable [DecidableEq κ]

/-- The value stored under a key. -/
def get (m : KeyedMap key) (k : κ) : Option ν := m.values.find? fun v => decide (key v = k)

/-- `put` on the list of values: the value with the same key is replaced where it stands, and a
value with a new key is added at the end. -/
def putList (key : ν → κ) (v : ν) : List ν → List ν
  | [] => [v]
  | w :: ws => if key w = key v then v :: ws else w :: putList key v ws

/-- Replacing a value keeps the keys, and adding one appends its key. -/
theorem map_putList (v : ν) (l : List ν) :
    (putList key v l).map key = if key v ∈ l.map key then l.map key else l.map key ++ [key v] := by
  induction l with
  | nil => simp [putList]
  | cons w ws ih =>
    by_cases h : key w = key v
    · simp [putList, h]
    · have h' : key v ≠ key w := fun e => h e.symm
      simp only [putList, h, if_false, List.map_cons, ih, List.mem_cons, h', false_or]
      split_ifs <;> simp

/-- Store a value under its key. -/
def put (m : KeyedMap key) (v : ν) : KeyedMap key where
  values := putList key v m.values
  nodup := by
    rw [map_putList]
    split_ifs with h
    · exact m.nodup
    · refine List.nodup_append.mpr ⟨m.nodup, List.nodup_singleton _, ?_⟩
      rintro k hk _ hv rfl
      exact h (List.mem_singleton.mp hv ▸ hk)

/-- Remove the entry of a key. -/
def remove (m : KeyedMap key) (k : κ) : KeyedMap key where
  values := m.values.filter fun v => decide (key v ≠ k)
  nodup := m.nodup.sublist (List.filter_sublist.map key)

/-- The values in the order in which an iteration visits their keys. -/
def inOrder (order : List κ → List κ) (m : KeyedMap key) : List ν := (order m.keys).filterMap m.get

/-! ## Look-ups -/

/-- An empty map has nothing under any key. -/
@[simp] theorem get_empty (k : κ) : (empty : KeyedMap key).get k = none := rfl

/-- A stored value has the key that it is stored under. -/
theorem key_of_get {m : KeyedMap key} {k : κ} {v : ν} (h : m.get k = some v) : key v = k := by
  simpa using List.find?_some h

/-- A stored value is one of the values. -/
theorem mem_of_get {m : KeyedMap key} {k : κ} {v : ν} (h : m.get k = some v) : v ∈ m.values :=
  List.mem_of_find?_eq_some h

/-- A key is absent when no value has it. -/
theorem get_eq_none_iff {m : KeyedMap key} {k : κ} : m.get k = none ↔ ∀ v ∈ m.values, key v ≠ k := by
  simp [get]

/-- A map that finds nothing is empty. -/
theorem eq_empty_of_get {m : KeyedMap key} (h : ∀ k, m.get k = none) : m = empty := by
  apply KeyedMap.ext
  rw [empty_values, List.eq_nil_iff_forall_not_mem]
  exact fun v hv => get_eq_none_iff.mp (h _) v hv rfl

/-- Every value is stored under its own key. -/
theorem get_of_mem {m : KeyedMap key} {v : ν} (h : v ∈ m.values) : m.get (key v) = some v := by
  obtain ⟨l, nd⟩ := m
  simp only [get] at h ⊢
  induction l with
  | nil => simp at h
  | cons w ws ih =>
    simp only [List.map_cons, List.nodup_cons] at nd
    rcases List.mem_cons.mp h with rfl | h
    · simp
    · have hne : key w ≠ key v := fun e => nd.1 (e ▸ List.mem_map_of_mem h)
      simp only [List.find?_cons, hne, decide_false]
      exact ih nd.2 h

/-- The look-up on the list that `put` builds. -/
theorem find?_putList (v : ν) (k : κ) (l : List ν) :
    (putList key v l).find? (fun w => decide (key w = k)) =
      if key v = k then some v else l.find? fun w => decide (key w = k) := by
  induction l with
  | nil => by_cases h : key v = k <;> simp [putList, h]
  | cons w ws ih =>
    -- The value replaces one with its key, or goes to the end.
    by_cases hw : key w = key v
    · by_cases h : key v = k <;> simp [putList, hw, h]
    · by_cases h : key v = k
      · have hwk : key w ≠ k := fun e => hw (e.trans h.symm)
        simp [putList, ih, h, hwk]
      · by_cases hwk : key w = k
        · subst hwk
          simp [putList, hw, h]
        · simp [putList, hw, hwk, ih, h]

/-- After a `put` the value is stored under its key, and every other key is as before. -/
@[simp] theorem get_put (m : KeyedMap key) (v : ν) (k : κ) :
    (m.put v).get k = if key v = k then some v else m.get k :=
  find?_putList v k m.values

/-- After a `remove` the key is absent, and every other key is as before. -/
@[simp] theorem get_remove (m : KeyedMap key) (j k : κ) :
    (m.remove j).get k = if j = k then none else m.get k := by
  by_cases h : j = k
  · subst h
    rw [if_pos rfl, get_eq_none_iff]
    intro v hv
    simpa [remove] using (List.mem_filter.mp hv).2
  · rw [if_neg h]
    simp only [get, remove, List.find?_filter]
    congr 1
    -- Removing other keys does not matter for this one.
    funext v
    by_cases hv : key v = k
    · simp [hv, Ne.symm h]
    · simp [hv]

/-- The order of iteration of a program that never reorders: the values as they were inserted. -/
@[simp] theorem inOrder_id (m : KeyedMap key) : m.inOrder id = m.values := by
  have h : ∀ l : List ν, (∀ v ∈ l, v ∈ m.values) → (l.map key).filterMap m.get = l := by
    intro l
    induction l with
    | nil => simp
    | cons v vs ih =>
      intro hl
      rw [List.map_cons, List.filterMap_cons_some (get_of_mem (hl v (by simp)))]
      rw [ih fun w hw => hl w (List.mem_cons_of_mem v hw)]
  exact h m.values fun v hv => hv

/-- Two maps with the same keys in the same order and the same look-ups are equal. -/
theorem ext_get {m n : KeyedMap key} (hk : m.keys = n.keys) (hg : ∀ k, m.get k = n.get k) :
    m = n := by
  apply KeyedMap.ext
  rw [← inOrder_id m, ← inOrder_id n, inOrder, inOrder, hk, funext hg]

/-- Replacing a value keeps the keys. -/
theorem keys_put_of_get {m : KeyedMap key} {v w : ν} (h : m.get (key v) = some w) :
    (m.put v).keys = m.keys := by
  have hv : key v ∈ m.values.map key := by
    rw [← key_of_get h]
    exact List.mem_map_of_mem (mem_of_get h)
  simp [keys, put, map_putList, hv]

/-! ## Images -/

section Map

variable {μ : Type} {key' : μ → κ}

/-- The map with every value replaced by one with the same key. -/
def map (f : ν → μ) (hf : ∀ v, key' (f v) = key v) (m : KeyedMap key) : KeyedMap key' where
  values := m.values.map f
  nodup := by
    have h : key' ∘ f = key := funext hf
    rw [List.map_map, h]
    exact m.nodup

variable {f : ν → μ} {hf : ∀ v, key' (f v) = key v}

omit [DecidableEq κ] in
/-- The values of a map to which a function was applied. -/
@[simp] theorem map_values (m : KeyedMap key) : (m.map f hf).values = m.values.map f := rfl

omit [DecidableEq κ] in
/-- A function that keeps the keys of the values keeps those of the map. -/
@[simp] theorem keys_map (m : KeyedMap key) : (m.map f hf).keys = m.keys := by
  have h : key' ∘ f = key := funext hf
  simp [keys, h]

/-- The value under a key, after a function was applied to the map. -/
@[simp] theorem get_map (m : KeyedMap key) (k : κ) : (m.map f hf).get k = (m.get k).map f := by
  simp only [get, map, List.find?_map]
  congr 2
  funext v
  simp [hf]

/-- The image of a `put` is the `put` of the image. -/
theorem map_put (m : KeyedMap key) (v : ν) : (m.put v).map f hf = (m.map f hf).put (f v) := by
  apply KeyedMap.ext
  simp only [map, put]
  induction m.values with
  | nil => rfl
  | cons w ws ih =>
    by_cases h : key w = key v
    · simp [putList, h, hf]
    · simp [putList, h, hf, ih]

/-- The image of a `remove` is the `remove` of the image. -/
theorem map_remove (m : KeyedMap key) (k : κ) : (m.remove k).map f hf = (m.map f hf).remove k := by
  apply KeyedMap.ext
  simp only [map, remove, List.filter_map]
  congr 2
  funext v
  simp [hf]

/-- An iteration over the image visits the images in the order of the keys. -/
theorem inOrder_map (order : List κ → List κ) (m : KeyedMap key) :
    (m.map f hf).inOrder order = (m.inOrder order).map f := by
  simp only [inOrder, keys_map, List.map_filterMap]
  congr 1
  funext k
  simp

end Map

/-! ## Sums over the values -/

section Total

variable {G : Type} [AddCommGroup G]

omit [DecidableEq κ] in
/-- The sum of a weight over the values. -/
def total (f : ν → G) (m : KeyedMap key) : G := (m.values.map f).sum

/-- A `put` replaces the weight of the value stored before under that key, if there was one. -/
theorem total_put (f : ν → G) (m : KeyedMap key) (v : ν) :
    (m.put v).total f = m.total f - (m.get (key v)).elim 0 f + f v := by
  obtain ⟨l, nd⟩ := m
  simp only [total, put, get]
  -- That the keys are distinct is not needed here, and would not fit the induction.
  clear nd
  induction l with
  | nil => simp [putList]
  | cons w ws ih =>
    by_cases h : key w = key v
    · simp [putList, h]
      abel
    · simp only [putList, h, if_false, List.map_cons, List.sum_cons, ih, List.find?_cons,
        decide_false]
      abel

/-- A `remove` takes the weight of the value stored under the key, if there was one. -/
theorem total_remove (f : ν → G) (m : KeyedMap key) (k : κ) :
    (m.remove k).total f = m.total f - (m.get k).elim 0 f := by
  obtain ⟨l, nd⟩ := m
  simp only [total, remove, get]
  induction l with
  | nil => simp
  | cons w ws ih =>
    simp only [List.map_cons, List.nodup_cons] at nd
    by_cases h : key w = k
    · -- The keys are distinct, so nothing else is removed.
      have hws : ws.filter (fun v => decide (key v ≠ k)) = ws := by
        rw [List.filter_eq_self]
        intro v hv
        simpa using fun e => nd.1 (by rw [h, ← e]; exact List.mem_map_of_mem hv)
      rw [List.filter_cons_of_neg (by simp [h]), hws]
      simp [h]
    · simp only [List.filter_cons, h, ne_eq, not_false_eq_true, decide_true, if_true, List.map_cons,
        List.sum_cons, List.find?_cons, decide_false]
      rw [ih nd.2]
      abel

omit [DecidableEq κ] in
/-- Two weights that agree on the values have the same sum. -/
theorem total_congr {f g : ν → G} {m : KeyedMap key} (h : ∀ v ∈ m.values, f v = g v) :
    m.total f = m.total g := by
  unfold total
  rw [List.map_congr_left h]

/-- A weight that is changed at one value only moves the sum by that change. -/
theorem total_update {f g : ν → G} {m : KeyedMap key} {k : κ} {v : ν} (h : m.get k = some v)
    (hg : ∀ w ∈ m.values, key w ≠ k → g w = f w) : m.total g = m.total f - f v + g v := by
  have hrest : (m.remove k).total g = (m.remove k).total f := by
    apply total_congr
    intro w hw
    obtain ⟨hw, hk⟩ := List.mem_filter.mp hw
    exact hg w hw (of_decide_eq_true hk)
  rw [total_remove, total_remove, h] at hrest
  rw [← sub_eq_iff_eq_add]
  exact hrest

end Total

end KeyedMap

/-! ## Maps with separate keys -/

/-- A map from keys to values that do not carry their key. -/
abbrev JavaMap (κ ν : Type) := KeyedMap (Prod.fst : κ × ν → κ)

namespace JavaMap

variable {κ ν μ : Type} [DecidableEq κ]

/-- The value stored under a key. -/
def lookup (m : JavaMap κ ν) (k : κ) : Option ν := (m.get k).map Prod.snd

/-- Store a value under a key. -/
def insert (m : JavaMap κ ν) (k : κ) (v : ν) : JavaMap κ ν := m.put (k, v)

/-- Nothing is found in an empty map. -/
@[simp] theorem lookup_empty (k : κ) : lookup (KeyedMap.empty : JavaMap κ ν) k = none := rfl

/-- What is found after an insertion. -/
@[simp] theorem lookup_insert (m : JavaMap κ ν) (j k : κ) (v : ν) :
    (m.insert j v).lookup k = if j = k then some v else m.lookup k := by
  simp only [lookup, insert, KeyedMap.get_put]
  split_ifs <;> rfl

/-- What is found after a removal. -/
@[simp] theorem lookup_remove (m : JavaMap κ ν) (j k : κ) :
    JavaMap.lookup (m.remove j) k = if j = k then none else m.lookup k := by
  simp only [lookup, KeyedMap.get_remove]
  split_ifs <;> rfl

/-- The stored pairs are the keys with their values. -/
theorem mem_values_iff {m : JavaMap κ ν} {k : κ} {v : ν} :
    (k, v) ∈ m.values ↔ m.lookup k = some v := by
  constructor
  · intro h
    have := KeyedMap.get_of_mem h
    simp_all [lookup]
  · intro h
    obtain ⟨⟨j, w⟩, hjw, rfl⟩ := Option.map_eq_some_iff.mp h
    have hk := KeyedMap.key_of_get hjw
    simp only at hk
    subst hk
    exact KeyedMap.mem_of_get hjw

/-- The keys of a map are those under which something is found. -/
theorem mem_keys_iff {m : JavaMap κ ν} {k : κ} : k ∈ m.keys ↔ ∃ v, m.lookup k = some v := by
  simp only [KeyedMap.keys, List.mem_map, Prod.exists, exists_and_right, exists_eq_right,
    mem_values_iff]

/-- The entry of a key is the key with its value. -/
theorem get_of_lookup {m : JavaMap κ ν} {k : κ} {v : ν} (h : m.lookup k = some v) :
    m.get k = some (k, v) :=
  KeyedMap.get_of_mem (mem_values_iff.mpr h)

/-- The map with every value replaced by its image. -/
def mapValues (f : ν → μ) (m : JavaMap κ ν) : JavaMap κ μ :=
  KeyedMap.map (fun e : κ × ν => (e.1, f e.2)) (fun _ => rfl) m

/-- What is found after a function was applied to the values. -/
@[simp] theorem lookup_mapValues (f : ν → μ) (m : JavaMap κ ν) (k : κ) :
    (m.mapValues f).lookup k = (m.lookup k).map f := by
  simp only [lookup, mapValues, KeyedMap.get_map, Option.map_map]
  rfl

/-- A function on the values commutes with an insertion. -/
@[simp] theorem mapValues_insert (f : ν → μ) (m : JavaMap κ ν) (k : κ) (v : ν) :
    (m.insert k v).mapValues f = (m.mapValues f).insert k (f v) :=
  KeyedMap.map_put m (k, v)

/-- A function on the values commutes with a removal. -/
@[simp] theorem mapValues_remove (f : ν → μ) (m : JavaMap κ ν) (k : κ) :
    JavaMap.mapValues f (m.remove k) = KeyedMap.remove (m.mapValues f) k :=
  KeyedMap.map_remove m k

/-- An image under a function that differs at one stored value only is an `insert` into the other
image. -/
theorem mapValues_eq_insert {f g : ν → μ} {m : JavaMap κ ν} {k : κ} {v : ν} (h : m.lookup k = some v)
    (hg : ∀ j w, j ≠ k → m.lookup j = some w → f w = g w) :
    m.mapValues f = (m.mapValues g).insert k (f v) := by
  obtain ⟨⟨j, w⟩, hjw, rfl⟩ := Option.map_eq_some_iff.mp h
  obtain rfl : j = k := KeyedMap.key_of_get hjw
  -- Both maps have the keys of `m`, in its order.
  apply KeyedMap.ext_get
  · rw [insert, KeyedMap.keys_put_of_get (w := (j, g w)) (by simp [mapValues, hjw])]
    simp [mapValues]
  · intro i
    by_cases e : j = i
    · subst e
      simp [mapValues, insert, hjw]
    · have e' : i ≠ j := fun h => e h.symm
      simp only [mapValues, insert, KeyedMap.get_put, e, if_false, KeyedMap.get_map]
      cases hi : m.get i with
      | none => rfl
      | some u =>
        obtain rfl : u.1 = i := KeyedMap.key_of_get hi
        simp [hg u.1 u.2 e' (by simp [lookup, hi])]

/-- Two functions that agree on the stored values have the same image. -/
theorem mapValues_congr {f g : ν → μ} {m : JavaMap κ ν}
    (h : ∀ k v, m.lookup k = some v → f v = g v) : m.mapValues f = m.mapValues g := by
  apply KeyedMap.ext
  simp only [mapValues, KeyedMap.map_values]
  apply List.map_congr_left
  rintro ⟨k, v⟩ hkv
  rw [h k v (mem_values_iff.mp hkv)]

end JavaMap

end NovaBank.Java
