import NovaBank.Java.Map

/-!
# Redis

The commands of a Redis server on hashes and sets, as operations on maps: each command is atomic, a
key that does not exist is an empty hash or set, and a hash or set exists as soon as something is
put into it.
-/

namespace NovaBank.Java

/-- The hashes and the sets of a server, each under its key. -/
structure Redis where
  hashes : JavaMap String (JavaMap String String)
  sets : JavaMap String (JavaMap String Unit)
  deriving DecidableEq

namespace Redis

/-- A server without data. -/
def empty : Redis := ⟨KeyedMap.empty, KeyedMap.empty⟩

/-- `HGETALL key`. -/
def hgetAll (r : Redis) (key : String) : JavaMap String String :=
  (r.hashes.lookup key).getD KeyedMap.empty

/-- `HSET key field value`. -/
def hset (r : Redis) (key field value : String) : Redis :=
  { r with hashes := r.hashes.insert key ((r.hgetAll key).insert field value) }

/-- `SISMEMBER key member`. -/
def sismember (r : Redis) (key member : String) : Bool :=
  ((r.sets.lookup key).bind fun s => s.lookup member).isSome

/-- `SADD key member`. -/
def sadd (r : Redis) (key member : String) : Redis :=
  { r with sets := r.sets.insert key (((r.sets.lookup key).getD KeyedMap.empty).insert member ()) }

/-- `SREM key member`. A set without members does not exist. -/
def srem (r : Redis) (key member : String) : Redis :=
  let s : JavaMap String Unit := ((r.sets.lookup key).getD KeyedMap.empty).remove member
  { r with sets := if s.values.isEmpty then r.sets.remove key else r.sets.insert key s }

/-- `HGET key field`, `none` for `null`. -/
def hget (r : Redis) (key field : String) : Option String := (r.hgetAll key).lookup field

/-- `KEYS start*`. -/
def keysWith (r : Redis) (start : String) : List String :=
  (r.hashes.keys ++ r.sets.keys.filter (· ∉ r.hashes.keys)).filter fun key =>
    start.toList.isPrefixOf key.toList

/-- A write of a field is seen in its hash only. -/
theorem hgetAll_hset (r : Redis) (k j field value : String) :
    (r.hset k field value).hgetAll j =
      if k = j then (r.hgetAll k).insert field value else r.hgetAll j := by
  unfold hset hgetAll
  rw [JavaMap.lookup_insert]
  split_ifs <;> rfl

/-- A field after one was set. -/
theorem hget_hset (r : Redis) (k j field value f : String) :
    (r.hset k field value).hget j f =
      if k = j ∧ field = f then some value else r.hget j f := by
  unfold hget
  rw [hgetAll_hset]
  by_cases hk : k = j
  · subst hk
    rw [if_pos rfl, JavaMap.lookup_insert]
    simp
  · rw [if_neg hk, if_neg fun h => hk h.1]

/-- Adding to a set touches no field. -/
@[simp] theorem hget_sadd (r : Redis) (k member j f : String) :
    (r.sadd k member).hget j f = r.hget j f := rfl

/-- Adding to a set touches no hash. -/
@[simp] theorem hgetAll_sadd (r : Redis) (k member j : String) :
    (r.sadd k member).hgetAll j = r.hgetAll j := rfl

/-- Setting a field touches no set. -/
@[simp] theorem sismember_hset (r : Redis) (k field value j member : String) :
    (r.hset k field value).sismember j member = r.sismember j member := rfl

/-- A member that is added is seen in its set only. -/
theorem sismember_sadd (r : Redis) (k x j y : String) :
    (r.sadd k x).sismember j y = if k = j ∧ x = y then true else r.sismember j y := by
  unfold sadd sismember
  rw [JavaMap.lookup_insert]
  by_cases hk : k = j
  · subst hk
    rw [if_pos rfl, Option.bind_some, JavaMap.lookup_insert]
    by_cases hx : x = y
    · simp [hx]
    · rw [if_neg hx, if_neg (fun h => hx h.2)]
      cases r.sets.lookup k <;> rfl
  · rw [if_neg hk, if_neg (fun h => hk h.1)]

/-- The sum of a weight over the hashes moves with the weight of the hash that is written, when an
empty hash weighs nothing. -/
theorem total_hset {G : Type} [AddCommGroup G] (w : String × JavaMap String String → G)
    (hw : ∀ k, w (k, KeyedMap.empty) = 0) (r : Redis) (key field value : String) :
    (r.hset key field value).hashes.total w =
      r.hashes.total w - w (key, r.hgetAll key) + w (key, (r.hgetAll key).insert field value) := by
  have hold : (r.hashes.get key).elim 0 w = w (key, r.hgetAll key) := by
    unfold hgetAll JavaMap.lookup
    cases h : r.hashes.get key with
    | none => exact (hw key).symm
    | some e =>
      obtain rfl : e.1 = key := KeyedMap.key_of_get h
      rfl
  rw [hset, JavaMap.insert, KeyedMap.total_put, hold]

end Redis

end NovaBank.Java
