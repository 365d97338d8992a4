import NovaBank.Proxy.Cache

/-!
# The cache as a map of accounts

What the methods of `BankServiceReplicationJedisCluster` keep in Redis stands for a map from names
to amounts: `Holds r m` says that the users of `m` are exactly those with an entry `users#<name>`,
that the set `users-registered` has the same names, and that each entry has the name and the text of
the amount. Each method is one operation on the map: `addNewUser` adds a user, `setAmount`,
`createMoney` and `transferMoney` assign amounts to users who are there.
-/

namespace NovaBank.Proxy

open Java Replica

namespace BankServiceReplicationJedisCluster

/-! ## Entries -/

/-- `s.startsWith("users#")`. -/
def isUserKey (s : String) : Bool := "users#".toList.isPrefixOf s.toList

/-- The key of a user is recognised. -/
@[simp] theorem isUserKey_userKey (u : String) : isUserKey (userKey u) = true := by
  rw [isUserKey, userKey, String.toList_append, List.isPrefixOf_iff_prefix]
  exact List.prefix_append _ _

/-- What starts with `users#` is the key of a user. -/
theorem eq_userKey {s : String} (h : isUserKey s = true) : ∃ u, s = userKey u := by
  obtain ⟨rest, hrest⟩ := List.isPrefixOf_iff_prefix.mp h
  refine ⟨String.ofList rest, String.toList_inj.mp ?_⟩
  rw [userKey, String.toList_append, @String.toList_ofList rest, hrest]

/-- The entry of a user, as `addNewUser` writes it and the other methods update it: it has the name
and the text of an amount. -/
def Entry (r : Redis) (u : String) (a : JLong) : Prop :=
  (r.hgetAll (userKey u)).lookup "username" = some u ∧
    (r.hgetAll (userKey u)).lookup "amount" = some (JLong.toText a)

/-- The amount of an entry is read from its text, and the text `null` is not a number. -/
theorem parseLong_jlongToText (a : JLong) : parseLong (JLong.toText a) = a := by
  cases a with
  | none => decide
  | some v => exact parseLong_toText v

/-- Two amounts are equal when their texts are. -/
theorem jlongToText_inj {a b : JLong} (h : JLong.toText a = JLong.toText b) : a = b := by
  rw [← parseLong_jlongToText a, h, parseLong_jlongToText]

namespace Entry

variable {r r' : Redis} {u : String} {a b : JLong}

/-- The amount of an entry is the one that its text stands for. -/
theorem amount_unique (ha : Entry r u a) (hb : Entry r u b) : a = b :=
  jlongToText_inj (Option.some.inj (ha.2.symm.trans hb.2))

/-- An entry depends on its hash only. -/
theorem of_hgetAll (h : Entry r u a) (e : r'.hgetAll (userKey u) = r.hgetAll (userKey u)) :
    Entry r' u a := by
  rw [Entry, e]
  exact h

/-- Writing the amount of an entry. -/
theorem hset (h : Entry r u a) (v : Int64) :
    Entry (r.hset (userKey u) "amount" (Long.toText v)) u (some v) := by
  rw [Entry, Redis.hgetAll_hset, if_pos rfl]
  refine ⟨?_, ?_⟩
  · rw [JavaMap.lookup_insert, if_neg (by decide)]
    exact h.1
  · rw [JavaMap.lookup_insert, if_pos rfl]
    rfl

/-- The hash of an entry is stored. -/
theorem lookup_ne_none (h : Entry r u a) : r.hashes.lookup (userKey u) ≠ none := by
  intro hnone
  have hname := h.1
  rw [Redis.hgetAll, hnone] at hname
  cases hname

/-- The key of an entry is there. -/
theorem mem_keys (h : Entry r u a) : userKey u ∈ r.hashes.keys :=
  JavaMap.mem_keys_iff.mpr (Option.ne_none_iff_exists'.mp h.lookup_ne_none)

/-- The hash of an entry is not empty. -/
theorem not_isEmpty (h : Entry r u a) : (r.hgetAll (userKey u)).values.isEmpty = false := by
  rw [List.isEmpty_eq_false_iff]
  intro hnil
  have hempty : r.hgetAll (userKey u) = KeyedMap.empty := KeyedMap.ext hnil
  have hname := h.1
  rw [hempty] at hname
  cases hname

/-- The amount of an entry, which is no number when it was `null`. -/
theorem entryAmount_eq (h : Entry r u a) :
    entryAmount r u = match a with
      | some v => .ok v
      | none => .error .numberFormat := by
  rw [entryAmount, h.2, Option.bind_some, parseLong_jlongToText]
  cases a <;> rfl

end Entry

/-! ## The map of accounts -/

/-- The cache `r` holds the accounts `m`. -/
structure Holds (r : Redis) (m : String → Option JLong) : Prop where
  entry : ∀ {u a}, m u = some a → Entry r u a
  absent : ∀ {u}, m u = none → r.hashes.lookup (userKey u) = none
  member : ∀ u, r.sismember "users-registered" u = (m u).isSome
  sets : ∀ s ∈ r.sets.keys, isUserKey s = false

/-- Assign an amount to a user, if there is one of the name. -/
def assign (m : String → Option JLong) (u : String) (v : Int64) : String → Option JLong := fun u' =>
  if u = u' then (m u').map fun _ => some v else m u'

/-- The new amount of a user who is there. -/
theorem assign_of_some {m : String → Option JLong} {u : String} {a : JLong} (h : m u = some a)
    (v : Int64) : assign m u v u = some (some v) := by
  rw [assign, if_pos rfl, h]
  rfl

/-- The others keep their amounts. -/
theorem assign_of_ne (m : String → Option JLong) {u u' : String} (h : u ≠ u') (v : Int64) :
    assign m u v u' = m u' := if_neg h

/-- Nobody of the name. -/
theorem assign_of_none {m : String → Option JLong} {u : String} (h : m u = none) (v : Int64) :
    assign m u v = m := by
  funext u'
  by_cases e : u = u'
  · subst e
    rw [assign, if_pos rfl, h]
    rfl
  · exact assign_of_ne m e v

/-- Assigning the amount that a user has. -/
theorem assign_same {m : String → Option JLong} {u : String} {v : Int64} (h : m u = some (some v)) :
    assign m u v = m := by
  funext u'
  by_cases e : u = u'
  · subst e
    rw [assign_of_some h, h]
  · exact assign_of_ne m e v

/-- The later of two assignments counts. -/
theorem assign_assign (m : String → Option JLong) (u : String) (v w : Int64) :
    assign (assign m u v) u w = assign m u w := by
  funext u'
  by_cases e : u = u'
  · simp [assign, e, Function.comp_def]
  · rw [assign_of_ne _ e, assign_of_ne _ e, assign_of_ne _ e]

/-- An empty cache has nobody. -/
theorem holds_empty : Holds Redis.empty fun _ => none where
  entry := by
    intro u a h
    cases h
  absent := fun _ => rfl
  member := fun _ => rfl
  sets := fun s hs => absurd hs List.not_mem_nil

namespace Holds

variable {r : Redis} {m : String → Option JLong} {u : String} {a : JLong}

/-- Registered are those who have an amount, if only `null`. -/
theorem isRegistered_eq (h : Holds r m) (u : String) : isRegistered r u = (m u).isSome := by
  rw [isRegistered, h.member]
  cases hu : m u with
  | none => simp
  | some a => rw [(h.entry hu).not_isEmpty]; rfl

/-- Writing the amount of a user who is there. -/
theorem hset (h : Holds r m) (hu : m u = some a) (v : Int64) :
    Holds (r.hset (userKey u) "amount" (Long.toText v)) (assign m u v) where
  entry := by
    intro u' a' hu'
    -- Keys of different users are different.
    by_cases e : u = u'
    · subst e
      rw [assign_of_some hu] at hu'
      obtain rfl := Option.some.inj hu'
      exact (h.entry hu).hset v
    · rw [assign_of_ne m e] at hu'
      refine (h.entry hu').of_hgetAll ?_
      rw [Redis.hgetAll_hset, if_neg fun hk => e (userKey_inj hk)]
  absent := by
    intro u' hu'
    have e : u ≠ u' := by
      rintro rfl
      rw [assign_of_some hu] at hu'
      cases hu'
    rw [assign_of_ne m e] at hu'
    rw [Redis.hset, JavaMap.lookup_insert, if_neg fun hk => e (userKey_inj hk)]
    exact h.absent hu'
  member := by
    intro u'
    rw [Redis.sismember_hset, h.member]
    -- The set of the registered users is not touched.
    by_cases e : u = u'
    · subst e
      rw [assign_of_some hu, hu]
      rfl
    · rw [assign_of_ne m e]
  sets := h.sets

/-- `setAmount` assigns. -/
theorem setAmount (h : Holds r m) (u : String) (v : Int64) : Holds (setAmount u v r) (assign m u v) := by
  rw [BankServiceReplicationJedisCluster.setAmount, h.isRegistered_eq]
  cases hu : m u with
  | none =>
    rw [assign_of_none hu]
    exact h
  | some a => exact h.hset hu v

/-- `getMoney` of a user with an amount. -/
theorem getMoney_eq (h : Holds r m) (u : String) :
    getMoney u r = match m u with
      | none => .ok none
      | some none => .error .numberFormat
      | some (some v) => .ok (some v) := by
  rw [getMoney, h.isRegistered_eq]
  cases hu : m u with
  | none => rfl
  | some a =>
    rw [(h.entry hu).entryAmount_eq]
    cases a <;> rfl

/-- `createMoney` adds to the amount. -/
theorem createMoney (h : Holds r m) {old : Int64} (hu : m u = some (some old)) (amount : Int64) :
    ∃ r', createMoney u amount r = (.ok true, r') ∧ Holds r' (assign m u (amount + old)) := by
  have hentry := (h.entry hu).entryAmount_eq
  rw [BankServiceReplicationJedisCluster.createMoney, h.isRegistered_eq, hu, hentry]
  exact ⟨_, rfl, h.hset hu _⟩

/-- `addNewUser` adds a user of a new name. -/
theorem addNewUser (h : Holds r m) (hu : m u = none) (password : String) (a : JLong) :
    Holds (addNewUser u password a r).2 (Function.update m u (some a)) := by
  -- A name that the cache does not know passes both checks.
  have hempty : r.hgetAll (userKey u) = KeyedMap.empty := by
    rw [Redis.hgetAll, h.absent hu]
    rfl
  have hmember : r.sismember "users-registered" u = false := by rw [h.member, hu]; rfl
  have hnew : ((KeyedMap.empty : JavaMap String String).values.isEmpty && !false) = true := rfl
  rw [BankServiceReplicationJedisCluster.addNewUser, hempty, hmember, if_pos hnew]
  dsimp only
  refine ⟨?_, ?_, ?_, ?_⟩
  · intro u' a' hu'
    by_cases e : u = u'
    · subst e
      rw [Function.update_self] at hu'
      obtain rfl := Option.some.inj hu'
      -- The new name is the only one that is added to the set.
      simp [Entry, Redis.hgetAll_hset]
    · rw [Function.update_of_ne (Ne.symm e)] at hu'
      have hk : userKey u ≠ userKey u' := fun hk => e (userKey_inj hk)
      refine (h.entry hu').of_hgetAll ?_
      rw [Redis.hgetAll_sadd, Redis.hgetAll_hset, if_neg hk, Redis.hgetAll_hset, if_neg hk,
        Redis.hgetAll_hset, if_neg hk]
  · intro u' hu'
    have e : u ≠ u' := by
      rintro rfl
      rw [Function.update_self] at hu'
      cases hu'
    rw [Function.update_of_ne (Ne.symm e)] at hu'
    have hk : userKey u ≠ userKey u' := fun hk => e (userKey_inj hk)
    simp only [Redis.sadd, Redis.hset, JavaMap.lookup_insert, if_neg hk]
    exact h.absent hu'
  · intro u'
    rw [Redis.sismember_sadd, Redis.sismember_hset, Redis.sismember_hset, Redis.sismember_hset,
      h.member]
    by_cases e : u = u'
    · subst e
      rw [if_pos ⟨rfl, rfl⟩, Function.update_self]
      rfl
    · rw [if_neg fun he => e he.2, Function.update_of_ne (Ne.symm e)]
  · intro s hs
    obtain ⟨set, hset⟩ := JavaMap.mem_keys_iff.mp hs
    rw [Redis.sadd, JavaMap.lookup_insert] at hset
    by_cases e : "users-registered" = s
    · rw [← e]
      decide
    · rw [if_neg e] at hset
      exact h.sets s (JavaMap.mem_keys_iff.mpr ⟨set, hset⟩)

section Transfer

variable {sender receiver : String} {v w : Int64}

/-- What `transferMoney` makes of the accounts when both amounts are known: both new amounts, unless
the sender's would be negative. -/
def transferred (m : String → Option JLong) (sender receiver : String) (v w amount : Int64) :
    String → Option JLong :=
  if 0 ≤ v - amount then assign (assign m sender (v - amount)) receiver (w + amount) else m

/-- A transfer in the cache moves the amount, unless the sender would be left with less than nothing. -/
theorem transferMoney (h : Holds r m) (hs : m sender = some (some v)) (ht : m receiver = some (some w))
    (amount : Int64) :
    ∃ r', transferMoney sender receiver amount r = (.ok (decide (0 ≤ v - amount)), r') ∧
      Holds r' (transferred m sender receiver v w amount) := by
  have hv : entryAmount r sender = .ok v := (h.entry hs).entryAmount_eq
  have hw : entryAmount r receiver = .ok w := (h.entry ht).entryAmount_eq
  unfold BankServiceReplicationJedisCluster.transferMoney transferred
  rw [h.isRegistered_eq, h.isRegistered_eq, hs, ht, hv, hw]
  by_cases h0 : 0 ≤ v - amount
  · -- The receiver is still there after the sender's amount was written.
    have ht' : assign m sender (v - amount) receiver ≠ none := by
      by_cases e : sender = receiver
      · subst e
        rw [assign_of_some hs]
        exact Option.some_ne_none _
      · rw [assign_of_ne m e, ht]
        exact Option.some_ne_none _
    obtain ⟨b, hb⟩ := Option.ne_none_iff_exists'.mp ht'
    simp only [Option.isSome_some, if_true, h0, decide_true]
    exact ⟨_, rfl, (h.hset hs _).hset hb _⟩
  · simp only [Option.isSome_some, if_true, if_false, h0, decide_false]
    exact ⟨r, rfl, h⟩

/-- `getTransferInfo` of two users with amounts. -/
theorem getTransferInfo (h : Holds r m) (hs : m sender = some (some v))
    (ht : m receiver = some (some w)) (amount : Int64) :
    ∃ r', getTransferInfo sender receiver amount r =
        (.ok (some ⟨v, w, v - amount, w + amount⟩), r') ∧
      Holds r' (transferred m sender receiver v w amount) := by
  have hv : entryAmount r sender = .ok v := (h.entry hs).entryAmount_eq
  have hw : entryAmount r receiver = .ok w := (h.entry ht).entryAmount_eq
  obtain ⟨r', hr', hholds⟩ := h.transferMoney hs ht amount
  unfold BankServiceReplicationJedisCluster.getTransferInfo
  rw [h.isRegistered_eq, h.isRegistered_eq, hs, ht, hv, hw]
  simp only [Option.isSome_some, Bool.and_self, if_true, hr']
  exact ⟨r', rfl, hholds⟩

/-- `getTransferInfo` with a name that nobody has. -/
theorem getTransferInfo_of_none (h : Holds r m) (habsent : m sender = none ∨ m receiver = none)
    (amount : Int64) :
    BankServiceReplicationJedisCluster.getTransferInfo sender receiver amount r = (.ok none, r) := by
  unfold BankServiceReplicationJedisCluster.getTransferInfo
  rw [h.isRegistered_eq, h.isRegistered_eq]
  rcases habsent with hnone | hnone
  · rw [hnone]
    rfl
  · rw [hnone, Option.isSome_none, Bool.and_false]
    rfl

/-- `getTransferInfo` with an amount that is not a number. -/
theorem getTransferInfo_of_null (h : Holds r m) {a b : JLong} (hs : m sender = some a)
    (ht : m receiver = some b) (amount : Int64) (hnull : a = none ∨ b = none) :
    BankServiceReplicationJedisCluster.getTransferInfo sender receiver amount r =
      (.error .numberFormat, r) := by
  have hv := (h.entry hs).entryAmount_eq
  have hw := (h.entry ht).entryAmount_eq
  unfold BankServiceReplicationJedisCluster.getTransferInfo
  rw [h.isRegistered_eq, h.isRegistered_eq, hs, ht, hv, hw]
  cases a with
  | none => rfl
  | some v =>
    obtain rfl : b = none := hnull.resolve_left (Option.some_ne_none v)
    rfl

end Transfer

end Holds

end BankServiceReplicationJedisCluster

end NovaBank.Proxy
