import NovaBank.Proxy.Entries

/-!
# The refresh of the cache

`GET /all` of the controller compares a hash of the cached accounts with one that the replicas
compute, and when the two differ it gets the accounts of the replicas as an array and calls
`replaceUsers(arr)` of `BankServiceReplicationJedisCluster`. The loop goes over the keys that one call
of `SCAN` returns. These are some of the keys, about ten, in no particular order, and are not all entries
of users; the cursor for the other keys is dropped. The loop takes the new amount of the `index`th key
from the `index`th account of the array, whose order is that of a hash map of a replica. Nothing compares
the two names.

So each cached user gets their own balance exactly when the array has it at the position that their
key happens to have among those keys, or the key is not among them and the cached amount is the right
one already (`refresh_iff`).
-/

namespace NovaBank.Proxy

open Java Replica

namespace BankServiceReplicationJedisCluster

/-! ## The loop -/

/-- The body of the loop of `replaceUsers`. -/
def replaceUser (arr : List JSONObject) (index : ℕ) (s : String) (r : Redis) :
    Except JavaException Redis :=
  if isUserKey s then
    match arr[index]? with
    -- `arr.length() > index` fails.
    | none => .ok r
    | some j =>
      let userEntry := r.hgetAll s
      match j.getLong "amount" with
      | .error e => .error e
      | .ok val =>
        match (userEntry.lookup "amount").bind parseLong with
        | none => .error .numberFormat
        | some amount =>
          if amount ≠ val then
            .ok (r.hset (userKey (JString.toText (userEntry.lookup "username"))) "amount"
              (Long.toText val))
          else .ok r
  else .ok r

/-- The loop of `replaceUsers(arr)` over the rest of the keys, from a position on. What was written
before an exception stays. -/
def replaceUsersFrom (arr : List JSONObject) :
    ℕ → List String → Redis → Except JavaException Unit × Redis
  | _, [], r => (.ok (), r)
  | index, s :: result, r =>
    match replaceUser arr index s r with
    | .error e => (.error e, r)
    | .ok r => replaceUsersFrom arr (index + 1) result r

/-- `replaceUsers(arr)`, with the keys that `SCAN` returns. -/
def replaceUsers (arr : List JSONObject) (result : List String) (r : Redis) :
    Except JavaException Unit × Redis :=
  replaceUsersFrom arr 0 result r

/-! ## What the loop does -/

/-- The amount that a user with the amount `a` has after the loop has passed their key at a
position. -/
def assigned (arr : List JSONObject) (index : ℕ) (a : JLong) : Except JavaException JLong :=
  match arr[index]? with
  | none => .ok a
  | some j =>
    match j.getLong "amount" with
    | .error e => .error e
    | .ok val =>
      match a with
      | none => .error .numberFormat
      | some _ => .ok (some val)

/-- A key that is not one of an entry is passed over. -/
theorem replaceUser_of_other {arr : List JSONObject} {index : ℕ} {s : String} {r : Redis}
    (h : isUserKey s = false) : replaceUser arr index s r = .ok r := by
  rw [replaceUser, h]
  rfl

/-- One step on the key of a user: it assigns the amount at the position, whoever's that is, and
changes no other hash. -/
theorem replaceUser_userKey (arr : List JSONObject) (index : ℕ) {u : String} {r : Redis} {a : JLong}
    (h : Entry r u a) :
    match assigned arr index a with
    | .error e => replaceUser arr index (userKey u) r = .error e
    | .ok b => ∃ r', replaceUser arr index (userKey u) r = .ok r' ∧ Entry r' u b ∧
        ∀ k ≠ userKey u, r'.hgetAll k = r.hgetAll k := by
  unfold assigned replaceUser
  rw [if_pos (isUserKey_userKey u)]
  -- A key without an array element at its position is skipped.
  cases arr[index]? with
  | none => exact ⟨r, rfl, h, fun k _ => rfl⟩
  | some j =>
    dsimp only
    rw [h.1, h.2, Option.bind_some, parseLong_jlongToText]
    cases j.getLong "amount" with
    | error e => rfl
    | ok val =>
      cases a with
      | none => rfl
      | some v =>
        dsimp only
        -- An equal amount is not written again.
        by_cases hv : v = val
        · subst hv
          rw [if_neg (by simp)]
          exact ⟨r, rfl, h, fun k _ => rfl⟩
        · rw [if_pos hv]
          refine ⟨_, rfl, h.hset val, fun k hk => ?_⟩
          rw [JString.toText, Option.getD_some, Redis.hgetAll_hset, if_neg hk.symm]

/-- The keys of users among the given ones have entries. -/
def HaveEntries (r : Redis) (result : List String) : Prop :=
  ∀ s ∈ result, isUserKey s = true → ∃ u a, s = userKey u ∧ Entry r u a

/-- A step on the first key, which does not come again, leaves the entries of the others. -/
theorem HaveEntries.step {r r' : Redis} {s : String} {result : List String}
    (entries : HaveEntries r (s :: result)) (hs : s ∉ result)
    (frame : ∀ k ≠ s, r'.hgetAll k = r.hgetAll k) : HaveEntries r' result := by
  intro s' hs' huser
  obtain ⟨u, a, rfl, hu⟩ := entries s' (List.mem_cons_of_mem s hs') huser
  have hne : userKey u ≠ s := fun e => hs (e ▸ hs')
  exact ⟨u, a, rfl, hu.of_hgetAll (frame _ hne)⟩

/-- The loop changes no hash but those of the keys that it visits. -/
theorem replaceUsersFrom_frame (arr : List JSONObject) {k : String} (result : List String)
    (hk : k ∉ result) (index : ℕ) (r : Redis) (nodup : result.Nodup)
    (entries : HaveEntries r result) :
    (replaceUsersFrom arr index result r).2.hgetAll k = r.hgetAll k := by
  -- On the page: no visited key is `k`, and an error ends the loop.
  induction result generalizing index r with
  | nil => rfl
  | cons s result ih =>
    obtain ⟨hks, hrest⟩ := not_or.mp (List.mem_cons.not.mp hk)
    obtain ⟨hs, hnodup⟩ := List.nodup_cons.mp nodup
    cases hkey : isUserKey s with
    | false =>
      rw [replaceUsersFrom, replaceUser_of_other hkey]
      exact ih hrest (index + 1) r hnodup (entries.step hs fun _ _ => rfl)
    | true =>
      obtain ⟨u, a, rfl, hu⟩ := entries s List.mem_cons_self hkey
      have hstep := replaceUser_userKey arr index hu
      cases ha : assigned arr index a with
      | error e =>
        rw [ha] at hstep
        dsimp only at hstep
        rw [replaceUsersFrom, hstep]
      | ok b =>
        rw [ha] at hstep
        obtain ⟨r', hr', -, hframe⟩ := hstep
        rw [replaceUsersFrom, hr']
        dsimp only
        rw [ih hrest (index + 1) r' hnodup (entries.step hs hframe), hframe k hks]

/-- Every position of a key assigns the wanted amount to the user of the key. -/
def Assigns (arr : List JSONObject) (want : String → JLong → JLong) (index : ℕ)
    (result : List String) (r : Redis) : Prop :=
  ∀ p u a, result[p]? = some (userKey u) → Entry r u a →
    assigned arr (index + p) a = .ok (want u a)

/-- The positions of a list are the first one, and those of its rest. -/
theorem assigns_cons (arr : List JSONObject) (want : String → JLong → JLong) (index : ℕ)
    (s : String) (result : List String) (r : Redis) :
    Assigns arr want index (s :: result) r ↔
      (∀ u a, s = userKey u → Entry r u a → assigned arr index a = .ok (want u a)) ∧
        Assigns arr want (index + 1) result r := by
  -- The position of the first key is the index itself.
  constructor
  · intro h
    refine ⟨fun u a e => h 0 u a (by rw [e]; rfl), fun p u a hp => ?_⟩
    rw [add_assoc, add_comm 1 p]
    exact h (p + 1) u a hp
  · rintro ⟨hfirst, hrest⟩ p u a hp hu
    cases p with
    | zero => exact hfirst u a (Option.some.inj hp) hu
    | succ p =>
      rw [add_comm p 1, ← add_assoc]
      exact hrest p u a hp hu

/-- Only the entries of the visited keys matter. -/
theorem assigns_congr {arr : List JSONObject} {want : String → JLong → JLong} {index : ℕ}
    {result : List String} {r r' : Redis}
    (h : ∀ {u a}, userKey u ∈ result → (Entry r' u a ↔ Entry r u a)) :
    Assigns arr want index result r' ↔ Assigns arr want index result r := by
  constructor
  · intro hr p u a hp hu
    exact hr p u a hp ((h (List.mem_of_getElem? hp)).mpr hu)
  · intro hr p u a hp hu
    exact hr p u a hp ((h (List.mem_of_getElem? hp)).mp hu)

/-- The entries of the other keys are those before a step. -/
theorem entry_iff_of_frame {r r' : Redis} {u₀ : String} {result : List String}
    (hs : userKey u₀ ∉ result) (hframe : ∀ k ≠ userKey u₀, r'.hgetAll k = r.hgetAll k) {u : String}
    {a : JLong} (hu : userKey u ∈ result) : Entry r' u a ↔ Entry r u a := by
  have hne : userKey u ≠ userKey u₀ := fun e => hs (e ▸ hu)
  rw [Entry, Entry, hframe _ hne]

/-- The loop ends normally and leaves every user whose key it visits with the wanted amount. -/
def Leaves (arr : List JSONObject) (want : String → JLong → JLong) (index : ℕ) (result : List String)
    (r : Redis) : Prop :=
  (replaceUsersFrom arr index result r).1 = .ok () ∧
    ∀ u a, userKey u ∈ result → Entry r u a →
      Entry (replaceUsersFrom arr index result r).2 u (want u a)

/-- A key that is not one of an entry does not matter. -/
theorem leaves_cons_other {arr : List JSONObject} {want : String → JLong → JLong} {index : ℕ}
    {s : String} (result : List String) (r : Redis) (hs : ∀ u, s ≠ userKey u)
    (hkey : isUserKey s = false) :
    Leaves arr want index (s :: result) r ↔ Leaves arr want (index + 1) result r := by
  unfold Leaves
  rw [replaceUsersFrom, replaceUser_of_other hkey]
  constructor
  · rintro ⟨hok, h⟩
    exact ⟨hok, fun u a hu => h u a (List.mem_cons_of_mem s hu)⟩
  · rintro ⟨hok, h⟩
    refine ⟨hok, fun u a hu => h u a ?_⟩
    exact (List.mem_cons.mp hu).resolve_left (hs u).symm

/-- At the key of a user, the step must have assigned the wanted amount, and the rest goes on from
there. -/
theorem leaves_cons_user {arr : List JSONObject} {want : String → JLong → JLong} {index : ℕ}
    {u₀ : String} {a₀ b : JLong} {result : List String} {r r' : Redis} (hs : userKey u₀ ∉ result)
    (hnodup : result.Nodup) (hu₀ : Entry r u₀ a₀)
    (hstep : replaceUser arr index (userKey u₀) r = .ok r') (hb : Entry r' u₀ b)
    (hframe : ∀ k ≠ userKey u₀, r'.hgetAll k = r.hgetAll k) (entries : HaveEntries r' result) :
    Leaves arr want index (userKey u₀ :: result) r ↔
      b = want u₀ a₀ ∧ Leaves arr want (index + 1) result r' := by
  unfold Leaves
  rw [replaceUsersFrom, hstep]
  dsimp only
  -- The rest visits neither this key again nor changes its hash.
  have hend : Entry (replaceUsersFrom arr (index + 1) result r').2 u₀ b :=
    hb.of_hgetAll (replaceUsersFrom_frame arr result hs (index + 1) r' hnodup entries)
  constructor
  · rintro ⟨hok, h⟩
    refine ⟨hend.amount_unique (h u₀ a₀ List.mem_cons_self hu₀), hok, fun u a hmem hu => ?_⟩
    exact h u a (List.mem_cons_of_mem _ hmem) ((entry_iff_of_frame hs hframe hmem).mp hu)
  · rintro ⟨rfl, hok, h⟩
    refine ⟨hok, fun u a hmem hu => ?_⟩
    rcases List.mem_cons.mp hmem with e | hmem
    · obtain rfl := userKey_inj e
      rw [← hu₀.amount_unique hu]
      exact hend
    · exact h u a hmem ((entry_iff_of_frame hs hframe hmem).mpr hu)

/-- The loop leaves the wanted amounts exactly when it assigns them at the positions of the keys. -/
theorem leaves_iff (arr : List JSONObject) (want : String → JLong → JLong) (result : List String)
    (index : ℕ) (r : Redis) (nodup : result.Nodup) (entries : HaveEntries r result) :
    Leaves arr want index result r ↔ Assigns arr want index result r := by
  induction result generalizing index r with
  | nil => simp [Leaves, replaceUsersFrom, Assigns]
  | cons s result ih =>
    obtain ⟨hs, hnodup⟩ := List.nodup_cons.mp nodup
    rw [assigns_cons]
    cases hkey : isUserKey s with
    | false =>
      have hother : ∀ u, s ≠ userKey u := by
        rintro u rfl
        rw [isUserKey_userKey] at hkey
        exact Bool.false_ne_true hkey.symm
      rw [leaves_cons_other result r hother hkey,
        ih (index + 1) r hnodup (entries.step hs fun _ _ => rfl)]
      exact (and_iff_right fun u a e => absurd e (hother u)).symm
    | true =>
      obtain ⟨u₀, a₀, rfl, hu₀⟩ := entries s List.mem_cons_self hkey
      have hstep := replaceUser_userKey arr index hu₀
      -- The step on the entry is the only one for this key.
      have hfirst : (∀ u a, userKey u₀ = userKey u → Entry r u a →
          assigned arr index a = .ok (want u a)) ↔ assigned arr index a₀ = .ok (want u₀ a₀) := by
        constructor
        · exact fun h => h u₀ a₀ rfl hu₀
        · intro h u a e hu
          obtain rfl := userKey_inj e
          rw [← hu₀.amount_unique hu]
          exact h
      rw [hfirst]
      cases ha : assigned arr index a₀ with
      | error e =>
        rw [ha] at hstep
        dsimp only at hstep
        refine iff_of_false ?_ (by simp)
        rintro ⟨hok, -⟩
        rw [replaceUsersFrom, hstep] at hok
        cases hok
      | ok b =>
        rw [ha] at hstep
        obtain ⟨r', hr', hb, hframe⟩ := hstep
        have hentries := entries.step hs hframe
        rw [leaves_cons_user hs hnodup hu₀ hr' hb hframe hentries, ih (index + 1) r' hnodup hentries,
          assigns_congr (entry_iff_of_frame hs hframe), Except.ok.injEq]

/-! ## Each user their own balance -/

/-- The amount that an array of accounts gives for a name. -/
def given (arr : List JSONObject) (u : String) : JLong :=
  (arr.find? fun j => j.get "username" == some (.text u)).bind fun j => (j.getLong "amount").toOption

/-- What the cache holds: the hashes under `users#` are entries of users, and the sets have other
keys. -/
structure HoldsUsers (r : Redis) : Prop where
  hashes : HaveEntries r r.hashes.keys
  sets : ∀ s ∈ r.sets.keys, isUserKey s = false

/-- A cache that holds accounts is one. -/
theorem Holds.holdsUsers {r : Redis} {m : String → Option JLong} (h : Holds r m) : HoldsUsers r where
  hashes := by
    intro s hs huser
    obtain ⟨u, rfl⟩ := eq_userKey huser
    obtain ⟨hash, hhash⟩ := JavaMap.mem_keys_iff.mp hs
    cases hu : m u with
    | none =>
      rw [h.absent hu] at hhash
      cases hhash
    | some a => exact ⟨u, a, rfl, h.entry hu⟩
  sets := h.sets

/-- What one call of `SCAN` returns: some of the keys of the cache, each once, in any order. -/
structure Page (result : List String) (r : Redis) : Prop where
  nodup : result.Nodup
  exist : ∀ s ∈ result, s ∈ r.hashes.keys ∨ s ∈ r.sets.keys

/-- What a refresh should do: it ends normally, a cached user has the amount that the array gives for
their name, and one whom the array does not give an amount keeps the old one. -/
def Refreshed (arr : List JSONObject) (result : List String) (r : Redis) : Prop :=
  (replaceUsers arr result r).1 = .ok () ∧
    ∀ u a, Entry r u a → Entry (replaceUsers arr result r).2 u ((given arr u).or a)

/-- The account at a position is right for a user with the cached amount `a`: it has the amount that
the array gives for the user, or that the user keeps if it gives none, and the cached amount is a
number. If there is no account at the position, the cached amount is the right one already. -/
def RightAt (arr : List JSONObject) (p : ℕ) (u : String) (a : JLong) : Prop :=
  match arr[p]? with
  | some j => ∃ v, a = some v ∧ j.getLong "amount" = .ok ((given arr u).getD v)
  | none => ∀ v, given arr u = some v → a = some v

/-- The accounts stand where the keys of their users do. -/
def InPlace (arr : List JSONObject) (result : List String) (r : Redis) : Prop :=
  ∀ p u a, result[p]? = some (userKey u) → Entry r u a → RightAt arr p u a

/-- The users whose keys are not among those that were returned have the right amounts already. -/
def OthersRight (arr : List JSONObject) (result : List String) (r : Redis) : Prop :=
  ∀ u a, Entry r u a → userKey u ∉ result → ∀ v, given arr u = some v → a = some v

/-- What the loop assigns at a position is the wanted amount exactly when the account there is right.
-/
theorem assigned_eq_ok_iff (arr : List JSONObject) (p : ℕ) (u : String) (a : JLong) :
    assigned arr p a = .ok ((given arr u).or a) ↔ RightAt arr p u a := by
  unfold assigned RightAt
  -- At the end of the array nothing is written, so the cached amount has to be right.
  cases arr[p]? with
  | none =>
    dsimp only
    cases given arr u with
    | none => simp
    | some w => simp
  | some j =>
    dsimp only
    cases j.getLong "amount" with
    | error e => simp
    | ok val =>
      cases a with
      | none => simp
      | some v => cases given arr u <;> simp

/-- The keys of users among those of a page have entries. -/
theorem Page.haveEntries {r : Redis} {result : List String} (page : Page result r)
    (users : HoldsUsers r) : HaveEntries r result := by
  intro s hs huser
  rcases page.exist s hs with h | h
  · exact users.hashes s h huser
  · rw [users.sets s h] at huser
    cases huser

/-- A user whose key the loop does not visit keeps the amount, which is right exactly when the array gives
the same or none. -/
theorem entry_unvisited_iff {r : Redis} {arr : List JSONObject} {result : List String}
    (nodup : result.Nodup) (entries : HaveEntries r result) {u : String} {a : JLong} (hu : Entry r u a)
    (hmem : userKey u ∉ result) :
    Entry (replaceUsers arr result r).2 u ((given arr u).or a) ↔
      ∀ v, given arr u = some v → a = some v := by
  -- A user outside the page keeps the amount.
  have hkept : Entry (replaceUsers arr result r).2 u a :=
    hu.of_hgetAll (replaceUsersFrom_frame arr result hmem 0 r nodup entries)
  constructor
  · intro h v hv
    rw [hv, Option.some_or] at h
    exact hkept.amount_unique h
  · intro h
    cases hgiven : given arr u with
    | none => exact hkept
    | some v =>
      rw [Option.some_or, ← h v hgiven]
      exact hkept

/-- **When a refresh assigns each user their own balance:** for every cache, every page of its keys that
`SCAN` returns and every array, exactly when the accounts stand where the keys of their users do, and the
users whose keys were not returned have the right amounts already. -/
theorem refresh_iff {r : Redis} (users : HoldsUsers r) {result : List String}
    (page : Page result r) (arr : List JSONObject) :
    Refreshed arr result r ↔ InPlace arr result r ∧ OthersRight arr result r := by
  have entries := page.haveEntries users
  have hloop := leaves_iff arr (fun u a => (given arr u).or a) result 0 r page.nodup entries
  have hplaces : InPlace arr result r ↔
      Assigns arr (fun u a => (given arr u).or a) 0 result r := by
    -- Inside the page, the loop writes what it finds at the position of the key.
    simp only [Assigns, InPlace, Nat.zero_add, assigned_eq_ok_iff]
  rw [hplaces, ← hloop]
  constructor
  · rintro ⟨hok, h⟩
    refine ⟨⟨hok, fun u a _ => h u a⟩, fun u a hu hmem => ?_⟩
    exact (entry_unvisited_iff page.nodup entries hu hmem).mp (h u a hu)
  · rintro ⟨⟨hok, h⟩, hothers⟩
    refine ⟨hok, fun u a hu => ?_⟩
    by_cases hmem : userKey u ∈ result
    · exact h u a hmem hu
    · exact (entry_unvisited_iff page.nodup entries hu hmem).mpr (hothers u a hu hmem)

/-! ## Two orders -/

/-- A cache with two users. -/
def cachedPair : Redis :=
  (addNewUser "alice" "secret" (some 20) (addNewUser "bob" "secret" (some 10) Redis.empty).2).2

/-- It holds their accounts and no others. -/
theorem holds_cachedPair : Holds cachedPair
    (Function.update (Function.update (fun _ => none) "bob" (some (some 10))) "alice" (some (some 20))) :=
  (holds_empty.addNewUser rfl "secret" (some 10)).addNewUser rfl "secret" (some 20)

/-- The cache of the two has users only. -/
theorem holdsUsers_cachedPair : HoldsUsers cachedPair := holds_cachedPair.holdsUsers

/-- An account as the replicas list it. -/
def account (username : String) (amount : Int64) : JSONObject :=
  (JSONObject.empty.put "username" (some (.text username))).put "amount" (some (.number amount))

/-- The entries of that cache. -/
theorem entry_cachedPair_iff {u : String} {a : JLong} :
    Entry cachedPair u a ↔ (u = "bob" ∧ a = some 10) ∨ (u = "alice" ∧ a = some 20) := by
  constructor
  · intro h
    by_cases hbob : u = "bob"
    · subst hbob
      exact .inl ⟨rfl, h.amount_unique ⟨by decide, by decide⟩⟩
    · by_cases halice : u = "alice"
      · subst halice
        exact .inr ⟨rfl, h.amount_unique ⟨by decide, by decide⟩⟩
      · -- Nobody else has an entry.
        have habsent : cachedPair.hashes.lookup (userKey u) = none := holds_cachedPair.absent (by
          rw [Function.update_of_ne halice, Function.update_of_ne hbob])
        exact absurd habsent h.lookup_ne_none
  · rintro (⟨rfl, rfl⟩ | ⟨rfl, rfl⟩)
    · exact ⟨by decide, by decide⟩
    · exact ⟨by decide, by decide⟩

/-- `SCAN` returns the key of `bob` first and not that of `alice`, whose cached balance is right: both have
their own balance afterwards. -/
theorem refresh_in_order :
    HoldsUsers cachedPair ∧ Page ["users#bob", "users-registered"] cachedPair ∧
      Refreshed [account "bob" 11, account "alice" 20] ["users#bob", "users-registered"] cachedPair := by
  have hpage : Page ["users#bob", "users-registered"] cachedPair := ⟨by decide, by decide⟩
  refine ⟨holdsUsers_cachedPair, hpage, (refresh_iff holdsUsers_cachedPair hpage _).mpr ⟨?_, ?_⟩⟩
  · intro p u a hp hu
    rcases p with _ | _ | p
    · obtain rfl : "bob" = u := userKey_inj (Option.some.inj hp)
      obtain rfl : a = some 10 := hu.amount_unique ⟨by decide, by decide⟩
      exact ⟨10, rfl, rfl⟩
    -- The key of the set starts like those of the users, but is none of them.
    · have hkey : isUserKey "users-registered" = true := by
        rw [Option.some.inj hp]
        exact isUserKey_userKey u
      exact absurd hkey (by decide)
    · cases hp
  · intro u a hu hmem v hv
    rcases entry_cachedPair_iff.mp hu with ⟨rfl, rfl⟩ | ⟨rfl, rfl⟩
    · exact absurd List.mem_cons_self hmem
    · exact hv

/-- **A refresh gives a user the balance of another one:** the cache and the array agree, but the key
of the set comes first. So the key of `bob` is at the position of `alice` in the array, and `bob` has
the balance of `alice` afterwards. -/
theorem refresh_mixes_users :
    HoldsUsers cachedPair ∧
      Page ["users-registered", "users#bob", "users#alice"] cachedPair ∧
      Entry cachedPair "bob" (some 10) ∧ given [account "bob" 10, account "alice" 20] "bob" = some 10 ∧
      Entry (replaceUsers [account "bob" 10, account "alice" 20]
        ["users-registered", "users#bob", "users#alice"] cachedPair).2 "bob" (some 20) ∧
      ¬ Refreshed [account "bob" 10, account "alice" 20]
        ["users-registered", "users#bob", "users#alice"] cachedPair := by
  -- The key of the set comes first, and so all positions are shifted by one.
  have hbefore : Entry cachedPair "bob" (some 10) := ⟨by decide, by decide⟩
  have hafter : Entry (replaceUsers [account "bob" 10, account "alice" 20]
      ["users-registered", "users#bob", "users#alice"] cachedPair).2 "bob" (some 20) :=
    ⟨by decide, by decide⟩
  refine ⟨holdsUsers_cachedPair, ⟨by decide, by decide⟩, hbefore, by decide, hafter, ?_⟩
  rintro ⟨-, h⟩
  have hwant := hafter.amount_unique (h "bob" (some 10) hbefore)
  exact absurd hwant (by decide)

end BankServiceReplicationJedisCluster

end NovaBank.Proxy
