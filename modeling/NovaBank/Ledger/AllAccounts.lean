import Mathlib.Data.Multiset.OrderedMonoid
import NovaBank.Ledger.Counterparts
import NovaBank.Money.Coherence

/-!
# The list of all accounts

The replicas and the proxy compute a hash of the accounts that they hold, the exclusive or of the hash
codes of their texts, and `GET /all` returns the cached accounts when the hashes are equal.

The hash does not depend on the order in which a hash map or Redis lists the accounts. So the hashes of a
cache and of a replica with the same accounts are equal, and replicas with the same accounts send replies
that compare equal (`hash_agreement`).

The converse does not hold. What both sides hold cancels out, and `all_accounts_iff` says that the accounts
that are returned are those of the replica exactly when none is held by one side alone, or the hash codes of
those that are do not cancel each other out. Those of two accounts whose texts have the same hash code do.
-/

namespace NovaBank.Ledger

open Java Replica Money Proxy

open BankServiceReplicationJedisCluster (hashOf hashOf_perm accountsHash_eq cachedAccount cachedAccounts
  isUserKey isUserKey_userKey eq_userKey userKey userKey_inj Entry Holds parseLong_jlongToText)

/-! ## Equal accounts have equal hashes -/

/-- The pairs of names and amounts of a replica are `accounts`. -/
def ReplicaHolds (s : BankRepository) (accounts : List (String × Int64)) : Prop :=
  (s.users.values.map fun b => (b.userName, b.amount)).Perm
    (accounts.map fun account => (some account.1, some account.2))

/-- The entries of a cache are those of `accounts`, with the amounts as texts. -/
structure CacheHolds (r : Redis) (accounts : List (String × Int64)) : Prop where
  keys : ∀ key, (isUserKey key = true ∧ (key ∈ r.hashes.keys ∨ key ∈ r.sets.keys)) ↔
    ∃ account ∈ accounts, userKey account.1 = key
  entry : ∀ account ∈ accounts, Entry r account.1 (some account.2)

/-- The JSON object of a pair. -/
def pairJSON (pair : JString × JLong) : JSONObject :=
  (JSONObject.empty.put "username" (pair.1.map .text)).put "amount" (pair.2.map .number)

section Agreement

variable {accounts : List (String × Int64)} {r : Redis} {s : BankRepository}

/-- A replica prints the pairs. -/
theorem ReplicaHolds.json_perm (h : ReplicaHolds s accounts) :
    (s.users.values.map BankEntity.getJSONSecure).Perm
      (accounts.map fun account => pairJSON (some account.1, some account.2)) := by
  have hmap := h.map pairJSON
  rw [List.map_map, List.map_map] at hmap
  exact hmap

/-- The hash that a replica computes is that of the objects of its accounts, in any order. -/
theorem ReplicaHolds.accountsHash_eq (h : ReplicaHolds s accounts) (jvm : Jvm) :
    BankService.accountsHash jvm (s.usersIterator jvm) =
      hashOf jvm (accounts.map fun account => pairJSON (some account.1, some account.2)) := by
  rw [accountsHash_usersIterator, BankServiceReplicationJedisCluster.accountsHash_eq]
  exact hashOf_perm jvm h.json_perm

/-- The amount of an entry is read back from its text. -/
theorem cachedAccount_eq {u : String} {v : Int64} (h : Entry r u (some v)) :
    cachedAccount r (userKey u) = .ok (pairJSON (some u, some v)) := by
  unfold cachedAccount
  dsimp only
  rw [h.1, h.2, Option.bind_some, parseLong_jlongToText]
  rfl

/-- The cache of a proxy that holds accounts whose amounts are not null. -/
theorem CacheHolds.of_holds {m : String → Option JLong} (h : Holds r m)
    (hm : ∀ u a, m u = some a ↔ ∃ v, a = some v ∧ (u, v) ∈ accounts) : CacheHolds r accounts where
  keys := by
    intro key
    constructor
    · rintro ⟨huser, hmem⟩
      obtain ⟨u, rfl⟩ := eq_userKey huser
      -- The sets of the cache do not have such keys.
      have hhash : userKey u ∈ r.hashes.keys := hmem.resolve_right fun hset => by
        rw [h.sets _ hset] at huser
        cases huser
      obtain ⟨hash, hlookup⟩ := JavaMap.mem_keys_iff.mp hhash
      cases hu : m u with
      | none =>
        rw [h.absent hu] at hlookup
        cases hlookup
      | some a =>
        obtain ⟨v, -, hv⟩ := (hm u a).mp hu
        exact ⟨(u, v), hv, rfl⟩
    · rintro ⟨⟨u, v⟩, hv, rfl⟩
      have hentry := h.entry ((hm u (some v)).mpr ⟨v, rfl, hv⟩)
      exact ⟨isUserKey_userKey u, .inl hentry.mem_keys⟩
  entry := by
    rintro ⟨u, v⟩ hv
    exact h.entry ((hm u (some v)).mpr ⟨v, rfl, hv⟩)

/-- The cache lists the pairs, in the order of its keys. -/
theorem CacheHolds.exists_accounts (h : CacheHolds r accounts) (distinct : (accounts.map Prod.fst).Nodup)
    (env : Environment) :
    ∃ list, cachedAccounts (env.keys r) r = .ok list ∧
      list.Perm (accounts.map fun account => pairJSON (some account.1, some account.2)) := by
  -- Without repetition on both sides, so only the members are compared.
  have hkeys : (env.keys r).Perm (accounts.map fun account => userKey account.1) := by
    have hnodup : (accounts.map fun account => userKey account.1).Nodup := by
      have := distinct.map (fun u v huv => userKey_inj huv)
      rwa [List.map_map] at this
    rw [List.perm_ext_iff_of_nodup (env.keys_nodup r) hnodup]
    intro key
    rw [env.mem_keys, h.keys, List.mem_map]
  -- As a function of the key, so that the order of the keys does not matter.
  let g : String → JSONObject := fun key => (cachedAccount r key).toOption.getD JSONObject.empty
  have hg : ∀ account ∈ accounts, cachedAccount r (userKey account.1) = .ok (g (userKey account.1)) ∧
      g (userKey account.1) = pairJSON (some account.1, some account.2) := by
    intro account hmem
    have heq := cachedAccount_eq (h.entry account hmem)
    have hvalue : g (userKey account.1) = pairJSON (some account.1, some account.2) := by
      simp only [g, heq]
      rfl
    exact ⟨heq.trans (congrArg Except.ok hvalue.symm), hvalue⟩
  refine ⟨(env.keys r).map g, mapM_of_ok fun key hkey => ?_, ?_⟩
  · obtain ⟨account, hmem, rfl⟩ := List.mem_map.mp (hkeys.mem_iff.mp hkey)
    exact (hg account hmem).1
  · have hperm := hkeys.map g
    rw [List.map_map] at hperm
    exact hperm.trans (.of_eq (List.map_congr_left fun account hmem => (hg account hmem).2))

end Agreement

/-- **Equal accounts have equal hashes:** for every set of accounts with amounts, in whatever order they
are listed, the cache that holds them is listed with the hash that a replica that holds them computes.
And two replicas that hold them, on machines that print the same texts, send replies that compare equal.
-/
theorem hash_agreement (env : Environment) (jvm : Jvm) (text : jvm.text = env.jvm.text) (w : Wire)
    (accounts : List (String × Int64)) (distinct : (accounts.map Prod.fst).Nodup) (r : Redis)
    (s s' : BankRepository) (cache : CacheHolds r accounts) (replica : ReplicaHolds s accounts)
    (replica' : ReplicaHolds s' accounts) :
    (∃ list, cachedAccounts (env.keys r) r = .ok list ∧
        hashOf env.jvm list = BankService.accountsHash env.jvm (s.usersIterator env.jvm)) ∧
      ∀ reply reply' i i' c c', BankService.answer env.jvm s .listAllBankAccounts = .ok reply →
        BankService.answer jvm s' .listAllBankAccounts = .ok reply' → Sends w env.jvm i reply c →
        Sends w jvm i' reply' c' → w.compare c c' = .ok 0 := by
  constructor
  · obtain ⟨list, hlist, hperm⟩ := cache.exists_accounts distinct env
    refine ⟨list, hlist, ?_⟩
    rw [replica.accountsHash_eq]
    exact hashOf_perm env.jvm hperm
  · rintro _ _ i i' c c' ⟨⟩ ⟨⟩ hc hc'
    -- The replies begin with the hashes.
    have hhash : BankService.accountsHash jvm (s'.usersIterator jvm) =
        BankService.accountsHash env.jvm (s.usersIterator env.jvm) := by
      rw [replica.accountsHash_eq, replica'.accountsHash_eq]
      simp only [hashOf, text]
    refine compare_of_heads hc hc' rfl ?_ (by simp [objectOf, equals])
    rw [hhash]
    rfl

/-- The text of an account. -/
def accountText (o : JSONObject) : String :=
  match o.fields with
  | [(_, .text username), (_, .number amount)] =>
    "\x7b\"amount\":" ++ Long.toText amount ++ ",\"username\":\"" ++ username ++ "\"\x7d"
  | _ => ""

/-- An environment in which accounts and lists of them are printed so. -/
def printingEnvironment : Environment :=
  { plainEnvironment with
    jvm := { plainEnvironment.jvm with
      text := fun j => match j with
        | .object o => accountText o
        | .array os => "[" ++ ",".intercalate (os.map accountText) ++ "]"
        | _ => "" } }

/-- A replica with two accounts of 10. -/
def twoAccounts (first second : String) : BankService :=
  BankService.new.runAll printingEnvironment.jvm
    [.ordered (registerUser (some first) (some "secret") (some 10) none),
      .ordered (registerUser (some second) (some "secret") (some 10) none)]

/-- A cache with two accounts of 10. -/
def twoCached (first second : String) : Redis :=
  (BankServiceReplicationJedisCluster.addNewUser second "secret" (some 10)
    (BankServiceReplicationJedisCluster.addNewUser first "secret" (some 10) Redis.empty).2).2

/-- The content with the accounts of a replica. -/
def listContent (sender : ℕ) (s : BankRepository) : Content :=
  let it := s.usersIterator printingEnvironment.jvm
  some (signed sender (streamHeader ++
    (integerBytes (BankService.accountsHash printingEnvironment.jvm it).toUInt32.toNat ++
      stringBytes (printingEnvironment.jvm.text (.array (it.map BankEntity.getJSONSecure))))))

/-- The cache of two users has their amounts. -/
theorem cacheHolds_twoCached {first second : String} (distinct : first ≠ second) :
    CacheHolds (twoCached first second) [(first, 10), (second, 10)] := by
  refine CacheHolds.of_holds ((BankServiceReplicationJedisCluster.holds_empty.addNewUser rfl "secret"
    (some 10)).addNewUser (Function.update_of_ne distinct.symm _ _) "secret" (some 10)) ?_
  intro u a
  -- The second user was added last, so its entry is looked at first.
  by_cases hsecond : u = second
  · subst hsecond
    rw [Function.update_self]
    simpa [distinct.symm] using eq_comm
  · rw [Function.update_of_ne hsecond]
    by_cases hfirst : u = first
    · subst hfirst
      rw [Function.update_self]
      simpa [hsecond] using eq_comm
    · rw [Function.update_of_ne hfirst]
      simp [hfirst, hsecond]

/-- The cache lists `alice` first, one replica lists `alice` first and another `bob`. -/
theorem hash_agreement_alice_bob :
    (∃ list, cachedAccounts (printingEnvironment.keys (twoCached "alice" "bob"))
          (twoCached "alice" "bob") = .ok list ∧
        hashOf printingEnvironment.jvm list = BankService.accountsHash printingEnvironment.jvm
          ((twoAccounts "alice" "bob").bankRepo.usersIterator printingEnvironment.jvm)) ∧
      javaWire.compare (listContent 0 (twoAccounts "alice" "bob").bankRepo)
        (listContent 1 (twoAccounts "bob" "alice").bankRepo) = .ok 0 := by
  -- The two replicas hold the accounts in opposite orders.
  obtain ⟨hlist, hcompare⟩ := hash_agreement printingEnvironment printingEnvironment.jvm rfl javaWire
    [("alice", 10), ("bob", 10)] (by decide) (twoCached "alice" "bob")
    (twoAccounts "alice" "bob").bankRepo (twoAccounts "bob" "alice").bankRepo
    (cacheHolds_twoCached (by decide))
    (by unfold ReplicaHolds; decide +kernel) (by unfold ReplicaHolds; decide +kernel)
  exact ⟨hlist, hcompare _ _ 0 1 _ _ rfl rfl (sends_javaWire 0 2 (by decide +kernel))
    (sends_javaWire 1 2 (by decide +kernel))⟩

/-! ## Equal hashes of different accounts -/

section Fresh

variable (env : Environment) (d : Deployment)

/-- The accounts of the replica. -/
def replicaAccounts (d : Deployment) : List JSONObject :=
  d.service.bankRepo.users.values.map BankEntity.getJSONSecure

/-- What `GET /all` returns. -/
theorem allAccounts_eq :
    RestAPIController.allAccounts env d = do
      let accounts ← cachedAccounts (env.keys d.cache) d.cache
      let arr := (d.service.bankRepo.usersIterator env.jvm).map BankEntity.getJSONSecure
      if BankService.accountsHash env.jvm d.service.bankRepo.users.values ≠ hashOf env.jvm accounts then
        (BankServiceReplicationJedisCluster.replaceUsers arr (env.scan d.cache) d.cache).1
        return arr
      else return accounts := by
  have hanswer := BankService.access_of_answer env.jvm d.service
    (decodeUnordered_queryCommand .listAllBankAccounts) rfl
  unfold RestAPIController.allAccounts
  congr 1
  funext accounts
  -- The hash does not depend on the order of the accounts.
  rw [hanswer, ← accountsHash_usersIterator]
  dsimp only [received, ClientRequestHandler.invokeListAllBankAccounts]
  split_ifs <;> rfl

end Fresh

/-! ### The accounts that only one side holds -/

/-- The accounts that are in only one of two lists. -/
def onlyOneSide (cached replica : List JSONObject) : List JSONObject :=
  cached.diff replica ++ replica.diff cached

section OnlyOneSide

variable (jvm : Jvm) (l l' : List JSONObject)

/-- The hash of two lists together. -/
theorem hashOf_append : hashOf jvm (l ++ l') = hashOf jvm l ^^^ hashOf jvm l' := by
  -- On the second list from its end: the hash takes the accounts one by one.
  induction l' using List.reverseRecOn with
  | nil => simp [hashOf]
  | append_singleton l' j ih =>
    rw [← List.append_assoc]
    unfold hashOf at ih ⊢
    rw [List.foldl_concat, ih, List.foldl_concat, Int32.xor_assoc]

/-- A list is what it has in common with another one, and the rest. -/
theorem diff_append_bagInter_perm : (l.diff l' ++ l.bagInter l').Perm l := by
  rw [← Multiset.coe_eq_coe, ← Multiset.coe_add, ← Multiset.coe_sub, ← Multiset.coe_inter]
  exact Multiset.sub_add_inter _ _

/-- Two lists have the same hash exactly when that of the accounts in only one of them is 0: what they
have in common cancels out. -/
theorem hashOf_eq_iff : hashOf jvm l = hashOf jvm l' ↔ hashOf jvm (onlyOneSide l l') = 0 := by
  have hcommon : hashOf jvm (l.bagInter l') = hashOf jvm (l'.bagInter l) := by
    apply hashOf_perm
    rw [← Multiset.coe_eq_coe, ← Multiset.coe_inter, ← Multiset.coe_inter]
    exact Multiset.inter_comm _ _
  rw [← hashOf_perm jvm (diff_append_bagInter_perm l l'),
    ← hashOf_perm jvm (diff_append_bagInter_perm l' l), onlyOneSide, hashOf_append, hashOf_append,
    hashOf_append, hcommon, Int32.xor_left_inj, Int32.xor_eq_zero_iff]

/-- Two lists have the same accounts exactly when none is in only one of them. -/
theorem perm_iff_onlyOneSide : l.Perm l' ↔ onlyOneSide l l' = [] := by
  rw [onlyOneSide, List.append_eq_nil_iff, ← Multiset.coe_eq_coe, ← Multiset.coe_eq_zero,
    ← Multiset.coe_eq_zero, ← Multiset.coe_sub, ← Multiset.coe_sub, tsub_eq_zero_iff_le,
    tsub_eq_zero_iff_le]
  exact le_antisymm_iff

end OnlyOneSide

/-- **Fresh accounts:** for every cache and every state of the replicas, the accounts that `GET /all`
returns are those of the replicas exactly when no account is held by the cache or by the replicas alone, or
the exclusive or of the hash codes of the texts of those that are is not 0. -/
theorem all_accounts_iff (env : Environment) (d : Deployment) :
    (∀ list, RestAPIController.allAccounts env d = .ok list → list.Perm (replicaAccounts d)) ↔
      ∀ cached, cachedAccounts (env.keys d.cache) d.cache = .ok cached →
        onlyOneSide cached (replicaAccounts d) = [] ∨
          hashOf env.jvm (onlyOneSide cached (replicaAccounts d)) ≠ 0 := by
  have hsame : ∀ cached, hashOf env.jvm (onlyOneSide cached (replicaAccounts d)) = 0 ↔
      BankService.accountsHash env.jvm d.service.bankRepo.users.values = hashOf env.jvm cached := by
    intro cached
    rw [← hashOf_eq_iff, accountsHash_eq, eq_comm]
    rfl
  rw [allAccounts_eq]
  constructor
  · intro h cached hcached
    rw [or_iff_not_imp_right, not_not, ← perm_iff_onlyOneSide]
    intro hzero
    refine h cached ?_
    rw [hcached]
    exact if_neg (not_not.mpr ((hsame cached).mp hzero))
  · intro h list hlist
    obtain ⟨cached, hcached, hlist⟩ := bind_eq_ok hlist
    split_ifs at hlist with hhash
    · -- The hashes differ, and the accounts of the replica are returned.
      obtain ⟨-, -, hlist⟩ := bind_eq_ok hlist
      cases hlist
      exact (inOrder_perm env.jvm d.service.bankRepo.users).map _
    · cases hlist
      rw [perm_iff_onlyOneSide]
      exact (h _ hcached).resolve_right (not_not.mpr ((hsame _).mpr (not_not.mp hhash)))

/-- **Two accounts that are not seen:** the hash codes of `Aa` and `BB` are equal, and so are those of the
texts of the accounts. Together their hash is that of no accounts, and a proxy with an empty cache
returns none. -/
theorem accounts_not_seen :
    RestAPIController.allAccounts printingEnvironment ⟨Redis.empty, twoAccounts "Aa" "BB"⟩ = .ok [] ∧
      replicaAccounts ⟨Redis.empty, twoAccounts "Aa" "BB"⟩ =
        [pairJSON (some "Aa", some 10), pairJSON (some "BB", some 10)] := by
  decide +kernel

end NovaBank.Ledger
