import NovaBank.Money.Coherence

/-!
# Calls with a stale cache

Other proxies and the contracts change balances behind the back of a proxy, and so its cache may have any
amounts. Two calls of the controller are supposed to put up with that.

`createMoney` counts from the cached amount. When the replicas refuse, it takes what they answer into the
cache and tries again. `deposit_outcome` says for every cached amount and every balance whether that ends,
and with which balance: the deposit is exact when the balance is positive, or 0 on both sides. Against any
other balance that is not positive a stale amount wins.

`getAmountOfUser` takes the balance into the cache. `holds_questions`: what the questions for some users
make of the cache, whatever is in it. `coherent_after_questions_iff`: the questions for all users make the
cache coherent exactly when every user is cached with a number, unless it was right before, and nobody has
the balance -1, which is taken for an error.
-/

namespace NovaBank.Money

open Java Replica Proxy

open Proxy.BankServiceReplicationJedisCluster (Holds assign assign_of_some assign_of_ne assign_same
  userKey)

variable {d : Deployment} {m : String → Option JLong}

/-! ## Deposits -/

/-- **Deposits from a stale cache:** whatever amount the cache has for a user, a deposit to the least
balance never returns. To any other balance it returns success, and the amount is added to `countedFrom`
of the two, in the cache and at the replicas, and nobody else's balance changes. -/
theorem deposit_outcome (env : Environment) {d : Deployment} {m : String → Option JLong}
    (holds : Holds d.cache m) {who : String} {cached balance : Int64}
    (hcached : m who = some (some cached))
    (hbalance : accountsOf d.service.bankRepo who = some (some balance)) (amount : Int64) :
    (balance = Int64.minValue → ∀ result d',
      ¬ Retry.Returns ((RestCall.createMoney who (some amount)).attempt env) d result d') ∧
    (balance ≠ Int64.minValue → ∃ d',
      (∀ result d₂, Retry.Returns ((RestCall.createMoney who (some amount)).attempt env) d result d₂ ↔
        result = .ok .ok ∧ d₂ = d') ∧
      Holds d'.cache (assign m who (countedFrom cached balance + amount)) ∧
      accountsOf d'.service.bankRepo =
        assign (accountsOf d.service.bankRepo) who (countedFrom cached balance + amount)) := by
  obtain ⟨b, hb, hv⟩ := find_of_accountsOf hbalance
  -- The least number cannot be distinguished from its negation, and so no attempt is accepted.
  constructor
  · rintro rfl result d'
    exact deposit_never env holds hcached hb hv
  · intro hmin
    obtain ⟨d', hreturns, hholds, husers⟩ := returns_deposit env holds hcached hb hv amount hmin
    refine ⟨d', hreturns, hholds, ?_⟩
    rw [accountsOf_of_users husers, accountsOf_setAmount hb]

/-- The deployment in which `alice` has 5 and `bob` has nothing, with another amount for `bob` in the
cache. -/
def staleBob : Deployment :=
  { registered with cache := BankServiceReplicationJedisCluster.setAmount "bob" 7 registered.cache }

/-- After the two registrations the cache mirrors the replicas. -/
theorem mirrors_registered : Mirrors registered :=
  mirrors_createNew (mirrors_createNew mirrors_start (Prod.ext (by decide) rfl))
    (Prod.ext (by decide) rfl)

/-- What the stale cache has. -/
theorem holds_staleBob :
    Holds staleBob.cache (assign (accountsOf registered.service.bankRepo) "bob" 7) :=
  mirrors_registered.holds.setAmount "bob" 7

/-- It has 7 for `bob`. -/
theorem cached_staleBob :
    assign (accountsOf registered.service.bankRepo) "bob" 7 "bob" = some (some 7) := by decide

/-- The replicas have nothing for `bob`. -/
theorem balance_staleBob : accountsOf staleBob.service.bankRepo "bob" = some (some 0) := by decide

/-- `bob` has nothing and is given 1, and has 8 then. -/
theorem deposit_outcome_bob :
    ∃ d', Retry.Returns ((RestCall.createMoney "bob" (some 1)).attempt plainEnvironment) staleBob
        (.ok .ok) d' ∧
      accountsOf staleBob.service.bankRepo "bob" = some (some 0) ∧
      accountsOf d'.service.bankRepo "bob" = some (some 8) := by
  obtain ⟨d', hreturns, -, haccounts⟩ :=
    (deposit_outcome plainEnvironment holds_staleBob cached_staleBob balance_staleBob 1).2 (by decide)
  refine ⟨d', (hreturns _ _).mpr ⟨rfl, rfl⟩, balance_staleBob, ?_⟩
  rw [haccounts]
  decide

/-! ## Questions -/

/-- What a question makes of a cached amount. A balance of -1 is taken for an error, and an amount that is
not there, or is no number, stays. -/
def corrected (cached : Option JLong) (balance : JLong) : Option JLong :=
  match cached, balance with
  | some (some c), some v => some (some (if v = -1 then c else v))
  | cached, _ => cached

/-- A user without a balance is not corrected. -/
theorem corrected_none (cached : Option JLong) : corrected cached none = cached := by
  rcases cached with _ | _ | c <;> rfl

/-- A second question changes nothing. -/
theorem corrected_corrected (cached : Option JLong) (balance : JLong) :
    corrected (corrected cached balance) balance = corrected cached balance := by
  rcases cached with _ | _ | c
  · rfl
  · rfl
  · rcases balance with _ | v
    · rfl
    · unfold corrected
      dsimp only
      split_ifs <;> rfl

/-- When a question leaves the balance in the cache. -/
theorem corrected_eq_iff (cached : Option JLong) (balance : JLong) :
    corrected cached balance = some balance ↔
      cached = some balance ∨ ∃ c v, cached = some (some c) ∧ balance = some v ∧ v ≠ -1 := by
  rcases cached with _ | _ | c
  · simp [corrected]
  · simp [corrected]
  · rcases balance with _ | v
    · simp [corrected]
    · unfold corrected
      by_cases hv : v = -1 <;> simp [hv]

/-- A new amount for a user who is there. -/
theorem assign_eq_update {u : String} {a : JLong} (hu : m u = some a) (v : Int64) :
    assign m u v = Function.update m u (some (some v)) := by
  funext w
  by_cases e : w = u
  · subst e
    rw [assign_of_some hu, Function.update_self]
  · rw [assign_of_ne m (Ne.symm e), Function.update_of_ne e]

/-- One question. -/
theorem holds_getAmountOfUser (env : Environment) (hm : Holds d.cache m) (who : String) :
    Holds (RestAPIController.getAmountOfUser env who d).2.cache
      (Function.update m who (corrected (m who) (balanceOf d.service.bankRepo (some who)))) := by
  have hget := hm.getMoney_eq who
  unfold RestAPIController.getAmountOfUser
  dsimp only
  rw [invokeCheckCurrentAmount_eq]
  -- The answer corrects an amount of the cache only when there is one, and is not the error value.
  cases balanceOf d.service.bankRepo (some who) with
  | none =>
    rw [corrected_none, Function.update_eq_self]
    exact hm
  | some v =>
    dsimp only
    cases hwho : m who with
    | none =>
      rw [hwho] at hget
      have hsame : Function.update m who (corrected none (some v)) = m :=
        Function.update_eq_self_iff.mpr hwho.symm
      rw [hsame, hget]
      split_ifs <;> exact hm
    | some a =>
      cases a with
      | none =>
        rw [hwho] at hget
        have hsame : Function.update m who (corrected (some none) (some v)) = m :=
          Function.update_eq_self_iff.mpr hwho.symm
        rw [hsame, hget]
        split_ifs <;> exact hm
      | some c =>
        rw [hwho] at hget
        rw [corrected, hget]
        dsimp only
        by_cases hv : v = -1
        · rw [if_pos hv, if_pos hv, ← hwho, Function.update_eq_self]
          exact hm
        · rw [if_neg hv, if_neg hv, ← assign_eq_update hwho]
          by_cases hsame : v = c
          · rw [if_pos hsame, assign_same (by rw [hwho, hsame])]
            exact hm
          · rw [if_neg hsame]
            exact hm.setAmount who v

/-- Questions for some users, one after the other. -/
def questions (env : Environment) (users : List String) (d : Deployment) : Deployment :=
  users.foldl (fun d who => (RestAPIController.getAmountOfUser env who d).2) d

/-- A question changes no account. -/
theorem getAmountOfUser_users (env : Environment) (who : String) (d : Deployment) :
    (RestAPIController.getAmountOfUser env who d).2.service.bankRepo.users =
      d.service.bankRepo.users := by
  have husers := access_unordered_users env.jvm d.service
    (queryCommand (.checkCurrentAmount (some who)))
  unfold RestAPIController.getAmountOfUser
  dsimp only
  rw [invokeCheckCurrentAmount_eq]
  -- The query changes no account, and the rest of the request only the cache.
  cases balanceOf d.service.bankRepo (some who) with
  | none => exact husers
  | some v =>
    dsimp only
    by_cases hv : v = -1
    · rw [if_pos hv]
      exact husers
    · rw [if_neg hv]
      rcases BankServiceReplicationJedisCluster.getMoney who d.cache with e | _ | money
      · exact husers
      · exact husers
      · dsimp only
        split_ifs <;> exact husers

/-- Questions change no account. -/
theorem questions_users (env : Environment) (users : List String) (d : Deployment) :
    (questions env users d).service.bankRepo.users = d.service.bankRepo.users := by
  refine Run.foldl_invariant (I := fun d' : Deployment => d'.service.bankRepo.users =
    d.service.bankRepo.users) ?_ users rfl
  intro d' who hd'
  rw [getAmountOfUser_users, hd']

/-- What questions make of a cache: the amounts of those who are asked for are corrected. -/
theorem holds_questions (env : Environment) (hm : Holds d.cache m) (users : List String) :
    Holds (questions env users d).cache fun u =>
      if u ∈ users then corrected (m u) (balanceOf d.service.bankRepo (some u)) else m u := by
  -- On the users; asking twice is asking once.
  induction users generalizing d m with
  | nil => simpa [questions] using hm
  | cons who users ih =>
    have hbalance := balanceOf_of_users (getAmountOfUser_users env who d)
    have hrest := ih (holds_getAmountOfUser env hm who)
    simp only [hbalance] at hrest
    refine (congrArg (Holds _) (funext fun u => ?_)).mp hrest
    by_cases hu : u = who
    · subst hu
      simp only [Function.update_self, corrected_corrected, ite_self, List.mem_cons_self, if_true]
    · simp only [Function.update_of_ne hu, List.mem_cons, hu, false_or]

/-- The cached amount of a user is a given one. -/
theorem lookup_amount_iff (hm : Holds d.cache m) (u : String) (a : JLong) :
    (d.cache.hgetAll (userKey u)).lookup "amount" = some (JLong.toText a) ↔ m u = some a := by
  constructor
  · intro h
    cases hu : m u with
    | none =>
      rw [Redis.hgetAll, hm.absent hu] at h
      cases h
    | some a' =>
      have htext := Option.some.inj ((hm.entry hu).2.symm.trans h)
      rw [BankServiceReplicationJedisCluster.jlongToText_inj htext]
  · exact fun hu => (hm.entry hu).2

/-- **Questions repair a cache:** whatever amounts a cache has, after a question for every user it is
coherent exactly when each user was cached with the balance before, or with some number while the balance
is neither `null` nor -1. -/
theorem coherent_after_questions_iff (env : Environment) {d : Deployment} {m : String → Option JLong}
    (holds : Holds d.cache m) (users : List String)
    (all : ∀ u b, d.service.bankRepo.findByUserName u = some b → ∃ name ∈ users, u = some name) :
    Coherent (questions env users d) ↔
      ∀ u b, d.service.bankRepo.findByUserName (some u) = some b →
        m u = some b.amount ∨ ∃ c v, m u = some (some c) ∧ b.amount = some v ∧ v ≠ -1 := by
  have hholds := holds_questions env holds users
  have hfind := findByUserName_of_users (questions_users env users d)
  -- User by user: each of them is asked.
  have huser : ∀ u b, d.service.bankRepo.findByUserName (some u) = some b →
      (((questions env users d).cache.hgetAll (userKey u)).lookup "amount" =
        some (JLong.toText b.amount) ↔
      (m u = some b.amount ∨ ∃ c v, m u = some (some c) ∧ b.amount = some v ∧ v ≠ -1)) := by
    intro u b hb
    obtain ⟨name, hname, hu⟩ := all (some u) b hb
    cases hu
    have hbalance : balanceOf d.service.bankRepo (some u) = b.amount := by
      rw [balanceOf, hb]
      rfl
    rw [lookup_amount_iff hholds, if_pos hname, hbalance]
    exact corrected_eq_iff (m u) b.amount
  unfold Coherent
  constructor
  · intro h u b hb
    exact (huser u b hb).mp (h (some u) b (by rw [hfind]; exact hb))
  · intro h u b hb
    rw [hfind] at hb
    obtain ⟨name, -, rfl⟩ := all u b hb
    exact (huser name b hb).mpr (h name b hb)

/-- The wrong amount of `bob` is repaired by two questions. -/
theorem coherent_staleBob :
    ¬ Coherent staleBob ∧ Coherent (questions plainEnvironment ["alice", "bob"] staleBob) := by
  -- The two users are all users of the state.
  have hkeys : staleBob.service.bankRepo.users.keys = [some "alice", some "bob"] := by decide
  have hall : ∀ u b, staleBob.service.bankRepo.findByUserName u = some b →
      ∃ name ∈ ["alice", "bob"], u = some name := by
    intro u b hb
    have hmem : u ∈ staleBob.service.bankRepo.users.keys := by
      rw [← BankRepository.userName_of_find hb]
      exact List.mem_map_of_mem (KeyedMap.mem_of_get hb)
    rw [hkeys] at hmem
    simpa using hmem
  constructor
  · intro h
    obtain ⟨b, hb, hamount⟩ := find_of_accountsOf balance_staleBob
    have hlookup := h (some "bob") b hb
    rw [hamount] at hlookup
    have hcached := (lookup_amount_iff holds_staleBob "bob" (some 0)).mp hlookup
    rw [cached_staleBob] at hcached
    exact absurd hcached (by decide)
  · refine (coherent_after_questions_iff plainEnvironment holds_staleBob ["alice", "bob"] hall).mpr ?_
    intro u b hb
    have haccount := accountsOf_of_find hb
    by_cases hu : u = "bob"
    · subst hu
      rw [balance_staleBob] at haccount
      exact .inr ⟨7, 0, cached_staleBob, (Option.some.inj haccount).symm, by decide⟩
    · left
      rw [assign_of_ne _ (Ne.symm hu)]
      exact haccount

end NovaBank.Money
