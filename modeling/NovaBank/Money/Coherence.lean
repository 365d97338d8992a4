import NovaBank.Common.Run
import NovaBank.Money.Retries

/-!
# Coherence of the cache of a single proxy

One proxy with an empty cache, replicas without users, and no other client: the calls `register`,
`createMoney`, `transferMoney`, `getAmountOfUser` and `getAll` of the controller come one after the
other, and each one returns with a success status. Then the cache holds exactly the users and the
balances of the replicas (`Mirrors`), as long as no transfer is larger than the balance of its
sender: the cache refuses such a transfer, the replicas do not, and nothing compares the two
(`coherent_iff`).

What a deposit ends with is said for any cached amount (`countedFrom`, `returns_deposit`), and here used
with the right one.
-/

namespace NovaBank.Money

open Java Replica Proxy

open Proxy.BankServiceReplicationJedisCluster (Holds Entry assign assign_of_some assign_of_ne
  assign_of_none assign_same assign_assign userKey isUserKey)

/-! ## The accounts of a replica -/

/-- The users of a repository with their balances. -/
def accountsOf (s : BankRepository) : String → Option JLong := fun u =>
  (s.findByUserName (some u)).map BankEntity.amount

section Accounts

variable {s t : BankRepository} {b c : BankEntity} {u : String}

/-- A user who is there has the amount of the account. -/
theorem accountsOf_of_find (hb : s.findByUserName (some u) = some b) :
    accountsOf s u = some b.amount := by
  rw [accountsOf, hb]
  rfl

/-- A free name has no account. -/
theorem accountsOf_of_free (hfree : s.findByUserName (some u) = none) : accountsOf s u = none := by
  rw [accountsOf, hfree]
  rfl

/-- Who is found depends on the users only. -/
theorem findByUserName_of_users (h : s.users = t.users) (who : JString) :
    s.findByUserName who = t.findByUserName who := by
  rw [BankRepository.findByUserName, BankRepository.findByUserName, h]

/-- So do the accounts. -/
theorem accountsOf_of_users (h : s.users = t.users) : accountsOf s = accountsOf t := by
  funext u
  simp only [accountsOf, BankRepository.findByUserName, h]

/-- A user with a balance is there. -/
theorem find_of_accountsOf {v : Int64} (h : accountsOf s u = some (some v)) :
    ∃ b, s.findByUserName (some u) = some b ∧ b.amount = some v :=
  Option.map_eq_some_iff.mp h

/-- An account under a name. -/
theorem accountsOf_newUserBankEntity (hb : b.userName = some u) :
    accountsOf (s.newUserBankEntity b) = Function.update (accountsOf s) u (some b.amount) := by
  funext u'
  rw [accountsOf, BankRepository.newUserBankEntity_findByUserName, hb]
  by_cases e : u = u'
  · subst e
    rw [if_pos rfl, Function.update_self]
    rfl
  · rw [if_neg fun h => e (Option.some.inj h), Function.update_of_ne (Ne.symm e)]
    rfl

/-- Setting a balance assigns it. -/
theorem accountsOf_setAmount (hb : s.findByUserName (some u) = some b) (v : Int64) :
    accountsOf (s.newUserBankEntity (b.updateAmount v)) = assign (accountsOf s) u v := by
  rw [accountsOf_newUserBankEntity (BankRepository.userName_updateAmount hb v)]
  funext u'
  by_cases e : u = u'
  · subst e
    rw [Function.update_self, assign_of_some (accountsOf_of_find hb)]
    rfl
  · rw [Function.update_of_ne (Ne.symm e), assign_of_ne _ e]

/-- Setting two balances assigns the one and then the other. -/
theorem accountsOf_setTwo {sender receiver : String} (hb : s.findByUserName (some sender) = some b)
    (hc : s.findByUserName (some receiver) = some c) (v w : Int64) :
    accountsOf ((s.newUserBankEntity (b.updateAmount v)).updateUser (some receiver)
        fun b => b.updateAmount w) =
      assign (assign (accountsOf s) sender v) receiver w := by
  have hname := BankRepository.userName_of_find hb
  by_cases e : sender = receiver
  · have hc' : (s.newUserBankEntity (b.updateAmount v)).findByUserName (some receiver) =
        some (b.updateAmount v) := by simp [hname, e]
    rw [BankRepository.updateUser_of_find _ hc', accountsOf_setAmount hc', accountsOf_setAmount hb]
  · have hc' : (s.newUserBankEntity (b.updateAmount v)).findByUserName (some receiver) = some c := by
      simp [hname, e, hc]
    rw [BankRepository.updateUser_of_find _ hc', accountsOf_setAmount hc', accountsOf_setAmount hb]

/-- An account of a user with a name is not that of the user without one. -/
theorem noNull_newUserBankEntity (h : s.findByUserName none = none) (hb : b.userName = some u) :
    (s.newUserBankEntity b).findByUserName none = none := by
  rw [BankRepository.newUserBankEntity_findByUserName, hb, if_neg (Option.some_ne_none u), h]

/-- A balance that is set for a user with a name makes no user without one. -/
theorem noNull_updateUser (h : s.findByUserName none = none) (w : Int64) :
    (s.updateUser (some u) fun b => b.updateAmount w).findByUserName none = none := by
  unfold BankRepository.updateUser
  cases hb : s.findByUserName (some u) with
  | none => exact h
  | some b => exact noNull_newUserBankEntity h (BankRepository.userName_updateAmount hb w)

end Accounts

/-! ## Coherence -/

/-- The amount cached under `users#u` is the balance of `u`, for every registered user. A balance that
is `null` is cached as that text. -/
def Coherent (d : Deployment) : Prop :=
  ∀ u b, d.service.bankRepo.findByUserName u = some b →
    (d.cache.hgetAll (userKey (JString.toText u))).lookup "amount" = some (JLong.toText b.amount)

/-- The cache holds exactly the users of the replicas, with their balances, and none is without a
name. -/
structure Mirrors (d : Deployment) : Prop where
  holds : Holds d.cache (accountsOf d.service.bankRepo)
  noNull : d.service.bankRepo.findByUserName none = none

/-- A cache that mirrors the replicas is coherent. -/
theorem Mirrors.coherent {d : Deployment} (h : Mirrors d) : Coherent d := by
  intro u b hb
  cases u with
  | none =>
    rw [h.noNull] at hb
    cases hb
  | some u => exact (h.holds.entry (accountsOf_of_find hb)).2

/-- The epilogue of a request does not matter. -/
theorem Mirrors.of_users {d d' : Deployment} (h : Mirrors d) (hcache : d'.cache = d.cache)
    (husers : d'.service.bankRepo.users = d.service.bankRepo.users) : Mirrors d' := by
  refine ⟨?_, ?_⟩
  · rw [hcache, accountsOf_of_users husers]
    exact h.holds
  · rw [findByUserName_of_users husers]
    exact h.noNull

/-- Every user of the replicas has a name. -/
theorem Mirrors.named {d : Deployment} (h : Mirrors d) {b : BankEntity}
    (hb : b ∈ d.service.bankRepo.users.values) :
    ∃ u, b.userName = some u ∧ d.service.bankRepo.findByUserName (some u) = some b := by
  have hfind : d.service.bankRepo.findByUserName b.userName = some b := KeyedMap.get_of_mem hb
  cases hname : b.userName with
  | none =>
    rw [hname, h.noNull] at hfind
    cases hfind
  | some u =>
    rw [hname] at hfind
    exact ⟨u, rfl, hfind⟩

/-- The condition on a call: the cache would not refuse the transfer. -/
def Covered (d : Deployment) : RestCall → Prop
  | .transferMoney sender _ (some amount) =>
    ∀ v, balanceOf d.service.bankRepo (some sender) = some v → 0 ≤ v - amount ∨ amount = 0
  | _ => True

/-! ## One call -/

section Calls

variable {env : Environment} {d d' : Deployment}

/-- A method that does not call itself returns what it returns. -/
theorem returns_once_iff {f : Deployment → Except JavaException Status × Deployment}
    {result : Except JavaException Status} :
    Retry.Returns (RestCall.once f) d result d' ↔ f d = (result, d') := by
  rw [Retry.returns_iff_of_done (show RestCall.once f d = (some (f d).1, (f d).2) from rfl)]
  constructor
  · rintro ⟨rfl, rfl⟩
    rfl
  · intro h
    rw [h]
    exact ⟨rfl, rfl⟩

/-- A registration that returns success puts an account under a name that was free, on both sides.
-/
theorem createNew_eq_ok {userName password : JString} {encoded : String} {amount : JLong}
    {roles : Option (List JString)}
    (hattempt : RestAPIController.createNew env userName password encoded amount roles d =
      (.ok .ok, d')) :
    ∃ u p b, d.service.bankRepo.findByUserName (some u) = none ∧ b.userName = some u ∧
      b.amount = amount ∧
      d'.cache = (BankServiceReplicationJedisCluster.addNewUser u p amount d.cache).2 ∧
      d'.service.bankRepo = (d.service.bankRepo.newUserBankEntity b).save := by
  unfold RestAPIController.createNew at hattempt
  cases password with
  | none => cases hattempt
  | some password =>
    dsimp only at hattempt
    rw [BankService.appExecuteOrdered, decodeOrdered_registerUser] at hattempt
    dsimp only [BankService.executeLedger, BankService.executeRegisterUser] at hattempt
    cases hfree : d.service.bankRepo.findByUserName userName with
    | some b =>
      rw [hfree] at hattempt
      cases hattempt
    | none =>
      rw [hfree] at hattempt
      dsimp only [BankServiceHelper.registerUser] at hattempt
      cases hnew : BankEntity.new env.jvm userName (some encoded) amount roles with
      | error e =>
        -- A `null` among the roles. The library returns `null`, and so the handler the empty name.
        rw [hnew] at hattempt
        dsimp only [Except.map, BankService.finish] at hattempt
        by_cases hstream : e.isStream = true
        · rw [if_pos hstream] at hattempt
          cases hattempt
        · rw [if_neg hstream] at hattempt
          cases hattempt
      | ok b =>
        obtain ⟨hname, hamount⟩ := BankEntity.fields_of_new hnew
        rw [hnew] at hattempt
        dsimp only [Except.map, BankService.finish, received] at hattempt
        rw [hname] at hattempt
        cases userName with
        | none => cases hattempt
        | some u =>
          dsimp only [ClientRequestHandler.invokeCreateNew] at hattempt
          by_cases hu : u = ""
          · rw [if_pos hu] at hattempt
            cases hattempt
          · rw [if_neg hu] at hattempt
            cases hattempt
            exact ⟨u, password, b, hfree, hname, hamount, rfl, rfl⟩

/-- `register` adds the same user on both sides. -/
theorem mirrors_createNew (h : Mirrors d) {userName password : JString} {encoded : String}
    {amount : JLong} {roles : Option (List JString)}
    (hattempt : RestAPIController.createNew env userName password encoded amount roles d =
      (.ok .ok, d')) : Mirrors d' := by
  obtain ⟨u, p, b, hfree, hname, hamount, hcache, hrepo⟩ := createNew_eq_ok hattempt
  -- The new account is the only one that differs, on both sides.
  have haccounts : accountsOf (d.service.bankRepo.newUserBankEntity b).save =
      Function.update (accountsOf d.service.bankRepo) u (some amount) := by
    rw [← hamount]
    exact accountsOf_newUserBankEntity hname
  refine ⟨?_, ?_⟩
  · rw [hcache, hrepo, haccounts]
    exact h.holds.addNewUser (accountsOf_of_free hfree) p amount
  · rw [hrepo]
    exact noNull_newUserBankEntity h.noNull hname

/-- What a deposit does with the amount that it finds in the cache. When what is compared is negative,
the call is repeated with its negation in the cache. -/
theorem attemptCreateMoney_eq (env : Environment) {who : String} {money v amount : Int64}
    {cache : Redis} {b : BankEntity}
    (hmoney : BankServiceReplicationJedisCluster.getMoney who d.cache = .ok (some money))
    (hcache : BankServiceReplicationJedisCluster.createMoney who (money + amount) d.cache =
      (.ok true, cache))
    (hb : d.service.bankRepo.findByUserName (some who) = some b) (hv : b.amount = some v) :
    RestAPIController.attemptCreateMoney env who amount d =
      if 0 ≤ (if v = money then v else -v) then
        (some (.ok .ok),
          ⟨BankServiceReplicationJedisCluster.setAmount who (money + amount) cache,
            { d.service with bankRepo :=
              (d.service.bankRepo.newUserBankEntity (b.updateAmount (money + amount))).save }⟩)
      else
        (none,
          ⟨BankServiceReplicationJedisCluster.setAmount who (-(if v = money then v else -v)) cache,
            { d.service with bankRepo := d.service.bankRepo.save }⟩) := by
  -- The reply of the replica is known, and so are the two updates of the cache.
  have hrun := ordered_createMoney_eq env.jvm hb hv money (money + amount)
  rw [RestAPIController.attemptCreateMoney, hmoney]
  dsimp only
  rw [hrun]
  by_cases h0 : 0 ≤ (if v = money then v else -v)
  · rw [if_pos h0, if_pos h0]
    dsimp only [received, ClientRequestHandler.invokeCreateMoney, BankService.jsonReply,
      ClientRequestHandler.readJson, Except.map]
    rw [hcache]
    rfl
  · rw [if_neg h0, if_neg h0]
    dsimp only [received, ClientRequestHandler.invokeCreateMoney, BankService.jsonReply,
      ClientRequestHandler.readJson, Except.map]
    rw [hcache]
    rfl

section Deposit

variable {m : String → Option JLong} {who : String} {money v compared : Int64} {b : BankEntity}

/-- A deposit that is accepted sets the same amount on both sides. -/
theorem deposit_done (env : Environment) (hm : Holds d.cache m) (hmoney : m who = some (some money))
    (hb : d.service.bankRepo.findByUserName (some who) = some b) (hv : b.amount = some v)
    (amount : Int64) (h0 : 0 ≤ (if v = money then v else -v)) :
    ∃ d', RestAPIController.attemptCreateMoney env who amount d = (some (.ok .ok), d') ∧
      Holds d'.cache (assign m who (money + amount)) ∧
      d'.service.bankRepo.users =
        (d.service.bankRepo.newUserBankEntity (b.updateAmount (money + amount))).users := by
  obtain ⟨cache, hcache, hholds⟩ := hm.createMoney hmoney (money + amount)
  have hget := hm.getMoney_eq who
  rw [hmoney] at hget
  have hset := hholds.setAmount who (money + amount)
  rw [assign_assign] at hset
  exact ⟨_, (attemptCreateMoney_eq env hget hcache hb hv).trans (if_pos h0), hset, rfl⟩

/-- A deposit that is refused leaves what was compared in the cache, negated. -/
theorem deposit_again (env : Environment) (hm : Holds d.cache m) (hmoney : m who = some (some money))
    (hb : d.service.bankRepo.findByUserName (some who) = some b) (hv : b.amount = some v)
    (amount : Int64) (h0 : ¬ 0 ≤ (if v = money then v else -v)) :
    ∃ d', RestAPIController.attemptCreateMoney env who amount d = (none, d') ∧
      Holds d'.cache (assign m who (-(if v = money then v else -v))) ∧
      d'.service.bankRepo.users = d.service.bankRepo.users := by
  obtain ⟨cache, hcache, hholds⟩ := hm.createMoney hmoney (money + amount)
  have hget := hm.getMoney_eq who
  rw [hmoney] at hget
  have hset := hholds.setAmount who (-(if v = money then v else -v))
  rw [assign_assign] at hset
  exact ⟨_, (attemptCreateMoney_eq env hget hcache hb hv).trans (if_neg h0), hset, rfl⟩

/-- A deposit that is refused once returns after the second attempt, when this one is accepted: it counts
from what was compared, negated. -/
theorem deposit_twice (env : Environment) (hm : Holds d.cache m) (hmoney : m who = some (some money))
    (hb : d.service.bankRepo.findByUserName (some who) = some b) (hv : b.amount = some v)
    (amount : Int64) (hcompared : (if v = money then v else -v) = compared) (hrefused : ¬ 0 ≤ compared)
    (haccepted : 0 ≤ (if v = -compared then v else -v)) :
    ∃ d', (∀ result d₂, Retry.Returns (RestAPIController.attemptCreateMoney env who amount) d result
        d₂ ↔ result = .ok .ok ∧ d₂ = d') ∧
      Holds d'.cache (assign m who (-compared + amount)) ∧
      d'.service.bankRepo.users =
        (d.service.bankRepo.newUserBankEntity (b.updateAmount (-compared + amount))).users := by
  -- The first attempt stores the balance in the cache, and the second one starts from it.
  obtain ⟨d₁, hd₁, hholds₁, husers₁⟩ :=
    deposit_again env hm hmoney hb hv amount (by rw [hcompared]; exact hrefused)
  rw [hcompared] at hholds₁
  have hb₁ : d₁.service.bankRepo.findByUserName (some who) = some b := by
    rw [findByUserName_of_users husers₁]
    exact hb
  obtain ⟨d₂, hd₂, hholds₂, husers₂⟩ :=
    deposit_done env hholds₁ (assign_of_some hmoney _) hb₁ hv amount haccepted
  rw [assign_assign] at hholds₂
  refine ⟨d₂, ?_, hholds₂, ?_⟩
  · intro result d₃
    rw [Retry.returns_iff_of_again hd₁]
    exact Retry.returns_iff_of_done hd₂
  · rw [husers₂, BankRepository.newUserBankEntity, BankRepository.newUserBankEntity, husers₁]

/-- Against the least balance every attempt is refused, whatever is in the cache: it is its own
negation. -/
theorem deposit_never (env : Environment) (hm : Holds d.cache m) (hmoney : m who = some (some money))
    (hb : d.service.bankRepo.findByUserName (some who) = some b)
    (hv : b.amount = some Int64.minValue) {amount : Int64} {result : Except JavaException Status}
    {d' : Deployment} :
    ¬ Retry.Returns (RestAPIController.attemptCreateMoney env who amount) d result d' := by
  -- The least number is its own negation, and so no comparison is ever non-negative.
  refine Retry.not_returns (I := fun d => ∃ m money, Holds d.cache m ∧ m who = some (some money) ∧
    d.service.bankRepo.findByUserName (some who) = some b) ?_ ⟨m, money, hm, hmoney, hb⟩
  rintro d ⟨m, money, hm, hmoney, hb⟩
  have hrefused : ¬ 0 ≤ (if Int64.minValue = money then Int64.minValue else -Int64.minValue) := by
    split_ifs <;> decide
  obtain ⟨d₁, hd₁, hholds, husers⟩ := deposit_again env hm hmoney hb hv amount hrefused
  refine ⟨d₁, hd₁, _, _, hholds, assign_of_some hmoney _, ?_⟩
  rw [findByUserName_of_users husers]
  exact hb

/-- The amount from which a deposit counts, by the cached amount and the balance. -/
def countedFrom (cached balance : Int64) : Int64 :=
  if balance = cached then
    if 0 ≤ balance then balance else -balance
  else if 0 < balance then balance else cached

/-- A deposit to a balance other than the least one returns success, after one attempt or two. -/
theorem returns_deposit (env : Environment) (hm : Holds d.cache m) (hmoney : m who = some (some money))
    (hb : d.service.bankRepo.findByUserName (some who) = some b) (hv : b.amount = some v)
    (amount : Int64) (hmin : v ≠ Int64.minValue) :
    ∃ d', (∀ result d₂, Retry.Returns (RestAPIController.attemptCreateMoney env who amount) d result
        d₂ ↔ result = .ok .ok ∧ d₂ = d') ∧
      Holds d'.cache (assign m who (countedFrom money v + amount)) ∧
      d'.service.bankRepo.users =
        (d.service.bankRepo.newUserBankEntity (b.updateAmount (countedFrom money v + amount))).users := by
  have hneg : 0 ≤ -v ↔ ¬ 0 < v := by
    rw [neg_nonneg_iff, not_or]
    exact and_iff_left hmin
  have hdone : 0 ≤ (if v = money then v else -v) → countedFrom money v = money →
      ∃ d', (∀ result d₂, Retry.Returns (RestAPIController.attemptCreateMoney env who amount) d result
          d₂ ↔ result = .ok .ok ∧ d₂ = d') ∧
        Holds d'.cache (assign m who (countedFrom money v + amount)) ∧
        d'.service.bankRepo.users = (d.service.bankRepo.newUserBankEntity
          (b.updateAmount (countedFrom money v + amount))).users := by
    intro h0 hcounted
    obtain ⟨d', hd', hholds, husers⟩ := deposit_done env hm hmoney hb hv amount h0
    rw [hcounted]
    exact ⟨d', fun _ _ => Retry.returns_iff_of_done hd', hholds, husers⟩
  by_cases hfresh : v = money
  · have hcompared : (if v = money then v else -v) = v := if_pos hfresh
    by_cases h0 : 0 ≤ v
    · refine hdone (by rw [hcompared]; exact h0) ?_
      rw [countedFrom, if_pos hfresh, if_pos h0, hfresh]
    · -- A balance below zero is refused first, and its negation is accepted.
      have hpos : 0 ≤ -v := hneg.mpr fun hlt => h0 (Int64.le_of_lt hlt)
      have hne : v ≠ -v := fun e => h0 (e ▸ hpos)
      have hcounted : countedFrom money v = -v := by rw [countedFrom, if_pos hfresh, if_neg h0]
      rw [hcounted]
      exact deposit_twice env hm hmoney hb hv amount hcompared h0 (by rw [if_neg hne]; exact hpos)
  · have hcompared : (if v = money then v else -v) = -v := if_neg hfresh
    by_cases hpos : 0 < v
    · -- The negated balance is refused, and the balance is in the cache at the second attempt.
      have hcounted : countedFrom money v = - -v := by
        rw [countedFrom, if_neg hfresh, if_pos hpos, neg_neg]
      rw [hcounted]
      refine deposit_twice env hm hmoney hb hv amount hcompared (fun h => hneg.mp h hpos) ?_
      rw [neg_neg, if_pos rfl]
      exact Int64.le_of_lt hpos
    · refine hdone (by rw [hcompared]; exact hneg.mpr hpos) ?_
      rw [countedFrom, if_neg hfresh, if_neg hpos]

/-- The same balance set on both sides. -/
theorem Mirrors.setAmount (h : Mirrors d)
    (hb : d.service.bankRepo.findByUserName (some who) = some b)
    (hholds : Holds d'.cache (assign (accountsOf d.service.bankRepo) who v))
    (husers : d'.service.bankRepo.users =
      (d.service.bankRepo.newUserBankEntity (b.updateAmount v)).users) : Mirrors d' := by
  refine ⟨?_, ?_⟩
  · rw [accountsOf_of_users husers, accountsOf_setAmount hb]
    exact hholds
  · rw [findByUserName_of_users husers]
    exact noNull_newUserBankEntity h.noNull (BankRepository.userName_updateAmount hb v)

/-- `createMoney` changes the same balance on both sides. -/
theorem mirrors_createMoney (h : Mirrors d) {amount : Int64}
    (hreturns : Retry.Returns (RestAPIController.attemptCreateMoney env who amount) d (.ok .ok) d') :
    Mirrors d' := by
  have hget := h.holds.getMoney_eq who
  -- An account without a balance makes the read of the cache throw, which ends the request.
  cases hwho : accountsOf d.service.bankRepo who with
  | none =>
    rw [hwho] at hget
    have hattempt : RestAPIController.attemptCreateMoney env who amount d =
        (some (.error .nullPointer), d) := by
      rw [RestAPIController.attemptCreateMoney, hget]
    cases ((Retry.returns_iff_of_done hattempt).mp hreturns).1
  | some a =>
    cases a with
    | none =>
      rw [hwho] at hget
      have hattempt : RestAPIController.attemptCreateMoney env who amount d =
          (some (.error .numberFormat), d) := by
        rw [RestAPIController.attemptCreateMoney, hget]
      cases ((Retry.returns_iff_of_done hattempt).mp hreturns).1
    | some v =>
      obtain ⟨b, hb, hv⟩ := find_of_accountsOf hwho
      by_cases hmin : v = Int64.minValue
      · subst hmin
        exact absurd hreturns (deposit_never env h.holds hwho hb hv)
      · obtain ⟨d₁, hend, hholds, husers⟩ := returns_deposit env h.holds hwho hb hv amount hmin
        obtain ⟨-, rfl⟩ := (hend _ _).mp hreturns
        exact h.setAmount hb hholds husers

end Deposit

/-- An attempt of a transfer between users whom the cache has with their balances is accepted. The
cache moves the amount unless it refuses to. -/
theorem transfer_done (env : Environment) (h : Mirrors d) {sender receiver : String} {v w : Int64}
    (hs : accountsOf d.service.bankRepo sender = some (some v))
    (ht : accountsOf d.service.bankRepo receiver = some (some w)) (amount : Int64) :
    ∃ d', RestAPIController.attemptTransferMoney env sender receiver amount d =
        (some (.ok .ok), d') ∧
      Holds d'.cache
        (Holds.transferred (accountsOf d.service.bankRepo) sender receiver v w amount) ∧
      accountsOf d'.service.bankRepo =
        assign (assign (accountsOf d.service.bankRepo) sender (v - amount)) receiver (w + amount) ∧
      d'.service.bankRepo.findByUserName none = none := by
  obtain ⟨b, hb, hbv⟩ := find_of_accountsOf hs
  obtain ⟨c, hc, hcw⟩ := find_of_accountsOf ht
  -- The cache was right, so the replica agrees with both amounts at once.
  obtain ⟨cache, hinfo, hcache⟩ := h.holds.getTransferInfo hs ht amount
  refine ⟨_, (attemptTransferMoney_eq env hinfo hb hbv hc hcw).trans (if_pos ⟨rfl, rfl⟩), hcache,
    accountsOf_setTwo hb hc _ _, ?_⟩
  exact noNull_updateUser
    (noNull_newUserBankEntity h.noNull (BankRepository.userName_updateAmount hb _)) _

/-- A transfer that returns success is between users with balances. -/
theorem users_of_transfer (h : Mirrors d) {sender receiver : String} {amount : Int64}
    (hreturns : Retry.Returns (RestAPIController.attemptTransferMoney env sender receiver amount) d
      (.ok .ok) d') :
    ∃ v w, accountsOf d.service.bankRepo sender = some (some v) ∧
      accountsOf d.service.bankRepo receiver = some (some w) := by
  -- Otherwise the call ends with another status, or with an exception.
  have hother : ∀ (result : Except JavaException Status) (cache : Redis), result ≠ .ok .ok →
      RestAPIController.attemptTransferMoney env sender receiver amount d ≠
        (some result, { d with cache := cache }) := by
    intro result cache hne hattempt
    exact hne ((Retry.returns_iff_of_done hattempt).mp hreturns).1.symm
  have hnone : ∀ {cache : Redis}, BankServiceReplicationJedisCluster.getTransferInfo sender receiver
      amount d.cache ≠ (.ok none, cache) := by
    intro cache hinfo
    refine hother (.ok .notFound) cache (by simp) ?_
    rw [RestAPIController.attemptTransferMoney, hinfo]
  have herror : ∀ {e : JavaException} {cache : Redis},
      BankServiceReplicationJedisCluster.getTransferInfo sender receiver amount d.cache ≠
        (.error e, cache) := by
    intro e cache hinfo
    refine hother (.error e) cache (by simp) ?_
    rw [RestAPIController.attemptTransferMoney, hinfo]
  cases hs : accountsOf d.service.bankRepo sender with
  | none => exact absurd (h.holds.getTransferInfo_of_none (.inl hs) amount) hnone
  | some a =>
    cases ht : accountsOf d.service.bankRepo receiver with
    | none => exact absurd (h.holds.getTransferInfo_of_none (.inr ht) amount) hnone
    | some a' =>
      have hinfo := h.holds.getTransferInfo_of_null hs ht amount
      cases a with
      | none => exact absurd (hinfo (.inl rfl)) herror
      | some v =>
        cases a' with
        | none => exact absurd (hinfo (.inr rfl)) herror
        | some w => exact ⟨v, w, rfl, rfl⟩

/-- A transfer that the cache makes, too, changes the same balances on both sides. -/
theorem mirrors_transferMoney (h : Mirrors d) {sender receiver : String} {amount : Int64}
    (covered : Covered d (.transferMoney sender receiver (some amount)))
    (hreturns : Retry.Returns (RestAPIController.attemptTransferMoney env sender receiver amount) d
      (.ok .ok) d') : Mirrors d' := by
  obtain ⟨v, w, hs, ht⟩ := users_of_transfer h hreturns
  obtain ⟨d₁, hd₁, hcache, haccounts, hnull⟩ := transfer_done env h hs ht amount
  obtain ⟨-, rfl⟩ := (Retry.returns_iff_of_done hd₁).mp hreturns
  refine ⟨?_, hnull⟩
  rw [haccounts]
  unfold Holds.transferred at hcache
  by_cases h0 : 0 ≤ v - amount
  · rw [if_pos h0] at hcache
    exact hcache
  · -- Nothing is moved then, on either side.
    rw [if_neg h0] at hcache
    obtain ⟨b, hb, hbv⟩ := find_of_accountsOf hs
    have hv : balanceOf d.service.bankRepo (some sender) = some v := by
      rw [balanceOf, hb]
      exact hbv
    obtain rfl : amount = 0 := (covered v hv).resolve_left h0
    rw [sub_zero, add_zero, assign_same hs, assign_same ht]
    exact hcache

/-- After a transfer that only the replicas make, the receiver's cached amount is wrong. -/
theorem covered_of_coherent_transfer (h : Mirrors d) {sender receiver : String} {amount : Int64}
    (hreturns : Retry.Returns (RestAPIController.attemptTransferMoney env sender receiver amount) d
      (.ok .ok) d') (coherent : Coherent d') :
    Covered d (.transferMoney sender receiver (some amount)) := by
  intro v' hv'
  obtain ⟨v, w, hs, ht⟩ := users_of_transfer h hreturns
  obtain ⟨d₁, hd₁, hcache, haccounts, -⟩ := transfer_done env h hs ht amount
  obtain ⟨-, rfl⟩ := (Retry.returns_iff_of_done hd₁).mp hreturns
  obtain ⟨b, hb, hbv⟩ := find_of_accountsOf hs
  obtain rfl : v = v' := by
    rw [balanceOf, hb] at hv'
    exact Option.some.inj (hbv.symm.trans hv')
  by_cases h0 : 0 ≤ v - amount
  · exact .inl h0
  · right
    -- The receiver is at the replicas with the new balance, and in the cache with the old one.
    have hreceived : accountsOf d'.service.bankRepo receiver = some (some (w + amount)) := by
      rw [haccounts]
      by_cases e : sender = receiver
      · subst e
        exact assign_of_some (assign_of_some hs _) _
      · exact assign_of_some ((assign_of_ne _ e _).trans ht) _
    obtain ⟨c, hc, hcw⟩ := find_of_accountsOf hreceived
    have hnew := coherent (some receiver) c hc
    rw [Holds.transferred, if_neg h0] at hcache
    have hold := (hcache.entry ht).2
    rw [hcw] at hnew
    have hsame : some (w + amount) = some w :=
      BankServiceReplicationJedisCluster.jlongToText_inj (Option.some.inj (hnew.symm.trans hold))
    exact add_eq_left.mp (Option.some.inj hsame)

/-- The answer to `CHECK_CURRENT_AMOUNT` at the proxy: the balance, or `null` without one. -/
theorem invokeCheckCurrentAmount_eq (jvm : Jvm) (st : BankService) (u : JString) :
    ClientRequestHandler.invokeCheckCurrentAmount (received
        (st.access jvm (.unordered (queryCommand (.checkCurrentAmount u)))).1) =
      .ok (balanceOf st.bankRepo u) := by
  have hcommand := decodeUnordered_queryCommand (.checkCurrentAmount u)
  cases hu : st.bankRepo.findByUserName u with
  | none =>
    have hanswer : BankService.answer jvm st.bankRepo (.checkCurrentAmount u) = .ok none := by
      rw [BankService.answer_checkCurrentAmount, hu, Option.elim_none]
    rw [BankService.access_of_answer jvm st hcommand hanswer, balanceOf, hu]
    rfl
  | some b =>
    cases hb : b.amount with
    | none =>
      -- The replicas throw, and there is no reply.
      have hanswer : BankService.answer jvm st.bankRepo (.checkCurrentAmount u) =
          .error .nullPointer := by
        rw [BankService.answer_checkCurrentAmount, hu, Option.elim_some, hb, Option.elim_none]
      have hquery : BankService.query jvm (queryCommand (.checkCurrentAmount u)) st.bankRepo =
          .error .nullPointer := by
        rw [BankService.query, hcommand]
        exact hanswer
      simp only [BankService.access, BankService.appExecuteUnordered, BankService.finish, hquery,
        balanceOf, hu, Option.bind_some, hb]
      rfl
    | some v =>
      have hanswer : BankService.answer jvm st.bankRepo (.checkCurrentAmount u) =
          .ok (some [.long v]) := by
        rw [BankService.answer_checkCurrentAmount, hu, Option.elim_some, hb, Option.elim_some]
      rw [BankService.access_of_answer jvm st hcommand hanswer, balanceOf, hu, Option.bind_some, hb]
      rfl

/-- An unordered request changes no account. -/
theorem access_unordered_users (jvm : Jvm) (st : BankService) (command : Command) :
    (st.access jvm (.unordered command)).2.bankRepo.users = st.bankRepo.users :=
  finish_users _

/-- `getAmountOfUser` finds the balance in the cache. -/
theorem mirrors_getAmountOfUser (h : Mirrors d) {who : String}
    (hattempt : RestAPIController.getAmountOfUser env who d = (.ok .ok, d')) :
    Mirrors d' := by
  have husers := access_unordered_users env.jvm d.service
    (queryCommand (.checkCurrentAmount (some who)))
  unfold RestAPIController.getAmountOfUser at hattempt
  dsimp only at hattempt
  rw [invokeCheckCurrentAmount_eq] at hattempt
  -- The cached amount is the one of the replica, so it is not corrected.
  cases hbalance : balanceOf d.service.bankRepo (some who) with
  | none =>
    rw [hbalance] at hattempt
    cases hattempt
  | some v =>
    obtain ⟨b, hb, hbv⟩ := find_of_balanceOf hbalance
    have hwho : accountsOf d.service.bankRepo who = some (some v) := by
      rw [accountsOf_of_find hb, hbv]
    have hget := h.holds.getMoney_eq who
    rw [hwho] at hget
    rw [hbalance, hget] at hattempt
    dsimp only at hattempt
    by_cases hv : v = -1
    · rw [if_pos hv] at hattempt
      cases hattempt
    · rw [if_neg hv, if_pos rfl] at hattempt
      cases hattempt
      exact h.of_users rfl husers

end Calls

/-! ## The accounts of the cache and of the replicas -/

section Hash

open BankServiceReplicationJedisCluster (hashOf hashOf_perm accountsHash_eq cachedAccount
  cachedAccounts)

/-- The account of an entry. -/
theorem cachedAccount_of_entry {r : Redis} {b : BankEntity} {u : String} (hu : b.userName = some u)
    (h : Entry r u b.amount) {j : JSONObject} (hj : cachedAccount r (userKey u) = .ok j) :
    j = b.getJSONSecure := by
  unfold cachedAccount at hj
  dsimp only at hj
  rw [h.1, h.2, Option.bind_some, BankServiceReplicationJedisCluster.parseLong_jlongToText] at hj
  -- The text of `null` is not a number.
  cases hb : b.amount with
  | none =>
    rw [hb] at hj
    cases hj
  | some v =>
    rw [hb] at hj
    cases hj
    rw [BankEntity.getJSONSecure, hu, hb]
    rfl

variable (env : Environment) {d d' : Deployment}

/-- The keys of the cached users are those of the users of the replicas. -/
theorem keys_perm (h : Mirrors d) :
    (env.keys d.cache).Perm
      (d.service.bankRepo.users.keys.map fun u => userKey (JString.toText u)) := by
  have hnamed : ∀ u ∈ d.service.bankRepo.users.keys, ∃ name b, u = some name ∧
      d.service.bankRepo.findByUserName (some name) = some b := by
    intro u hu
    obtain ⟨b, hb, rfl⟩ := List.mem_map.mp hu
    obtain ⟨name, hname, hfind⟩ := h.named hb
    exact ⟨name, b, hname, hfind⟩
  -- Both lists are without repetition, so it is enough to compare their members.
  rw [List.perm_ext_iff_of_nodup (env.keys_nodup _) ?_]
  · intro s
    rw [env.mem_keys, List.mem_map]
    constructor
    · rintro ⟨huser, hs | hs⟩
      · obtain ⟨u, a, rfl, hentry⟩ := h.holds.holdsUsers.hashes s hs huser
        cases hu : d.service.bankRepo.findByUserName (some u) with
        | none => exact absurd (h.holds.absent (accountsOf_of_free hu)) hentry.lookup_ne_none
        | some b =>
          refine ⟨some u, ?_, rfl⟩
          rw [← BankRepository.userName_of_find hu]
          exact List.mem_map_of_mem (KeyedMap.mem_of_get hu)
      · rw [h.holds.sets s hs] at huser
        cases huser
    · rintro ⟨u, hu, rfl⟩
      obtain ⟨name, b, rfl, hb⟩ := hnamed u hu
      exact ⟨BankServiceReplicationJedisCluster.isUserKey_userKey name,
        .inl (h.holds.entry (accountsOf_of_find hb)).mem_keys⟩
  · refine List.Nodup.map_on ?_ d.service.bankRepo.users.nodup
    intro u hu u' hu' e
    obtain ⟨name, -, rfl, -⟩ := hnamed u hu
    obtain ⟨name', -, rfl, -⟩ := hnamed u' hu'
    exact congrArg some (BankServiceReplicationJedisCluster.userKey_inj e)

/-- The cached accounts are those that the replicas list, in some order. -/
theorem cachedAccounts_perm (h : Mirrors d) {accounts : List JSONObject}
    (haccounts : cachedAccounts (env.keys d.cache) d.cache = .ok accounts) :
    accounts.Perm (d.service.bankRepo.users.values.map BankEntity.getJSONSecure) := by
  have hkeys := keys_perm env h
  -- As a function of the key, so that the order of the keys does not matter.
  let g : String → JSONObject := fun s => (cachedAccount d.cache s).toOption.getD JSONObject.empty
  have hlist : accounts = (env.keys d.cache).map g := by
    refine mapM_eq_ok haccounts fun s j _ hj => ?_
    show (cachedAccount d.cache s).toOption.getD JSONObject.empty = j
    rw [hj]
    rfl
  have hg : ∀ b ∈ d.service.bankRepo.users.values,
      g (userKey (JString.toText b.userName)) = b.getJSONSecure := by
    intro b hb
    have hmem : userKey (JString.toText b.userName) ∈ env.keys d.cache :=
      hkeys.mem_iff.mpr (List.mem_map.mpr ⟨b.userName, List.mem_map_of_mem hb, rfl⟩)
    obtain ⟨j, hj⟩ := ok_of_mapM haccounts _ hmem
    have hjson : j = b.getJSONSecure := by
      obtain ⟨u, hname, hfind⟩ := h.named hb
      rw [hname] at hj
      exact cachedAccount_of_entry hname (h.holds.entry (accountsOf_of_find hfind)) hj
    show (cachedAccount d.cache (userKey (JString.toText b.userName))).toOption.getD
      JSONObject.empty = b.getJSONSecure
    rw [hj]
    exact hjson
  have hmap : (d.service.bankRepo.users.keys.map fun u => userKey (JString.toText u)).map g =
      d.service.bankRepo.users.values.map BankEntity.getJSONSecure := by
    rw [KeyedMap.keys, List.map_map, List.map_map]
    exact List.map_congr_left hg
  rw [hlist, ← hmap]
  exact hkeys.map g

/-- `getAll` finds that the hashes are equal and changes nothing. -/
theorem mirrors_getAll (h : Mirrors d)
    (hattempt : RestAPIController.getAll env d = (.ok .ok, d')) : Mirrors d' := by
  unfold RestAPIController.getAll at hattempt
  cases haccounts : cachedAccounts (env.keys d.cache) d.cache with
  | error e =>
    rw [haccounts] at hattempt
    cases hattempt
  | ok accounts =>
    -- The hash is that of the same accounts in another order.
    have hhash : BankService.accountsHash env.jvm (d.service.bankRepo.usersIterator env.jvm) =
        hashOf env.jvm accounts := by
      rw [accountsHash_eq]
      refine hashOf_perm env.jvm (List.Perm.trans ?_ (cachedAccounts_perm env h haccounts).symm)
      exact (inOrder_perm env.jvm d.service.bankRepo.users).map _
    have hanswer := BankService.access_of_answer env.jvm d.service
      (decodeUnordered_queryCommand .listAllBankAccounts) rfl
    rw [haccounts] at hattempt
    dsimp only at hattempt
    rw [hanswer] at hattempt
    dsimp only [received, ClientRequestHandler.invokeListAllBankAccounts] at hattempt
    rw [if_neg (not_not.mpr hhash)] at hattempt
    cases hattempt
    exact h.of_users rfl rfl

end Hash

/-! ## Runs -/

/-- A call that returns success keeps the cache a mirror of the replicas, if it is covered. -/
theorem mirrors_of_returns {env : Environment} {d d' : Deployment} {call : RestCall} (h : Mirrors d)
    (covered : Covered d call) (hreturns : call.Returns env d .ok d') : Mirrors d' := by
  cases call with
  | createNew userName password encoded amount roles =>
    exact mirrors_createNew h (returns_once_iff.mp hreturns)
  | createMoney who amount =>
    cases amount with
    | some amount => exact mirrors_createMoney h hreturns
    -- `null` cannot be unboxed.
    | none =>
      have hcall := returns_once_iff.mp hreturns
      split at hcall <;> cases hcall
  | transferMoney sender receiver amount =>
    cases amount with
    | some amount => exact mirrors_transferMoney h covered hreturns
    | none => cases returns_once_iff.mp hreturns
  | getAmountOfUser who => exact mirrors_getAmountOfUser h (returns_once_iff.mp hreturns)
  | getAll => exact mirrors_getAll env h (returns_once_iff.mp hreturns)

/-- A call after which the cache is coherent was covered. -/
theorem covered_of_coherent {env : Environment} {d d' : Deployment} {call : RestCall} (h : Mirrors d)
    (hreturns : call.Returns env d .ok d') (coherent : Coherent d') : Covered d call := by
  cases call with
  | transferMoney sender receiver amount =>
    cases amount with
    | some amount => exact covered_of_coherent_transfer h hreturns coherent
    | none => trivial
  | createNew userName password encoded amount roles => trivial
  | createMoney who amount => trivial
  | getAmountOfUser who => trivial
  | getAll => trivial

/-- The deployments that are reached by calls that all return success, from an empty cache and replicas
without users. -/
inductive Reached (env : Environment) : List RestCall → Deployment → Prop
  | start : Reached env [] ⟨Redis.empty, BankService.new⟩
  | call {calls : List RestCall} {call : RestCall} {d d' : Deployment} :
    Reached env calls d → call.Returns env d .ok d' → Reached env (calls ++ [call]) d'

/-- Without a call nothing has changed. -/
theorem Reached.of_nil {env : Environment} {d : Deployment} (h : Reached env [] d) :
    d = ⟨Redis.empty, BankService.new⟩ := by
  generalize hlist : ([] : List RestCall) = list at h
  cases h with
  | start => rfl
  | call hreached hreturns => exact absurd hlist (by simp)

/-- The last call of a run. -/
theorem Reached.last {env : Environment} {calls : List RestCall} {call : RestCall} {d' : Deployment}
    (h : Reached env (calls ++ [call]) d') :
    ∃ d, Reached env calls d ∧ call.Returns env d .ok d' := by
  generalize hlist : calls ++ [call] = list at h
  cases h with
  | start => exact absurd hlist (by simp)
  | call hreached hreturns =>
    obtain ⟨rfl, hcall⟩ := List.append_inj' hlist rfl
    cases hcall
    exact ⟨_, hreached, hreturns⟩

/-- An empty cache mirrors replicas without users. -/
theorem mirrors_start : Mirrors ⟨Redis.empty, BankService.new⟩ :=
  ⟨BankServiceReplicationJedisCluster.holds_empty, rfl⟩

/-- **When the cache of a single proxy is coherent:** at every point of a run of calls that all return
success, the cached amounts are the balances, exactly when every transfer was covered by the balance
of its sender at the time, or was one of nothing. -/
theorem coherent_iff (env : Environment) (calls : List RestCall) :
    (∀ points, points <+: calls → ∀ d, Reached env points d → Coherent d) ↔
      ∀ points call, points ++ [call] <+: calls → ∀ d d', Reached env points d →
        call.Returns env d .ok d' → Covered d call := by
  -- The invariant also says that the cache knows no other users.
  refine Run.forall_prefix_iff_of_invariant (I := fun points => ∀ d, Reached env points d → Mirrors d)
    ?_ ?_ ?_ ?_ calls
  · intro d hd
    rw [hd.of_nil]
    exact mirrors_start.coherent
  · intro d hd
    rw [hd.of_nil]
    exact mirrors_start
  · intro points call _ hmirrors
    constructor
    · intro hcoherent d d' hreached hreturns
      exact covered_of_coherent (hmirrors d hreached) hreturns
        (hcoherent d' (.call hreached hreturns))
    · intro hcovered d' hreached'
      obtain ⟨d, hreached, hreturns⟩ := hreached'.last
      exact (mirrors_of_returns (hmirrors d hreached) (hcovered d d' hreached hreturns)
        hreturns).coherent
  · intro points call _ hmirrors hcovered d' hreached'
    obtain ⟨d, hreached, hreturns⟩ := hreached'.last
    exact mirrors_of_returns (hmirrors d hreached) (hcovered d d' hreached hreturns) hreturns

/-! ## An overdraft -/

/-- A call whose first attempt returns success. -/
theorem Reached.attempt {env : Environment} {calls : List RestCall} {d : Deployment}
    (h : Reached env calls d) (call : RestCall)
    (hok : (call.attempt env d).1 = some (.ok .ok)) :
    Reached env (calls ++ [call]) (call.attempt env d).2 :=
  .call h ((Retry.returns_iff_of_done (Prod.ext hok rfl)).mpr ⟨rfl, rfl⟩)

/-- Two registrations. -/
def registered : Deployment :=
  ((RestCall.createNew (some "bob") (some "secret") "$2a$10$bob" (some 0) none).attempt plainEnvironment
    ((RestCall.createNew (some "alice") (some "secret") "$2a$10$alice" (some 5) none).attempt
      plainEnvironment ⟨Redis.empty, BankService.new⟩).2).2

/-- Two registrations lead there. -/
theorem reached_registered :
    Reached plainEnvironment
      [.createNew (some "alice") (some "secret") "$2a$10$alice" (some 5) none,
        .createNew (some "bob") (some "secret") "$2a$10$bob" (some 0) none] registered :=
  (Reached.start.attempt _ (by decide)).attempt _ (by decide)

/-- **An overdraft makes the cache wrong:** `alice` has 5 and sends 10 to `bob`. The replicas make the
transfer and the call returns success, but the cache has refused it and still has 5 for `alice`. -/
theorem overdraft_incoherent :
    ∃ d, Reached plainEnvironment
        [.createNew (some "alice") (some "secret") "$2a$10$alice" (some 5) none,
          .createNew (some "bob") (some "secret") "$2a$10$bob" (some 0) none,
          .transferMoney "alice" "bob" (some 10)] d ∧
      balanceOf d.service.bankRepo (some "alice") = some (-5) ∧
      balanceOf d.service.bankRepo (some "bob") = some 10 ∧
      Entry d.cache "alice" (some 5) ∧ Entry d.cache "bob" (some 0) ∧ ¬ Coherent d := by
  -- The transfer is accepted by the replica, while the cache refused it for itself.
  have hbalance : balanceOf ((RestCall.transferMoney "alice" "bob" (some 10)).attempt plainEnvironment
      registered).2.service.bankRepo (some "alice") = some (-5) := by
    decide
  have hentry : Entry ((RestCall.transferMoney "alice" "bob" (some 10)).attempt plainEnvironment
      registered).2.cache "alice" (some 5) := ⟨by decide, by decide⟩
  refine ⟨_, reached_registered.attempt (.transferMoney "alice" "bob" (some 10)) (by decide), hbalance,
    by decide, hentry, ⟨by decide, by decide⟩, ?_⟩
  intro coherent
  obtain ⟨b, hb, hamount⟩ := find_of_balanceOf hbalance
  have hcached := coherent (some "alice") b hb
  rw [hamount] at hcached
  have hsame := BankServiceReplicationJedisCluster.jlongToText_inj
    (Option.some.inj (hcached.symm.trans hentry.2))
  exact absurd hsame (by decide)

end NovaBank.Money
