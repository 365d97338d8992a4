import NovaBank.Money.Effects
import NovaBank.Money.Moves
import NovaBank.Proxy.Rest

/-!
# Sums of money

Balances and amounts are `long` values, whose sums and differences wrap round, and nothing tests for
that. A payment is one of the six places at which the program computes a balance, with what it reads
there. `payment_exact_iff`: from balances that are not negative, the results are the exact ones, and the
test for enough money is right, exactly when no sum and no difference with a negative amount reaches
`2^63`.
-/

namespace NovaBank.Money

open Java Replica Proxy BankServiceReplicationJedisCluster

/-- A place at which a balance is computed. -/
inductive Payment where
  /-- `getTransferInfo(from, to, amount)`. -/
  | getTransferInfo (r : Redis) (sender receiver : String) (amount : Int64)
  /-- `transferMoney(fromUsername, toUsername, amount)` of the cache. -/
  | cachedTransfer (r : Redis) (sender receiver : String) (amount : Int64)
  /-- `createMoney(who, amount)` of the controller. -/
  | createMoney (r : Redis) (who : String) (amount : Int64)
  /-- `CREATE_MONEY` of a contract of `www`. -/
  | createMoneyOperation (s : BankRepository) (www : JString) (ss : List String)
  /-- `TRANSFER_MONEY` of a contract of `www`. -/
  | transferMoneyOperation (s : BankRepository) (www : JString) (ss : List String)
  /-- The pay-out of the auction `r` in `closeAution(id, who, bankRepo)`. -/
  | payOut (jvm : Jvm) (s : BankRepository) (id : JLong) (who : JString) (r : AuctionRef)

namespace Payment

/-- The payment goes from the balance `old` to the balance `target` and is about `amount`. A deposit reads
one balance only. -/
inductive Reads : Payment → Int64 → Int64 → Int64 → Prop where
  | getTransferInfo {r : Redis} {sender receiver : String} {amount old target : Int64}
      (from_registered : isRegistered r sender = true) (to_registered : isRegistered r receiver = true)
      (from_amount : entryAmount r sender = .ok old) (to_amount : entryAmount r receiver = .ok target) :
      Reads (.getTransferInfo r sender receiver amount) old target amount
  | cachedTransfer {r : Redis} {sender receiver : String} {amount old target : Int64}
      (from_registered : isRegistered r sender = true) (to_registered : isRegistered r receiver = true)
      (from_amount : entryAmount r sender = .ok old) (to_amount : entryAmount r receiver = .ok target) :
      Reads (.cachedTransfer r sender receiver amount) old target amount
  | createMoney {r : Redis} {who : String} {amount money : Int64}
      (registered : isRegistered r who = true) (entry : entryAmount r who = .ok money) :
      Reads (.createMoney r who amount) money money amount
  | createMoneyOperation {s : BankRepository} {www : JString} {ss : List String} {amount old : Int64}
      (balance : balanceOf s www = some old) (asked : longWord ss 1 = .ok amount) :
      Reads (.createMoneyOperation s www ss) old old amount
  | transferMoneyOperation {s : BankRepository} {www : JString} {ss : List String} {receiver : String}
      {amount old target : Int64} (balance : balanceOf s www = some old)
      (asked : longWord ss 2 = .ok amount) (name : word ss 1 = .ok receiver)
      (to_balance : balanceOf s (some receiver) = some target) :
      Reads (.transferMoneyOperation s www ss) old target amount
  | payOut {jvm : Jvm} {s : BankRepository} {id : JLong} {who : JString} {r : AuctionRef}
      {balance : Int64} (indexed : Indexed s) (closes : Closes jvm id who s r)
      (owner : balanceOf s (s.auction r).ownerUsername = some balance) :
      Reads (.payOut jvm s id who r) balance balance (s.auction r).getLastBidAmount

/-- What is computed is what the integers are, and a test for enough money finds out whether there is. -/
def Exact : Payment → (old target amount : Int64) → Prop
  | .getTransferInfo r sender receiver amount, old, target, _ =>
    ∃ info r', BankServiceReplicationJedisCluster.getTransferInfo sender receiver amount r =
        (.ok (some info), r') ∧
      info.fromAmount.toInt = old.toInt - amount.toInt ∧
      info.toAmount.toInt = target.toInt + amount.toInt
  | .cachedTransfer r sender receiver amount, old, target, _ =>
    let result := BankServiceReplicationJedisCluster.transferMoney sender receiver amount r
    (result.1 = .ok true ↔ amount.toInt ≤ old.toInt) ∧
      (result.1 = .ok true →
        -- The write to the receiver is the last one.
        (sender ≠ receiver →
          ∃ v, entryAmount result.2 sender = .ok v ∧ v.toInt = old.toInt - amount.toInt) ∧
        ∃ v, entryAmount result.2 receiver = .ok v ∧ v.toInt = target.toInt + amount.toInt)
  | .createMoney r who amount, _, money, _ =>
    ∃ v, RestAPIController.createMoney who amount r = some (Proxy.createMoney (some who) money v) ∧
      v.toInt = money.toInt + amount.toInt
  | .createMoneyOperation s www ss, _, old, amount =>
    ∃ v, SmartContractRunner.callCreateMoney s www ss = .ok (some (.createMoney www v)) ∧
      v.toInt = old.toInt + amount.toInt
  | .transferMoneyOperation s www ss, old, target, amount =>
    if amount.toInt ≤ old.toInt then
      ∃ v receiver w, SmartContractRunner.callTransferMoney s www ss =
          .ok (some (.transferMoney www v receiver w)) ∧
        v.toInt = old.toInt - amount.toInt ∧ w.toInt = target.toInt + amount.toInt
    else SmartContractRunner.callTransferMoney s www ss = .ok none
  | .payOut jvm s id who r, _, balance, amount =>
    ∃ v, balanceOf (BankServiceHelper.closeAution jvm id who s).2 (s.auction r).ownerUsername = some v ∧
      v.toInt = balance.toInt + amount.toInt

/-- The results are below `2^63`. A transfer with a test for enough money does not get to the sum when
there is not. -/
def Fits : Payment → (old target amount : Int64) → Prop
  | .getTransferInfo .., old, target, amount =>
    old.toInt - amount.toInt < 2^63 ∧ target.toInt + amount.toInt < 2^63
  | .cachedTransfer .., old, target, amount | .transferMoneyOperation .., old, target, amount =>
    old.toInt - amount.toInt < 2^63 ∧
      (amount.toInt ≤ old.toInt → target.toInt + amount.toInt < 2^63)
  | .createMoney .., _, target, amount | .createMoneyOperation .., _, target, amount
  | .payOut .., _, target, amount => target.toInt + amount.toInt < 2^63

end Payment

section Paths

variable {r : Redis} {sender receiver : String} {s : BankRepository} {www : JString} {ss : List String}
  {old target amount : Int64}

/-- The cached amounts after one was written. -/
theorem entryAmount_hset (r : Redis) (u v : String) (a : Int64) :
    entryAmount (r.hset (userKey u) "amount" (Long.toText a)) v =
      if u = v then .ok a else entryAmount r v := by
  have hget : ((r.hset (userKey u) "amount" (Long.toText a)).hgetAll (userKey v)).lookup "amount" =
      if userKey u = userKey v ∧ "amount" = "amount" then some (Long.toText a)
      else (r.hgetAll (userKey v)).lookup "amount" := r.hget_hset _ _ _ _ _
  unfold entryAmount
  rw [hget]
  by_cases h : u = v
  · rw [if_pos ⟨congrArg userKey h, rfl⟩, if_pos h, Option.bind_some, parseLong_toText]
  · rw [if_neg fun h' => h (userKey_inj h'.1), if_neg h]

/-- The transfer in the cache, for two users who have entries. -/
theorem cachedTransfer_eq (hsender : isRegistered r sender = true)
    (hreceiver : isRegistered r receiver = true) (hold : entryAmount r sender = .ok old)
    (htarget : entryAmount r receiver = .ok target) (amount : Int64) :
    BankServiceReplicationJedisCluster.transferMoney sender receiver amount r =
      if 0 ≤ old - amount then
        (.ok true, (r.hset (userKey sender) "amount" (Long.toText (old - amount))).hset
          (userKey receiver) "amount" (Long.toText (target + amount)))
      else (.ok false, r) := by
  simp only [BankServiceReplicationJedisCluster.transferMoney, hsender, hreceiver, hold, htarget, if_true]

/-- The operation of a contract, for two users with balances. -/
theorem callTransferMoney_eq (hold : balanceOf s www = some old) (hamount : longWord ss 2 = .ok amount)
    (hname : word ss 1 = .ok receiver) (htarget : balanceOf s (some receiver) = some target) :
    SmartContractRunner.callTransferMoney s www ss =
      if 0 ≤ old - amount then
        .ok (some (.transferMoney www (old - amount) (some receiver) (amount + target)))
      else .ok none := by
  obtain ⟨b, huser, -⟩ := find_of_balanceOf hold
  have hu : s.user www = .ok b := by simp [BankRepository.user, huser]
  simp only [SmartContractRunner.callTransferMoney, hu, hamount, balance_eq_ok_iff.mpr hold, hname,
    balance_eq_ok_iff.mpr htarget, bind, Except.bind, pure, Except.pure]

/-- A transfer with a test for enough money. When the test is passed, the difference is exact and what
matters is the sum. When it is not, there must not be enough money. -/
theorem tested_iff {P : Prop} (hold : 0 ≤ old) (htarget : 0 ≤ target)
    (passed : 0 ≤ old - amount → (old - amount).toInt = old.toInt - amount.toInt →
      (P ↔ amount.toInt ≤ old.toInt ∧ (target + amount).toInt = target.toInt + amount.toInt))
    (failed : ¬ 0 ≤ old - amount → (P ↔ ¬ amount.toInt ≤ old.toInt)) :
    P ↔ old.toInt - amount.toInt < 2^63 ∧
      (amount.toInt ≤ old.toInt → target.toInt + amount.toInt < 2^63) := by
  have hsum := toInt_add_eq_iff htarget amount
  have htest := sub_nonneg_iff hold amount
  -- The test of the code is on the difference, which can wrap around in both directions.
  by_cases h : 0 ≤ old - amount
  · obtain ⟨henough, hfits⟩ := htest.mp h
    rw [passed h ((toInt_sub_eq_iff hold amount).mpr hfits), hsum]
    exact ⟨fun hexact => ⟨hfits, fun _ => hexact.2⟩, fun hcond => ⟨henough, hcond.2 henough⟩⟩
  · rw [failed h]
    rw [htest, not_and_or] at h
    constructor
    · intro hshort
      exact ⟨by omega, fun henough => absurd henough hshort⟩
    · intro hcond henough
      rcases h with h | h
      · exact h henough
      · exact h hcond.1

/-- A transfer in the cache is exact when the two results fit. -/
theorem cachedTransfer_exact_iff (hsender : isRegistered r sender = true)
    (hreceiver : isRegistered r receiver = true) (hfrom : entryAmount r sender = .ok old)
    (hto : entryAmount r receiver = .ok target) (hold : 0 ≤ old) (htarget : 0 ≤ target) :
    (Payment.cachedTransfer r sender receiver amount).Exact old target amount ↔
      (Payment.cachedTransfer r sender receiver amount).Fits old target amount := by
  have heq := cachedTransfer_eq hsender hreceiver hfrom hto amount
  refine tested_iff hold htarget (fun h hdifference => ?_) fun h => ?_
  · rw [if_pos h] at heq
    simp only [Payment.Exact, heq, true_iff, true_implies]
    -- The entry of the receiver is written last, so that of the sender counts only when they differ.
    refine and_congr_right fun _ => ?_
    constructor
    · rintro ⟨-, v, hv, hexact⟩
      rw [entryAmount_hset, if_pos rfl] at hv
      rwa [Except.ok.inj hv]
    · intro hsum
      refine ⟨fun hne => ⟨old - amount, ?_, hdifference⟩, target + amount, ?_, hsum⟩
      · rw [entryAmount_hset, if_neg (Ne.symm hne), entryAmount_hset, if_pos rfl]
      · rw [entryAmount_hset, if_pos rfl]
  · rw [if_neg h] at heq
    simp [Payment.Exact, heq]

/-- So is a transfer of a contract. -/
theorem transferMoneyOperation_exact_iff (hfrom : balanceOf s www = some old)
    (hamount : longWord ss 2 = .ok amount) (hname : word ss 1 = .ok receiver)
    (hto : balanceOf s (some receiver) = some target) (hold : 0 ≤ old) (htarget : 0 ≤ target) :
    (Payment.transferMoneyOperation s www ss).Exact old target amount ↔
      (Payment.transferMoneyOperation s www ss).Fits old target amount := by
  have heq := callTransferMoney_eq hfrom hamount hname hto
  refine tested_iff hold htarget (fun h hdifference => ?_) fun h => ?_
  · rw [if_pos h, add_comm amount target] at heq
    -- When the test passes, the call carries the two sums; otherwise there is no call.
    have henough := ((sub_nonneg_iff hold amount).mp h).1
    simp only [Payment.Exact, heq, henough, true_and, if_true]
    constructor
    · rintro ⟨v, receiver', w, hcall, -, hexact⟩
      cases hcall
      exact hexact
    · intro hsum
      exact ⟨_, _, _, rfl, hdifference, hsum⟩
  · rw [if_neg h] at heq
    simp only [Payment.Exact, heq]
    split_ifs with henough
    · simp [henough]
    · simp [henough]

/-- A place with one sum. -/
theorem sum_exact_iff {P : Int64 → Prop} (htarget : 0 ≤ target) (hP : ∀ v, P v ↔ v = target + amount) :
    (∃ v, P v ∧ v.toInt = target.toInt + amount.toInt) ↔ target.toInt + amount.toInt < 2^63 := by
  simp only [hP, exists_eq_left]
  exact toInt_add_eq_iff htarget amount

/-- So are the amounts that the proxy prepares for a transfer. -/
theorem getTransferInfo_exact_iff (hsender : isRegistered r sender = true)
    (hreceiver : isRegistered r receiver = true) (hfrom : entryAmount r sender = .ok old)
    (hto : entryAmount r receiver = .ok target) (hold : 0 ≤ old) (htarget : 0 ≤ target) :
    (Payment.getTransferInfo r sender receiver amount).Exact old target amount ↔
      (Payment.getTransferInfo r sender receiver amount).Fits old target amount := by
  -- The two amounts of the answer are computed before the test, and returned also when it fails.
  have heq : ∃ r', BankServiceReplicationJedisCluster.getTransferInfo sender receiver amount r =
      (.ok (some ⟨old, target, old - amount, target + amount⟩), r') := by
    simp only [BankServiceReplicationJedisCluster.getTransferInfo, hsender, hreceiver, hfrom, hto,
      cachedTransfer_eq hsender hreceiver hfrom hto amount, Bool.and_self, if_true]
    split_ifs <;> exact ⟨_, rfl⟩
  obtain ⟨r', heq⟩ := heq
  simp only [Payment.Exact, Payment.Fits, heq, ← toInt_add_eq_iff htarget amount,
    ← toInt_sub_eq_iff hold amount]
  constructor
  · rintro ⟨info, _, hinfo, hfromExact, htoExact⟩
    cases hinfo
    exact ⟨hfromExact, htoExact⟩
  · rintro ⟨hfromExact, htoExact⟩
    exact ⟨_, _, rfl, hfromExact, htoExact⟩

/-- The request of the controller has the sum as the new balance. -/
theorem createMoney_eq_iff {who : String} (hregistered : isRegistered r who = true)
    (hentry : entryAmount r who = .ok target) (v : Int64) :
    RestAPIController.createMoney who amount r = some (Proxy.createMoney (some who) target v) ↔
      v = target + amount := by
  have heq : RestAPIController.createMoney who amount r =
      some (Proxy.createMoney (some who) target (target + amount)) := by
    simp [RestAPIController.createMoney, getMoney, hregistered, hentry, Except.map]
  rw [heq]
  constructor
  · intro h
    -- The replicas read the new balance from the request.
    have hdecode := congrArg decodeOrdered (Option.some.inj h)
    rw [decodeOrdered_createMoney, decodeOrdered_createMoney] at hdecode
    cases hdecode
    rfl
  · rintro rfl
    rfl

/-- The deposit of a contract sets the wrapped sum. -/
theorem callCreateMoney_eq_iff (hbalance : balanceOf s www = some target)
    (hasked : longWord ss 1 = .ok amount) (v : Int64) :
    SmartContractRunner.callCreateMoney s www ss = .ok (some (.createMoney www v)) ↔
      v = target + amount := by
  have heq : SmartContractRunner.callCreateMoney s www ss =
      .ok (some (.createMoney www (target + amount))) := by
    simp [SmartContractRunner.callCreateMoney, balance_eq_ok_iff.mpr hbalance, hasked, bind,
      Except.bind, pure, Except.pure]
  simp [heq, eq_comm]

/-- The pay-out sets the wrapped sum. -/
theorem balanceOf_payOut_eq_iff {jvm : Jvm} {id : JLong} {who : JString} {a : AuctionRef}
    (hindexed : Indexed s) (hcloses : Closes jvm id who s a)
    (howner : balanceOf s (s.auction a).ownerUsername = some target) (v : Int64) :
    balanceOf (BankServiceHelper.closeAution jvm id who s).2 (s.auction a).ownerUsername = some v ↔
      v = target + (s.auction a).getLastBidAmount := by
  rw [closeAution_of_closes hindexed hcloses, balanceOf_closed, howner, if_pos rfl, Option.map_some,
    Option.some.injEq, eq_comm]

end Paths

/-- **Exact sums of money:** from balances that are not negative, a payment computes what the integers
are, and a test for enough money is right, exactly when the results are below `2^63`. -/
theorem payment_exact_iff (payment : Payment) {old target amount : Int64}
    (reads : payment.Reads old target amount) (hold : 0 ≤ old) (htarget : 0 ≤ target) :
    payment.Exact old target amount ↔ payment.Fits old target amount := by
  -- Three payments only add; the others subtract as well.
  cases reads with
  | getTransferInfo hsender hreceiver hfrom hto =>
    exact getTransferInfo_exact_iff hsender hreceiver hfrom hto hold htarget
  | cachedTransfer hsender hreceiver hfrom hto =>
    exact cachedTransfer_exact_iff hsender hreceiver hfrom hto hold htarget
  | createMoney hregistered hentry =>
    exact sum_exact_iff htarget (createMoney_eq_iff hregistered hentry)
  | createMoneyOperation hbalance hasked =>
    exact sum_exact_iff htarget (callCreateMoney_eq_iff hbalance hasked)
  | transferMoneyOperation hfrom hasked hname hto =>
    exact transferMoneyOperation_exact_iff hfrom hasked hname hto hold htarget
  | payOut hindexed hcloses howner =>
    exact sum_exact_iff htarget (balanceOf_payOut_eq_iff hindexed hcloses howner)

/-- `alice` is registered with the given balance and `bob` with nothing. -/
def registeredWithBalance (balance : Int64) : BankRepository :=
  reached (Jvm.plain (ContractClass.queueing []))
    [.ordered (Proxy.registerUser (some "alice") (some "secret") (some balance) none),
      .ordered (Proxy.registerUser (some "bob") (some "secret") (some 0) none)]

/-- A deposit of 5 to a balance of 10. -/
theorem payment_exact_deposit :
    (Payment.createMoneyOperation (registeredWithBalance 10) (some "alice") ["CREATE_MONEY", "5"]).Exact
      10 10 5 :=
  (payment_exact_iff _ (.createMoneyOperation (by decide) (by decide)) (by decide) (by decide)).mpr
    (show (10 : Int64).toInt + (5 : Int64).toInt < 2^63 by decide)

/-- **Sums that wrap round:** a deposit of 1 to the largest balance leaves the smallest one, and a
transfer of the smallest amount from a balance of 0 is refused, although 0 is more than that. -/
theorem payment_wraps :
    SmartContractRunner.callCreateMoney (registeredWithBalance Int64.maxValue) (some "alice")
        ["CREATE_MONEY", "1"] = .ok (some (.createMoney (some "alice") Int64.minValue)) ∧
      Int64.minValue.toInt ≠ Int64.maxValue.toInt + (1 : Int64).toInt ∧
      SmartContractRunner.callTransferMoney (registeredWithBalance 0) (some "alice")
        ["TRANSFER_MONEY", "bob", "-9223372036854775808"] = .ok none ∧
      Int64.minValue.toInt ≤ (0 : Int64).toInt := by
  decide

end NovaBank.Money
