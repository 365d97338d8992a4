import NovaBank.Money.Balances
import NovaBank.Proxy.Cache
import NovaBank.Replica.Runs

/-!
# Transfers

There are three implementations of a transfer: the ordered request `TRANSFER_MONEY`, built from what
`getTransferInfo` reads; the contract operation `TRANSFER_MONEY`; and the update of the cache by
`transferMoney` of `BankServiceReplicationJedisCluster`. Each one computes both new balances from
the old ones before it writes either, the sender's first.

So each one moves the amount from a user to another one, and makes money when the two are the same
user: the second write wins. `moves_iff` is that argument, for any kind of ledger, and
`transfers_conserve_iff` applies it to the three paths.
-/

namespace NovaBank.Money

open Java Replica

/-! ## Two writes of balances computed before -/

section Moves

variable {U : Type} [DecidableEq U]

/-- What a transfer should do: the sum of all balances stays, the sender's falls by the amount, the
receiver's rises by it, and no other one changes. -/
structure Moves (balance balance' : U → JLong) (total total' : Int64) (sender receiver : U)
    (amount : Int64) : Prop where
  conserved : total' = total
  moved : ∀ u, balance' u =
    (balance u).map (· + ((if receiver = u then amount else 0) - if sender = u then amount else 0))

/-- Writing first the sender's and then the receiver's balance, both computed from the old ones, is
a transfer exactly when the users are distinct or the amount is zero. -/
theorem moves_iff {balance balance' : U → JLong} {total total' : Int64} {sender receiver : U}
    {amount v w : Int64} (hs : balance sender = some v) (hr : balance receiver = some w)
    (hwrite : ∀ u, balance' u =
      if receiver = u then some (w + amount) else if sender = u then some (v - amount) else balance u)
    (htotal : total' = total + if sender = receiver then amount else 0) :
    Moves balance balance' total total' sender receiver amount ↔
      sender ≠ receiver ∨ amount = 0 := by
  by_cases e : sender = receiver
  · -- One user: the second write wins, and the sum rises by the amount.
    subst e
    obtain rfl : v = w := Option.some.inj (hs.symm.trans hr)
    rw [if_pos rfl] at htotal
    constructor
    · intro h
      right
      have hc := h.conserved
      rw [htotal] at hc
      exact add_eq_left.mp hc
    · rintro (h | rfl)
      · exact absurd rfl h
      · refine ⟨by rw [htotal, add_zero], fun u => ?_⟩
        rw [hwrite]
        by_cases eu : sender = u
        · subst eu
          simp [hs]
        · simp [eu]
  · refine iff_of_true ⟨by rw [htotal, if_neg e, add_zero], fun u => ?_⟩ (.inl e)
    rw [hwrite]
    by_cases er : receiver = u
    · have es : sender ≠ u := fun h => e (h.trans er.symm)
      subst er
      simp [es, hr]
    · by_cases es : sender = u
      · subst es
        simp [er, hs, sub_eq_add_neg]
      · simp [er, es]

end Moves

/-! ## On a replica -/

/-- The transfer of balances on a replica, by setting those of both users. -/
theorem moves_setTwo_iff {s : BankRepository} {sender receiver : JString} {b c : BankEntity}
    {v w amount : Int64} (hb : s.findByUserName sender = some b) (hv : b.amount = some v)
    (hc : s.findByUserName receiver = some c) (hw : c.amount = some w) {s' : BankRepository}
    (hs' : s'.users = ((s.newUserBankEntity (b.updateAmount (v - amount))).updateUser receiver
      fun b => b.updateAmount (w + amount)).users) :
    Moves (balanceOf s) (balanceOf s') (totalBalance s) (totalBalance s') sender receiver amount ↔
      sender ≠ receiver ∨ amount = 0 := by
  apply moves_iff (v := v) (w := w)
  · simp [balanceOf, hb, hv]
  · simp [balanceOf, hc, hw]
  · intro u
    rw [balanceOf_of_users hs', balanceOf_setTwo hb hc]
  · rw [totalBalance_of_users hs', totalBalance_setTwo hb hc, hv, hw]
    -- When both are one account, the second write replaces the first one.
    by_cases e : sender = receiver
    · subst e
      obtain rfl : v = w := by
        cases hb.symm.trans hc
        exact Option.some.inj (hv.symm.trans hw)
      simp only [if_true, Option.getD_some]
      abel
    · simp only [if_neg e, Option.getD_some]
      abel

/-- The ordered request, when it reports success. -/
theorem ordered_moves_iff {jvm : Jvm} {st st' : BankService} {sender receiver : JString}
    {fromSaldo toSaldo amount : Int64} {reply : Except JavaException Reply}
    (h : st.appExecuteOrdered jvm (Proxy.transferMoney sender fromSaldo receiver toSaldo
      (fromSaldo - amount) (toSaldo + amount)) = (reply, st'))
    (hacc : accepted reply = true) :
    Moves (balanceOf st.bankRepo) (balanceOf st'.bankRepo) (totalBalance st.bankRepo)
        (totalBalance st'.bankRepo) sender receiver amount ↔
      sender ≠ receiver ∨ amount = 0 := by
  rcases ordered_transferMoney_cases h with ⟨-, hno⟩ | ⟨b, c, hb, hfrom, hc, hto, -, hs⟩
  · rw [hno] at hacc
    cases hacc
  · exact moves_setTwo_iff hb hfrom hc hto hs

/-- The contract operation, when the runner makes the call. -/
theorem contract_moves_iff (jvm : Jvm) (now : Int64) (i : Int32) (op : String) (st : BankService)
    {www : JString} {receiver text : String} {rest : List String} {amount : Int64}
    {call : LedgerOperation} (hop : split " " op = "TRANSFER_MONEY" :: receiver :: text :: rest)
    (hamount : parseLong text = some amount)
    (howner : (st.sR.clearOperations i).ownerOf i = some www)
    (hcall : (st.sR.clearOperations i).dispatch jvm st.bankRepo i www (split " " op) =
      .ok (some call)) :
    Moves (balanceOf st.bankRepo) (balanceOf (st.runOperation jvm now i op).bankRepo)
        (totalBalance st.bankRepo) (totalBalance (st.runOperation jvm now i op).bankRepo) www
        (some receiver) amount ↔
      www ≠ some receiver ∨ amount = 0 := by
  cases dispatched_of_dispatch hcall with
  | transferMoney v w amount' receiver' name hv ha enough hr hw =>
    obtain rfl : amount = amount' := by
      rw [hop] at ha
      simpa [longWord, word, hamount, bind, Except.bind, pure, Except.pure] using ha
    obtain rfl : receiver = receiver' := by
      rw [hop] at hr
      simpa [word] using hr
    obtain ⟨b, hb, hbv⟩ := user_of_balance hv
    obtain ⟨c, hc, hcw⟩ := user_of_balance hw
    apply moves_setTwo_iff hb hbv hc hcw
    simp only [BankService.runOperation, howner, hcall, BankService.callResult, LedgerOperation.run,
      BankServiceHelper.transferMoney, hb, hc, BankService.afterCall, add_comm amount w]
    rfl
  -- The first word is that of no other operation.
  | createMoney old _ name => simp [hop, word] at name
  | createAuction name => simp [hop, word] at name
  | createBid id _ name => simp [hop, word] at name
  | closeAution id name => simp [hop, word] at name

/-! ## In the cache -/

open Proxy.BankServiceReplicationJedisCluster (userKey userKey_inj entryAmount)

/-- The cached balance of a user. -/
def cachedBalance (r : Redis) (u : String) : JLong :=
  ((r.hgetAll (userKey u)).lookup "amount").bind parseLong

/-- The amount in the entry of a user, and 0 for other hashes. -/
def cachedWeight (e : String × JavaMap String String) : Int64 :=
  if "users#".toList.isPrefixOf e.1.toList then ((e.2.lookup "amount").bind parseLong).getD 0 else 0

/-- The sum of all cached balances, modulo `2^64`. -/
def totalCached (r : Redis) : Int64 := r.hashes.total cachedWeight

/-- The weight of the entry of a user is the cached amount, and nothing if that is no number. -/
theorem cachedWeight_userKey (u : String) (m : JavaMap String String) :
    cachedWeight (userKey u, m) = ((m.lookup "amount").bind parseLong).getD 0 := by
  have h : "users#".toList.isPrefixOf (userKey u).toList = true := by
    rw [userKey, String.toList_append, List.isPrefixOf_iff_prefix]
    exact List.prefix_append _ _
  rw [cachedWeight, if_pos h]

/-- A write of an amount in the cache. -/
theorem cachedBalance_hset (r : Redis) (u u' : String) (v : Int64) :
    cachedBalance (r.hset (userKey u) "amount" (Long.toText v)) u' =
      if u = u' then some v else cachedBalance r u' := by
  unfold cachedBalance
  rw [Redis.hgetAll_hset]
  by_cases e : u = u'
  · simp [e]
  · have hk : userKey u ≠ userKey u' := fun h => e (userKey_inj h)
    simp [e, hk]

/-- The total of the cache after an amount was written. -/
theorem totalCached_hset (r : Redis) (u : String) (v : Int64) :
    totalCached (r.hset (userKey u) "amount" (Long.toText v)) =
      totalCached r - (cachedBalance r u).getD 0 + v := by
  have hempty : ∀ k, cachedWeight (k, KeyedMap.empty) = 0 := by
    intro k
    simp only [cachedWeight, JavaMap.lookup_empty, Option.bind_none, Option.getD_none, ite_self]
  rw [totalCached, Redis.total_hset cachedWeight hempty, cachedWeight_userKey, cachedWeight_userKey]
  simp [cachedBalance, totalCached]

/-- The update of the cache, when it reports success. -/
theorem cache_moves_iff {r r' : Redis} {sender receiver : String} {amount : Int64}
    (h : Proxy.BankServiceReplicationJedisCluster.transferMoney sender receiver amount r =
      (.ok true, r')) :
    Moves (cachedBalance r) (cachedBalance r') (totalCached r) (totalCached r') sender receiver
        amount ↔
      sender ≠ receiver ∨ amount = 0 := by
  have hentry : ∀ {u : String} {v : Int64}, entryAmount r u = .ok v → cachedBalance r u = some v := by
    intro u v h
    unfold entryAmount at h
    split at h
    · cases h
    · rename_i w hw
      cases h
      exact hw
  obtain ⟨v, w, hv, hw, hr'⟩ :=
    Proxy.BankServiceReplicationJedisCluster.transferMoney_of_true (by rw [h])
  rw [h] at hr'
  dsimp only at hr'
  subst hr'
  apply moves_iff (hentry hv) (hentry hw)
  · intro u
    rw [cachedBalance_hset, cachedBalance_hset]
  · rw [totalCached_hset, totalCached_hset, cachedBalance_hset, hentry hv]
    -- When both are one account, the second write replaces the first one.
    by_cases e : sender = receiver
    · subst e
      obtain rfl : v = w := Except.ok.inj (hv.symm.trans hw)
      simp only [if_true, Option.getD_some]
      abel
    · simp only [if_neg e, Option.getD_some, hentry hw]
      abel

/-! ## The three paths -/

/-- **When transfers conserve money:** on each of the three paths, a transfer that is reported
successful leaves the sum of all balances unchanged and moves exactly the amount from the sender to
the receiver, exactly when they are two users or the amount is zero. -/
theorem transfers_conserve_iff (jvm : Jvm) (st : BankService) (cache : Redis) (receiver : String)
    (amount : Int64) :
    (∀ (st' : BankService) (cache' : Redis) (sender : String)
        (info : Proxy.BankServiceReplicationJedisCluster.TransferInfo)
        (reply : Except JavaException Reply),
      Proxy.BankServiceReplicationJedisCluster.getTransferInfo sender receiver amount cache =
        (.ok (some info), cache') →
      st.appExecuteOrdered jvm (Proxy.transferMoney (some sender) info.fromSaldo (some receiver)
        info.toSaldo info.fromAmount info.toAmount) = (reply, st') →
      accepted reply = true →
      (Moves (balanceOf st.bankRepo) (balanceOf st'.bankRepo) (totalBalance st.bankRepo)
          (totalBalance st'.bankRepo) (some sender) (some receiver) amount ↔
        sender ≠ receiver ∨ amount = 0)) ∧
    (∀ (now : Int64) (i : Int32) (op : String) (sender : JString) (text : String)
        (rest : List String) (call : LedgerOperation),
      split " " op = "TRANSFER_MONEY" :: receiver :: text :: rest → parseLong text = some amount →
      (st.sR.clearOperations i).ownerOf i = some sender →
      (st.sR.clearOperations i).dispatch jvm st.bankRepo i sender (split " " op) =
        .ok (some call) →
      (Moves (balanceOf st.bankRepo) (balanceOf (st.runOperation jvm now i op).bankRepo)
          (totalBalance st.bankRepo) (totalBalance (st.runOperation jvm now i op).bankRepo) sender
          (some receiver) amount ↔
        sender ≠ some receiver ∨ amount = 0)) ∧
    (∀ (cache' : Redis) (sender : String),
      Proxy.BankServiceReplicationJedisCluster.transferMoney sender receiver amount cache =
        (.ok true, cache') →
      (Moves (cachedBalance cache) (cachedBalance cache') (totalCached cache) (totalCached cache')
          sender receiver amount ↔
        sender ≠ receiver ∨ amount = 0)) := by
  -- The three places at which a transfer is carried out.
  refine ⟨?_, ?_, ?_⟩
  · intro st' cache' sender info reply hinfo h hacc
    obtain ⟨hfrom, hto⟩ :=
      Proxy.BankServiceReplicationJedisCluster.getTransferInfo_amounts hinfo
    rw [hfrom, hto] at h
    rw [ordered_moves_iff h hacc, ne_eq, Option.some.injEq]
  · intro now i op sender text rest call hop hamount howner hcall
    exact contract_moves_iff jvm now i op st hop hamount howner hcall
  · intro cache' sender h
    exact cache_moves_iff h

/-- A machine on which an uploaded contract queues a transfer of 5 to `bob`. -/
def transferJvm : Jvm := Jvm.plain (ContractClass.queueing ["TRANSFER_MONEY bob 5"])

/-- A replica with two users, and a contract of the first one or of the second one. -/
def twoUsers (uploader : String) : BankService :=
  let st := (BankService.new.appExecuteOrdered transferJvm
    (Proxy.registerUser (some "bob") (some "secret") (some 10) none)).2
  let st := (st.appExecuteOrdered transferJvm
    (Proxy.registerUser (some "alice") (some "secret") (some 20) none)).2
  (st.appExecuteOrdered transferJvm (Proxy.createSmartContract (some uploader) [])).2

/-- A cache with the same users. -/
def cachedUsers : Redis :=
  (Proxy.BankServiceReplicationJedisCluster.addNewUser "alice" "secret" (some 20)
    (Proxy.BankServiceReplicationJedisCluster.addNewUser "bob" "secret" (some 10) Redis.empty).2).2

/-- **A transfer to oneself makes money** on each path: `bob` sends 5 to `bob`, which is reported
successful, and the sum of all balances rises from 30 to 35. -/
theorem self_transfer_makes_money :
    (Proxy.BankServiceReplicationJedisCluster.getTransferInfo "bob" "bob" 5 cachedUsers).1 =
        .ok (some ⟨10, 10, 5, 15⟩) ∧
      accepted ((twoUsers "bob").appExecuteOrdered transferJvm
        (Proxy.transferMoney (some "bob") 10 (some "bob") 10 5 15)).1 = true ∧
      totalBalance (twoUsers "bob").bankRepo = 30 ∧
      totalBalance ((twoUsers "bob").appExecuteOrdered transferJvm
        (Proxy.transferMoney (some "bob") 10 (some "bob") 10 5 15)).2.bankRepo = 35 ∧
      ((twoUsers "bob").runOperation transferJvm 0 0 "TRANSFER_MONEY bob 5").sR.j =
        JSONObject.success ∧
      totalBalance ((twoUsers "bob").runOperation transferJvm 0 0
        "TRANSFER_MONEY bob 5").bankRepo = 35 ∧
      (Proxy.BankServiceReplicationJedisCluster.transferMoney "bob" "bob" 5 cachedUsers).1 =
        .ok true ∧
      totalCached cachedUsers = 30 ∧
      totalCached (Proxy.BankServiceReplicationJedisCluster.transferMoney "bob" "bob" 5
        cachedUsers).2 = 35 := by
  decide

/-- From `alice` to `bob`, each path moves exactly the amount. -/
theorem transfers_conserve_two_users :
    Moves (balanceOf (twoUsers "bob").bankRepo)
        (balanceOf ((twoUsers "bob").appExecuteOrdered transferJvm
          (Proxy.transferMoney (some "alice") 20 (some "bob") 10 15 15)).2.bankRepo)
        (totalBalance (twoUsers "bob").bankRepo)
        (totalBalance ((twoUsers "bob").appExecuteOrdered transferJvm
          (Proxy.transferMoney (some "alice") 20 (some "bob") 10 15 15)).2.bankRepo)
        (some "alice") (some "bob") 5 ∧
      Moves (balanceOf (twoUsers "alice").bankRepo)
        (balanceOf ((twoUsers "alice").runOperation transferJvm 0 0 "TRANSFER_MONEY bob 5").bankRepo)
        (totalBalance (twoUsers "alice").bankRepo)
        (totalBalance ((twoUsers "alice").runOperation transferJvm 0 0
          "TRANSFER_MONEY bob 5").bankRepo) (some "alice") (some "bob") 5 ∧
      Moves (cachedBalance cachedUsers)
        (cachedBalance (Proxy.BankServiceReplicationJedisCluster.transferMoney "alice" "bob" 5
          cachedUsers).2)
        (totalCached cachedUsers)
        (totalCached (Proxy.BankServiceReplicationJedisCluster.transferMoney "alice" "bob" 5
          cachedUsers).2) "alice" "bob" 5 := by
  obtain ⟨hordered, -, hcache⟩ :=
    transfers_conserve_iff transferJvm (twoUsers "bob") cachedUsers "bob" 5
  obtain ⟨-, hcontract, -⟩ :=
    transfers_conserve_iff transferJvm (twoUsers "alice") cachedUsers "bob" 5
  refine ⟨?_, ?_, ?_⟩
  · exact (hordered _
      (Proxy.BankServiceReplicationJedisCluster.getTransferInfo "alice" "bob" 5 cachedUsers).2 "alice"
      ⟨20, 10, 15, 15⟩ _ (by decide) rfl (by decide)).mpr (.inl (by decide))
  · exact (hcontract 0 0 "TRANSFER_MONEY bob 5" (some "alice") "5" []
      (.transferMoney (some "alice") 15 (some "bob") 15) (by decide) (by decide) (by decide)
      (by decide)).mpr (.inl (by decide))
  · exact (hcache _ "alice" (by decide)).mpr (.inl (by decide))

end NovaBank.Money
