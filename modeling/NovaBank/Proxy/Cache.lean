import NovaBank.Java.Redis
import NovaBank.Replica.Entities

/-!
# The cache of the proxy

The users of `BankServiceReplicationJedisCluster` in
`csd/src/main/java/fct/unl/pt/csd/Repositories/Redis`: the entry of a user is the Redis hash
`users#<name>`, with the amount as decimal text, and the set `users-registered` holds the names.
-/

namespace NovaBank.Proxy

open Java Replica

namespace BankServiceReplicationJedisCluster

/-- The key of the entry of a user. -/
def userKey (username : String) : String := "users#" ++ username

/-- Different users have different keys. -/
theorem userKey_inj {u u' : String} (h : userKey u = userKey u') : u = u' := by
  have := congrArg String.toList h
  simp only [userKey, String.toList_append, List.append_cancel_left_eq] at this
  exact String.toList_inj.mp this

/-- Whether a user has an entry and is among the registered ones. -/
def isRegistered (r : Redis) (username : String) : Bool :=
  !(r.hgetAll (userKey username)).values.isEmpty && r.sismember "users-registered" username

/-- `addNewUser(username, password, amount)`. -/
def addNewUser (username password : String) (amount : JLong) (r : Redis) : Bool × Redis :=
  if (r.hgetAll (userKey username)).values.isEmpty && !r.sismember "users-registered" username then
    let r := r.hset (userKey username) "username" username
    let r := r.hset (userKey username) "password" password
    let r := r.hset (userKey username) "amount" (JLong.toText amount)
    (true, r.sadd "users-registered" username)
  else (false, r)

/-- `Long.parseLong(entry.get("amount"))`. -/
def entryAmount (r : Redis) (username : String) : Except JavaException Int64 :=
  match ((r.hgetAll (userKey username)).lookup "amount").bind parseLong with
  | none => .error .numberFormat
  | some amount => .ok amount

/-- `getMoney(username)`, which is `null` for a user who is not registered. -/
def getMoney (username : String) (r : Redis) : Except JavaException (Option Int64) :=
  if isRegistered r username then (entryAmount r username).map some else .ok none

/-- `setAmount(username, amount)`. -/
def setAmount (username : String) (amount : Int64) (r : Redis) : Redis :=
  if isRegistered r username then r.hset (userKey username) "amount" (Long.toText amount) else r

/-- `createMoney(username, amount)`. -/
def createMoney (username : String) (amount : Int64) (r : Redis) :
    Except JavaException Bool × Redis :=
  if isRegistered r username then
    match entryAmount r username with
    | .error e => (.error e, r)
    | .ok oldAmount =>
      let newAmount := amount + oldAmount
      (.ok true, r.hset (userKey username) "amount" (Long.toText newAmount))
  else (.ok false, r)

/-- `transferMoney(fromUsername, toUsername, amount)`. Both entries are read before either is
written. -/
def transferMoney (fromUsername toUsername : String) (amount : Int64) (r : Redis) :
    Except JavaException Bool × Redis :=
  if isRegistered r fromUsername then
    if isRegistered r toUsername then
      match entryAmount r fromUsername with
      | .error e => (.error e, r)
      | .ok oldAmountFromUser =>
        let newAmountFromUser := oldAmountFromUser - amount
        if 0 ≤ newAmountFromUser then
          match entryAmount r toUsername with
          | .error e => (.error e, r)
          | .ok oldAmountToUser =>
            let newAmountToUser := oldAmountToUser + amount
            let r := r.hset (userKey fromUsername) "amount" (Long.toText newAmountFromUser)
            let r := r.hset (userKey toUsername) "amount" (Long.toText newAmountToUser)
            (.ok true, r)
        else (.ok false, r)
    else (.ok false, r)
  else (.ok false, r)

/-- A transfer that returns `true` has read both amounts and written both new ones. -/
theorem transferMoney_of_true {fromUsername toUsername : String} {amount : Int64} {r : Redis}
    (h : (transferMoney fromUsername toUsername amount r).1 = .ok true) :
    ∃ v w, entryAmount r fromUsername = .ok v ∧ entryAmount r toUsername = .ok w ∧
      (transferMoney fromUsername toUsername amount r).2 =
        (r.hset (userKey fromUsername) "amount" (Long.toText (v - amount))).hset
          (userKey toUsername) "amount" (Long.toText (w + amount)) := by
  unfold transferMoney at h ⊢
  -- Every branch that does not move the money returns `false` or throws.
  split_ifs at h ⊢
  · split at h
    · cases h
    · rename_i v hv
      dsimp only at h ⊢
      split_ifs at h ⊢
      · split at h
        · cases h
        · rename_i w hw
          exact ⟨v, w, hv, hw, rfl⟩
      · cases h
  · cases h
  · cases h

/-- The four results of `getTransferInfo`. -/
structure TransferInfo where
  fromSaldo : Int64
  toSaldo : Int64
  fromAmount : Int64
  toAmount : Int64
  deriving DecidableEq

/-- `getTransferInfo(from, to, amount)`, which makes the transfer in the cache, too. -/
def getTransferInfo (fromUsername toUsername : String) (amount : Int64) (r : Redis) :
    Except JavaException (Option TransferInfo) × Redis :=
  if isRegistered r fromUsername && isRegistered r toUsername then
    match entryAmount r fromUsername, entryAmount r toUsername with
    | .error e, _ => (.error e, r)
    | .ok _, .error e => (.error e, r)
    | .ok fromSaldo, .ok toSaldo =>
      let (transferred, r) := transferMoney fromUsername toUsername amount r
      (transferred.map fun _ => some ⟨fromSaldo, toSaldo, fromSaldo - amount, toSaldo + amount⟩, r)
  else (.ok none, r)

/-- The results of `getTransferInfo` are the amounts of the two entries, and what they become. -/
theorem getTransferInfo_eq_some {fromUsername toUsername : String} {amount : Int64} {r r' : Redis}
    {info : TransferInfo}
    (h : getTransferInfo fromUsername toUsername amount r = (.ok (some info), r')) :
    ∃ v w, entryAmount r fromUsername = .ok v ∧ entryAmount r toUsername = .ok w ∧
      info = ⟨v, w, v - amount, w + amount⟩ := by
  unfold getTransferInfo at h
  split_ifs at h
  · split at h
    · cases h
    · cases h
    · rename_i v w hv hw
      -- The result of the transfer in the cache is not looked at, unless it throws.
      cases ht : (transferMoney fromUsername toUsername amount r).1 with
      | error e => simp [ht, Except.map] at h
      | ok b =>
        simp only [ht, Except.map, Prod.mk.injEq, Except.ok.injEq, Option.some.injEq] at h
        exact ⟨v, w, hv, hw, h.1.symm⟩
  · cases h

/-- The new balances of `getTransferInfo` differ from the old ones by the amount. -/
theorem getTransferInfo_amounts {fromUsername toUsername : String} {amount : Int64} {r r' : Redis}
    {info : TransferInfo}
    (h : getTransferInfo fromUsername toUsername amount r = (.ok (some info), r')) :
    info.fromAmount = info.fromSaldo - amount ∧ info.toAmount = info.toSaldo + amount := by
  obtain ⟨v, w, -, -, rfl⟩ := getTransferInfo_eq_some h
  exact ⟨rfl, rfl⟩

/-- From a user to the same user, both old balances are that of the one entry. -/
theorem getTransferInfo_self {username : String} {amount : Int64} {r r' : Redis} {info : TransferInfo}
    (h : getTransferInfo username username amount r = (.ok (some info), r')) :
    info.toSaldo = info.fromSaldo := by
  obtain ⟨v, w, hv, hw, rfl⟩ := getTransferInfo_eq_some h
  exact Except.ok.inj (hw.symm.trans hv)

end BankServiceReplicationJedisCluster

end NovaBank.Proxy
