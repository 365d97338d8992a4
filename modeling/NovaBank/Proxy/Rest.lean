import NovaBank.Proxy.Cache
import NovaBank.Proxy.Commands

/-!
# The requests of the REST controller

The handlers of `csd/src/main/java/fct/unl/pt/csd/Controller/RestAPIController.java` that make the
replicas change something. `PUT /amount` and `PUT /money` build their requests from the balances in
the cache, which may be stale, and send the old balances and the new ones. `Rest` is such a request
with the subject of the token that it came with. The users whose money is moved are parameters of
the request, and only the handlers of contracts and of `DELETE /closeauction` look at the token.
-/

namespace NovaBank.Proxy

open Java Replica

namespace RestAPIController

/-- The request that `transferMoney(from, to, dao)` sends, if it gets so far. -/
def transferMoney (sender receiver : String) (amount : Int64) (r : Redis) : Option Command :=
  match (BankServiceReplicationJedisCluster.getTransferInfo sender receiver amount r).1 with
  | .ok (some info) => some (Proxy.transferMoney (some sender) info.fromSaldo (some receiver)
      info.toSaldo info.fromAmount info.toAmount)
  -- An exception, or one of the users was not found.
  | _ => none

/-- The request that `createMoney(who, amount)` sends, if it gets so far. -/
def createMoney (who : String) (amount : Int64) (r : Redis) : Option Command :=
  match BankServiceReplicationJedisCluster.getMoney who r with
  | .ok (some money) => some (Proxy.createMoney (some who) money (money + amount))
  -- An exception, or `null + amount` is one.
  | _ => none

end RestAPIController

/-- A request to the controller, with the subject of its token and the balances that it found in the
cache. -/
inductive Rest where
  /-- `POST /register`, which everyone may send. -/
  | createNew (userName password : JString) (amount : JLong) (roles : Option (List JString))
  /-- `PUT /amount?from&to`. -/
  | transferMoney (subject sender receiver : JString) (fromSaldo toSaldo amount : Int64)
  /-- `PUT /money?who`. -/
  | createMoney (subject who : JString) (money amount : Int64)
  /-- `POST /smartcontract`, and `POST /createbid`. -/
  | smartContract (subject : JString) (data : List UInt8)
  /-- `DELETE /closeauction?id`. -/
  | closeAuction (subject : JString) (id : JLong)

namespace Rest

/-- The ordered request that the replicas get. -/
def command : Rest → Command
  | createNew userName password amount roles => registerUser userName password amount roles
  | transferMoney _ sender receiver fromSaldo toSaldo amount =>
    Proxy.transferMoney sender fromSaldo receiver toSaldo (fromSaldo - amount) (toSaldo + amount)
  | createMoney _ who money amount => Proxy.createMoney who money (money + amount)
  | smartContract subject data => createSmartContract subject data
  | closeAuction subject id => Proxy.closeAuction subject id

/-- The user who is authenticated, if anyone is. -/
def subject : Rest → Option JString
  | createNew .. => none
  | transferMoney subject .. | createMoney subject .. | smartContract subject _ |
    closeAuction subject _ => some subject

end Rest

namespace RestAPIController

open BankServiceReplicationJedisCluster

/-- What `PUT /amount` sends is such a request, with the amounts of the cache. -/
theorem transferMoney_eq_some {sender receiver : String} {amount : Int64} {r : Redis}
    {command : Command} (h : transferMoney sender receiver amount r = some command)
    (subject : JString) :
    ∃ fromSaldo toSaldo, entryAmount r sender = .ok fromSaldo ∧ entryAmount r receiver = .ok toSaldo ∧
      command = (Rest.transferMoney subject (some sender) (some receiver) fromSaldo toSaldo
        amount).command := by
  unfold transferMoney at h
  split at h
  · rename_i info hinfo
    obtain ⟨v, w, hv, hw, rfl⟩ := getTransferInfo_eq_some (Prod.ext hinfo rfl)
    exact ⟨v, w, hv, hw, (Option.some.inj h).symm⟩
  · cases h

/-- What `PUT /money` sends is such a request, with the amount of the cache. -/
theorem createMoney_eq_some {who : String} {amount : Int64} {r : Redis} {command : Command}
    (h : createMoney who amount r = some command) (subject : JString) :
    ∃ money, entryAmount r who = .ok money ∧
      command = (Rest.createMoney subject (some who) money amount).command := by
  unfold createMoney at h
  -- Without an amount in the cache, the request ends before it is sent.
  split at h
  · rename_i money hmoney
    unfold getMoney at hmoney
    split_ifs at hmoney
    · cases hentry : entryAmount r who with
      | error e => simp [hentry, Except.map] at hmoney
      | ok v =>
        obtain rfl : v = money := by simpa [hentry, Except.map] using hmoney
        exact ⟨v, rfl, (Option.some.inj h).symm⟩
    · cases hmoney
  · cases h

end RestAPIController

end NovaBank.Proxy
