import NovaBank.Common.Retry
import NovaBank.Proxy.Commands
import NovaBank.Proxy.Refresh
import NovaBank.Replica.Service

/-!
# The calls of the REST controller

`createNew`, `createMoney`, `transferMoney`, `getAmountOfUser` and `getAll` of
`csd/src/main/java/fct/unl/pt/csd/Controller/RestAPIController.java`, as attempts on a proxy's cache
and the replicated service: an attempt finishes with a status or an exception, or the method calls
itself again.

The proxy gets the objects that the replicas have written. It gets `null` from the library when they
answer `null`, and also when they do not answer because the request threw an exception. What the
`invoke` methods make of the bytes of such a reply is the subject of other modules; here they are
functions of the objects.
-/

namespace NovaBank.Proxy

open Java Replica

/-- What `invokeOrdered` and `invokeUnordered` of the library return. -/
def received (reply : Except JavaException Reply) : Reply :=
  match reply with
  | .ok reply => reply
  | .error _ => none

/-! ## What the handler returns -/

namespace ClientRequestHandler

/-- `new JSONObject(input.readObject().toString())`. -/
def readJson : List ReplyObject → Except JavaException JSONObject
  | .json (.object j) :: _ => .ok j
  | _ => .error .other

/-- `invokeCreateNew(username, password, amount, roles)`. -/
def invokeCreateNew : Reply → Except JavaException String
  | none => .ok ""
  | some (.name (some s) :: _) => .ok s
  | some (.name none :: _) => .error .nullPointer
  | some _ => .error .other

/-- `invokeCreateMoney(who, initialAmount, finalAmount)`, `none` for `null`. -/
def invokeCreateMoney : Reply → Except JavaException (Option JSONObject)
  | none => .ok none
  | some os => (readJson os).map some

/-- `invokeTransferMoney(from, fromSaldo, to, toSaldo, fromAmount, toAmount)`, which asks for the length
of the reply without a test for `null`. -/
def invokeTransferMoney : Reply → Except JavaException JSONObject
  | none => .error .nullPointer
  | some os => readJson os

/-- `invokeCheckCurrentAmount(username)`, `none` for `null`. -/
def invokeCheckCurrentAmount : Reply → Except JavaException JLong
  | none => .ok none
  | some (.long v :: _) => .ok (some v)
  | some _ => .error .classCast

/-- `invokeListAllBankAccounts(myHash)`, `none` for `null`: the field `arr` of the object that it
returns, which is there when the hashes differ. -/
def invokeListAllBankAccounts (myHash : Int32) :
    Reply → Except JavaException (Option (Option (List JSONObject)))
  | none => .ok none
  | some (.int hash :: os) =>
    if hash ≠ myHash then
      match os with
      | .json (.array arr) :: _ => .ok (some (some arr))
      | _ => .error .other
    else .ok (some none)
  | some _ => .error .classCast

end ClientRequestHandler

/-! ## The hash of the cached accounts -/

namespace BankServiceReplicationJedisCluster

/-- The account under a key, as `getJSONArrayAndHash()` lists it. -/
def cachedAccount (r : Redis) (s : String) : Except JavaException JSONObject :=
  let userEntry := r.hgetAll s
  match (userEntry.lookup "amount").bind parseLong with
  | none => .error .numberFormat
  | some amount =>
    .ok ((JSONObject.empty.put "username" ((userEntry.lookup "username").map .text)).put "amount"
      (some (.number amount)))

/-- The accounts of `getJSONArrayAndHash()` in the order of the given keys. -/
def cachedAccounts (keys : List String) (r : Redis) : Except JavaException (List JSONObject) :=
  keys.mapM (cachedAccount r)

/-- The hash of `getJSONArrayAndHash()`. -/
def hashOf (jvm : Jvm) (accounts : List JSONObject) : Int32 :=
  accounts.foldl (fun hash j => hash ^^^ hashCode (jvm.text (.object j))) 0

/-- The hash does not depend on the order of the accounts. -/
theorem hashOf_perm (jvm : Jvm) {l l' : List JSONObject} (h : l.Perm l') :
    hashOf jvm l = hashOf jvm l' := by
  have hcomm : RightCommutative fun (hash : Int32) (j : JSONObject) =>
      hash ^^^ hashCode (jvm.text (.object j)) := by
    refine ⟨fun a b c => ?_⟩
    rw [Int32.xor_assoc, Int32.xor_assoc, Int32.xor_comm (hashCode _)]
  exact h.foldl_eq 0

/-- The replicas compute the hash of the same kind of accounts. -/
theorem accountsHash_eq (jvm : Jvm) (bs : List BankEntity) :
    BankService.accountsHash jvm bs = hashOf jvm (bs.map BankEntity.getJSONSecure) := by
  rw [hashOf, List.foldl_map]
  rfl

end BankServiceReplicationJedisCluster

/-! ## Attempts -/

/-- One proxy's cache, and the replicated service. -/
structure Deployment where
  cache : Redis
  service : BankService

/-- What the calls use from outside the sources. The proxy and the replicas print JSON by the same
library. -/
structure Environment where
  jvm : Jvm
  /-- The result of `SCAN`. -/
  scan : Redis → List String
  /-- The result of `KEYS users#*`, as an array. -/
  keys : Redis → List String
  keys_nodup : ∀ r, (keys r).Nodup
  mem_keys : ∀ r s, s ∈ keys r ↔
    BankServiceReplicationJedisCluster.isUserKey s = true ∧ (s ∈ r.hashes.keys ∨ s ∈ r.sets.keys)

/-- The status of a response. -/
inductive Status where
  | ok
  | conflict
  | notFound
  deriving DecidableEq

/-- What an attempt ends with, `none` when the method calls itself again. -/
abbrev Attempted := Option (Except JavaException Status)

/-- A call of the controller. -/
inductive RestCall where
  /-- `POST /register`, with what `BCryptPasswordEncoder` makes of the password. -/
  | createNew (userName password : JString) (encoded : String) (amount : JLong)
      (roles : Option (List JString))
  /-- `PUT /money?who`. -/
  | createMoney (who : String) (amount : JLong)
  /-- `PUT /amount?from&to`. -/
  | transferMoney (sender receiver : String) (amount : JLong)
  /-- `GET /amount?who`. -/
  | getAmountOfUser (who : String)
  /-- `GET /all`. -/
  | getAll

namespace RestAPIController

variable (env : Environment)

open ClientRequestHandler

open BankServiceReplicationJedisCluster (addNewUser getMoney setAmount getTransferInfo
  cachedAccounts hashOf replaceUsers)

/-- `createNew(dao)`. -/
def createNew (userName password : JString) (encoded : String) (amount : JLong)
    (roles : Option (List JString)) (d : Deployment) : Except JavaException Status × Deployment :=
  match password with
  -- `encode(null)` throws.
  | none => (.error .other, d)
  | some password =>
    let (reply, service) := d.service.appExecuteOrdered env.jvm
      (registerUser userName (some encoded) amount roles)
    let d := { d with service := service }
    match invokeCreateNew (received reply) with
    | .error e => (.error e, d)
    | .ok name =>
      if name = "" then (.ok .conflict, d)
      else
        match userName with
        -- Redis takes no `null`.
        | none => (.error .other, d)
        | some userName =>
          (.ok .ok, { d with cache := (addNewUser userName password amount d.cache).2 })

/-- `createMoney(who, amount)`. -/
def attemptCreateMoney (who : String) (amount : Int64) (d : Deployment) : Attempted × Deployment :=
  match getMoney who d.cache with
  | .error e => (some (.error e), d)
  -- `null + amount`.
  | .ok none => (some (.error .nullPointer), d)
  | .ok (some money) =>
    let (reply, service) := d.service.appExecuteOrdered env.jvm
      (Proxy.createMoney (some who) money (money + amount))
    let d := { d with service := service }
    match invokeCreateMoney (received reply) with
    | .error e => (some (.error e), d)
    | .ok js =>
      let (created, cache) :=
        BankServiceReplicationJedisCluster.createMoney who (money + amount) d.cache
      let d := { d with cache := cache }
      match created, js with
      | .error e, _ => (some (.error e), d)
      -- `js.toString()`.
      | .ok _, none => (some (.error .nullPointer), d)
      | .ok _, some js =>
        match js.getLong "amount" with
        | .error e => (some (.error e), d)
        | .ok v =>
          let d := { d with cache := setAmount who v d.cache }
          (if js.has "error" then none else some (.ok .ok), d)

/-- `transferMoney(from, to, dao)`. The names of the two users whose amounts are repaired after an error
are the words `from` and `to`. -/
def attemptTransferMoney (sender receiver : String) (amount : Int64) (d : Deployment) :
    Attempted × Deployment :=
  match getTransferInfo sender receiver amount d.cache with
  | (.error e, cache) => (some (.error e), { d with cache := cache })
  | (.ok none, cache) => (some (.ok .notFound), { d with cache := cache })
  | (.ok (some info), cache) =>
    let (reply, service) := d.service.appExecuteOrdered env.jvm
      (Proxy.transferMoney (some sender) info.fromSaldo (some receiver) info.toSaldo info.fromAmount
        info.toAmount)
    match invokeTransferMoney (received reply) with
    | .error e => (some (.error e), ⟨cache, service⟩)
    | .ok js =>
      if js.has "error" then
        match js.getLong "fromSaldo" with
        | .error e => (some (.error e), ⟨cache, service⟩)
        | .ok fromSaldo =>
          let cache := setAmount "from" fromSaldo cache
          match js.getLong "toSaldo" with
          | .error e => (some (.error e), ⟨cache, service⟩)
          | .ok toSaldo => (none, ⟨setAmount "to" toSaldo cache, service⟩)
      else (some (.ok .ok), ⟨cache, service⟩)

/-- `getAmountOfUser(who)`. -/
def getAmountOfUser (who : String) (d : Deployment) : Except JavaException Status × Deployment :=
  let (reply, service) := d.service.access env.jvm
    (.unordered (queryCommand (.checkCurrentAmount (some who))))
  let d := { d with service := service }
  match invokeCheckCurrentAmount (received reply) with
  | .error e => (.error e, d)
  -- `long b = null`.
  | .ok none => (.error .nullPointer, d)
  | .ok (some b) =>
    if b = -1 then (.ok .notFound, d)
    else
      match getMoney who d.cache with
      | .error e => (.error e, d)
      -- `b == null`, where the right side is unboxed.
      | .ok none => (.error .nullPointer, d)
      | .ok (some money) =>
        (.ok .ok, if b = money then d else { d with cache := setAmount who b d.cache })

/-- `getAll()`. -/
def getAll (d : Deployment) : Except JavaException Status × Deployment :=
  match cachedAccounts (env.keys d.cache) d.cache with
  | .error e => (.error e, d)
  | .ok accounts =>
    let (reply, service) := d.service.access env.jvm (.unordered (queryCommand .listAllBankAccounts))
    let d := { d with service := service }
    match invokeListAllBankAccounts (hashOf env.jvm accounts) (received reply) with
    | .error e => (.error e, d)
    -- `it.has("arr")`.
    | .ok none => (.error .nullPointer, d)
    | .ok (some none) => (.ok .ok, d)
    | .ok (some (some arr)) =>
      let (replaced, cache) := replaceUsers arr (env.scan d.cache) d.cache
      (replaced.map fun _ => .ok, { d with cache := cache })

/-- The accounts in the body of the response of `getAll()`: those of the replicas, or those of the cache
when the hashes are equal. -/
def allAccounts (d : Deployment) : Except JavaException (List JSONObject) := do
  let accounts ← cachedAccounts (env.keys d.cache) d.cache
  let reply := (d.service.access env.jvm (.unordered (queryCommand .listAllBankAccounts))).1
  match ← invokeListAllBankAccounts (hashOf env.jvm accounts) (received reply) with
  | none => throw .nullPointer
  | some none => return accounts
  | some (some arr) =>
    (replaceUsers arr (env.scan d.cache) d.cache).1
    return arr

/-- `getAll()` returns a status exactly when there is a body. -/
theorem getAll_status (d : Deployment) : (getAll env d).1 = (allAccounts env d).map fun _ => .ok := by
  unfold getAll allAccounts
  cases cachedAccounts (env.keys d.cache) d.cache with
  | error e => rfl
  | ok accounts =>
    simp only [bind, Except.bind]
    cases invokeListAllBankAccounts (hashOf env.jvm accounts)
        (received (d.service.access env.jvm (.unordered (queryCommand .listAllBankAccounts))).1) with
    | error e => rfl
    | ok it =>
      -- `null` and an unknown text are handled before the list.
      rcases it with _ | _ | arr
      · rfl
      · rfl
      · dsimp only
        cases (replaceUsers arr (env.scan d.cache) d.cache).1 <;> rfl

end RestAPIController

namespace RestCall

open RestAPIController

/-- A method that does not call itself. -/
def once (f : Deployment → Except JavaException Status × Deployment) (d : Deployment) :
    Attempted × Deployment :=
  (some (f d).1, (f d).2)

/-- One attempt of a call. An amount that is `null` is unboxed before anything is done with it. -/
def attempt (env : Environment) : RestCall → Deployment → Attempted × Deployment
  | createNew userName password encoded amount roles =>
    once (RestAPIController.createNew env userName password encoded amount roles)
  | createMoney who (some amount) => attemptCreateMoney env who amount
  | createMoney who none => once fun d =>
    -- The cached amount is read first.
    match BankServiceReplicationJedisCluster.getMoney who d.cache with
    | .error e => (.error e, d)
    | .ok _ => (.error .nullPointer, d)
  | transferMoney sender receiver (some amount) => attemptTransferMoney env sender receiver amount
  | transferMoney _ _ none => once fun d => (.error .nullPointer, d)
  | getAmountOfUser who => once (RestAPIController.getAmountOfUser env who)
  | getAll => once (RestAPIController.getAll env)

/-- The call returns a status, after as many attempts as it takes. -/
def Returns (env : Environment) (call : RestCall) (d : Deployment) (status : Status)
    (d' : Deployment) : Prop :=
  Retry.Returns (call.attempt env) d (.ok status) d'

end RestCall

end NovaBank.Proxy
