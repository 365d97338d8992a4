import NovaBank.Replica.Helper

/-!
# Smart contracts and their runner

`ClassLoader`, the byte code verifier, `SmartContractRunner` of
`CSDBftServer/src/main/java/bftProxyServer` and the base class `AuctionSmartContract` of the project
`SmartContracts`.

The base class keeps the owner and the list of operations in static fields, so all contracts that
inherit them share one owner and one list (`Statics`). A contract's `run` method queues its
operations when the contract is submitted. The thread of the runner passes over the contracts
(`pass`), and an exception ends it for good (`alive`).
-/

namespace NovaBank.Replica

open Java

/-! ## The verifier -/

namespace AuctionCreatorSmartContractByteCodeVerifier

/-- `verifyInterfaces()`, with the message of the exception that it throws. -/
def verifyInterfaces (jvm : Jvm) (cl : ContractClass) : Except String Unit :=
  match cl.interfaces with
  | [first, second] =>
    if !Java.equalsIgnoreCase jvm.foldCase first "src.SmartContract" ||
        !Java.equalsIgnoreCase jvm.foldCase second "java.io.Serializable" then
      .error "Invalid Interface from this Smart Contract's Class File!!!!"
    else .ok ()
  | _ => .error "Number Invalid of Interfaces from this Smart Contract's Class file!!!!"

/-- `verifyConstructors()`. The comparisons of the parameter types are computed and not used. -/
def verifyConstructors (cl : ContractClass) : Except String Unit :=
  match cl.constructors with
  | [parameters] =>
    if parameters.length = 2 then .ok ()
    else .error ("Invalid Number of Parameters in the Constructor from this Smart Contract's " ++
      "Class file!!!!")
  | _ => .error "Invalid Number of Constructors from this Smart Contract's Class file!!!!"

/-- The check of one field: it must be public, and the class of the reflective `Field` object itself
is compared with the type that is wanted. -/
def verifyField (jvm : Jvm) (cl : ContractClass) (name type : String) : Except String Unit :=
  if name ∉ cl.fields then .error name
  else if Java.equalsIgnoreCase jvm.foldCase "java.lang.reflect.Field" type then .ok ()
  else .error ("Invalid of Structure of Fields in the Constructor from this Smart Contract's " ++
    "Class file!!!!")

/-- `verifyFields()`. -/
def verifyFields (jvm : Jvm) (cl : ContractClass) : Except String Unit := do
  verifyField jvm cl "DURABILITY" "java.lang.Long"
  verifyField jvm cl "auctionId" "java.lang.Long"
  verifyField jvm cl "username" "java.lang.String"

end AuctionCreatorSmartContractByteCodeVerifier

open AuctionCreatorSmartContractByteCodeVerifier in
/-- `BankServiceHelper.validateCode(cl)`. The handler of the verifier's exceptions builds an object
with the error and drops it. -/
def BankServiceHelper.validateCode (jvm : Jvm) (cl : ContractClass) : JSONObject :=
  match (do verifyConstructors cl; verifyFields jvm cl; verifyInterfaces jvm cl) with
  | .error _ => JSONObject.empty.put "SUCCESS" (some (.bool true))
  | .ok () => JSONObject.empty.put "SUCCESS" (some (.bool true))

/-! ## The state of the runner -/

/-- The static fields of `AuctionSmartContract`. -/
structure Statics where
  operations : List String
  who : JString
  deriving DecidableEq

/-- A contract that has been submitted. -/
structure SmartContract where
  /-- The owner, `none` when it is the static field. -/
  owner : Option JString
  /-- The operations, `none` when they are the static list. -/
  operations : Option (List String)
  deriving DecidableEq

/-- `SmartContractRunner`, with the static fields that its contracts share. -/
structure SmartContractRunner where
  contracts : JavaMap Int32 SmartContract
  i : Int32
  statics : Statics
  /-- The local variable `j` of the thread. -/
  j : JSONObject
  /-- Whether the thread still runs. -/
  alive : Bool
  deriving DecidableEq

namespace SmartContractRunner

/-- `new SmartContractRunner(bS)`, and its thread started. -/
def new : SmartContractRunner := ⟨KeyedMap.empty, 0, ⟨[], none⟩, JSONObject.empty, true⟩

/-- `getOwner()` of a contract. -/
def getOwner (sR : SmartContractRunner) (c : SmartContract) : JString :=
  c.owner.getD sR.statics.who

/-- `getOperations()` of a contract. -/
def getOperations (sR : SmartContractRunner) (c : SmartContract) : List String :=
  c.operations.getD sR.statics.operations

/-- `clearOperations()` of the contract with the key `i`. -/
def clearOperations (sR : SmartContractRunner) (i : Int32) : SmartContractRunner :=
  match sR.contracts.lookup i with
  | none => sR
  | some c =>
    match c.operations with
    | none => { sR with statics := { sR.statics with operations := [] } }
    | some _ => { sR with contracts := sR.contracts.insert i { c with operations := some [] } }

/-- The contract with the key `i`, and the owner that it answers. -/
def ownerOf (sR : SmartContractRunner) (i : Int32) : Option JString :=
  (sR.contracts.lookup i).map sR.getOwner

/-- Whether no contract has an operation in its list. -/
def Drained (sR : SmartContractRunner) : Prop :=
  ∀ i c, sR.contracts.lookup i = some c → sR.getOperations c = []

/-- No contract has an operation exactly when the list of each one is empty. -/
theorem drained_iff (sR : SmartContractRunner) :
    sR.Drained ↔ ∀ e ∈ sR.contracts.values, sR.getOperations e.2 = [] :=
  ⟨fun h e he => h e.1 e.2 (JavaMap.mem_values_iff.mp he),
    fun h i c hc => h (i, c) (JavaMap.mem_values_iff.mpr hc)⟩

/-- This can be evaluated. -/
instance (sR : SmartContractRunner) : Decidable sR.Drained := decidable_of_iff' _ sR.drained_iff

/-- `createObjectFromFile(who, code)` of the class loader with the cast of its result: the class of
the new object. The constructor of the base class has set the static owner when it returns. -/
def createObjectFromFile (jvm : Jvm) (who : JString) (code : List UInt8) (sR : SmartContractRunner) :
    Except JavaException ContractClass × SmartContractRunner :=
  match jvm.defineClass code with
  | .error e => (.error e, sR)
  | .ok cl =>
    if !cl.hasStringConstructor then (.error .reflective, sR)
    else
      -- The base constructor runs first: the owner changes even if the class then throws.
      let owner := cl.otherOwner.getD who
      let sR := if cl.extendsAuction then { sR with statics := { sR.statics with who := owner } }
        else sR
      if cl.constructorThrows then (.error .reflective, sR)
      else if !cl.isSmartContract then (.error .classCast, sR)
      else (.ok cl, sR)

/-- `runContract(s, who)`. The owner is compared with `who` by reference, which only the very string
that the constructor was given passes. The submitted contract queues its operations. -/
def runContract (cl : ContractClass) (who : JString) (sR : SmartContractRunner) :
    SmartContractRunner :=
  if cl.otherOwner.isSome then sR
  else
    let c : SmartContract :=
      ⟨if cl.extendsAuction then none else some who,
        if cl.ownOperations then some cl.operations else none⟩
    { sR with
      contracts := sR.contracts.insert sR.i c
      i := sR.i + 1
      statics := if cl.ownOperations then sR.statics
        else { sR.statics with operations := sR.statics.operations ++ cl.operations } }

end SmartContractRunner

/-! ## One operation -/

/-- `ss[n]`. -/
def word (ss : List String) (n : ℕ) : Except JavaException String :=
  match ss[n]? with
  | none => .error .indexOutOfBounds
  | some w => .ok w

/-- `Long.parseLong(ss[n])`. -/
def longWord (ss : List String) (n : ℕ) : Except JavaException Int64 := do
  match parseLong (← word ss n) with
  | none => throw .numberFormat
  | some v => return v

/-- `Integer.parseInt(ss[n])`. -/
def intWord (ss : List String) (n : ℕ) : Except JavaException Int32 := do
  match parseInt (← word ss n) with
  | none => throw .numberFormat
  | some v => return v

/-- `findByUserName(userName).get()`. -/
def BankRepository.user (s : BankRepository) (userName : JString) :
    Except JavaException BankEntity :=
  match s.findByUserName userName with
  | none => .error .noSuchElement
  | some b => .ok b

/-- `findByUserName(userName).get().getAmount()` as a number. -/
def BankRepository.balance (s : BankRepository) (userName : JString) :
    Except JavaException Int64 := do
  match (← s.user userName).amount with
  | none => throw .nullPointer
  | some v => return v

/-- `www.equalsIgnoreCase(name)`. -/
def sameName (jvm : Jvm) (www name : JString) : Except JavaException Bool :=
  match www with
  | none => .error .nullPointer
  | some www => .ok (jvm.equalsIgnoreCase www name)

/-- What an operation asks of the ledger. -/
inductive LedgerOperation where
  | createMoney (who : JString) (amount : Int64)
  | transferMoney (sender : JString) (fromAmount : Int64) (receiver : JString) (toAmount : Int64)
  | createAuction (id : JLong) (who : JString)
  | createBid (bidId auctionId amount : Int64) (who : JString)
  | closeAution (id : JLong) (who : JString)
  deriving DecidableEq

namespace SmartContractRunner

/-- The case `CREATE_MONEY`. -/
def callCreateMoney (s : BankRepository) (www : JString) (ss : List String) :
    Except JavaException (Option LedgerOperation) := do
  let old ← s.balance www
  let amount ← longWord ss 1
  return some (.createMoney www (old + amount))

/-- The case `TRANSFER_MONEY`. -/
def callTransferMoney (s : BankRepository) (www : JString) (ss : List String) :
    Except JavaException (Option LedgerOperation) := do
  -- The balance is logged first, which needs the user but no amount.
  let _ ← s.user www
  let amount ← longWord ss 2
  let old ← s.balance www
  if 0 ≤ old - amount then
    let receiver ← word ss 1
    let toOld ← s.balance (some receiver)
    return some (.transferMoney www (old - amount) (some receiver) (amount + toOld))
  else return none

/-- The case `CREATE_AUCTION`. The id of the auction is the key of the contract. -/
def callCreateAuction (s : BankRepository) (i : Int32) (www : JString) :
    Except JavaException (Option LedgerOperation) := do
  let b ← s.user www
  if b.getRoles.contains "ROLE_AUCTION_MAKER" then
    return some (.createAuction (some (Int64.ofInt i.toInt)) www)
  else return none

/-- The case `BID`. -/
def callBid (jvm : Jvm) (s : BankRepository) (www : JString) (ss : List String) :
    Except JavaException (Option LedgerOperation) := do
  -- The third word is the auction. The amount is read only if the bidder is not its owner.
  let id ← longWord ss 2
  match s.findByAuctionID (some id) with
  | none => return none
  | some r =>
    if ← sameName jvm www (s.auction r).ownerUsername then return none
    else
      let amount ← longWord ss 1
      return some (.createBid id id amount www)

/-- The case `CLOSE_AUCTION`: the owner of the contract with the given key, or a user with
`ROLE_AUCTION_MANAGER`. -/
def callCloseAuction (jvm : Jvm) (sR : SmartContractRunner) (s : BankRepository) (www : JString)
    (ss : List String) : Except JavaException (Option LedgerOperation) := do
  -- The third word is the key of a contract, and the second one is the auction.
  let key ← intWord ss 2
  match sR.ownerOf key with
  | none => throw .nullPointer
  | some owner =>
    if ← sameName jvm www owner then
      let id ← longWord ss 1
      return some (.closeAution (some id) www)
    else
      let b ← s.user www
      if b.getRoles.contains "ROLE_AUCTION_MANAGER" then
        let id ← longWord ss 1
        return some (.closeAution (some id) www)
      else return none

/-- The call that the `switch` of `run` makes for the operation with the words `ss` of the contract
`i` with the owner `www`; `none` when it makes none and `j` keeps its value. -/
def dispatch (jvm : Jvm) (sR : SmartContractRunner) (s : BankRepository) (i : Int32) (www : JString)
    (ss : List String) : Except JavaException (Option LedgerOperation) := do
  let name ← word ss 0
  if name = "CREATE_MONEY" then callCreateMoney s www ss
  else if name = "TRANSFER_MONEY" then callTransferMoney s www ss
  else if name = "CREATE_AUCTION" then callCreateAuction s i www
  else if name = "BID" then callBid jvm s www ss
  else if name = "CLOSE_AUCTION" then callCloseAuction jvm sR s www ss
  else return none

end SmartContractRunner

/-- The call of an operation of `BankServiceHelper` at the time `now`. -/
def LedgerOperation.run (jvm : Jvm) (now : Int64) (op : LedgerOperation) (s : BankRepository) :
    Outcome JSONObject :=
  match op with
  | .createMoney who amount =>
    let (j, s) := BankServiceHelper.createMoney who amount s
    (.ok j, s)
  | .transferMoney sender fromAmount receiver toAmount =>
    BankServiceHelper.transferMoney sender fromAmount receiver toAmount s
  | .createAuction id who =>
    let (j, s) := BankServiceHelper.createAuction id who s
    (.ok j, s)
  | .createBid bidId auctionId amount who =>
    BankServiceHelper.createBid jvm now bidId auctionId amount who s
  | .closeAution id who => BankServiceHelper.closeAution jvm id who s

/-! ## A pass of the thread -/

/-- A replica: the repository and the runner of `BankService`. -/
structure BankService where
  bankRepo : BankRepository
  sR : SmartContractRunner
  deriving DecidableEq

namespace BankService

/-- `new BankService(id)` without a saved file. -/
def new : BankService := ⟨BankRepository.new, SmartContractRunner.new⟩

/-- The result of the `switch`: that of the call, or the old `j` when there is none. -/
def callResult (jvm : Jvm) (now : Int64) (j : JSONObject) (call : Option LedgerOperation)
    (s : BankRepository) : Outcome JSONObject :=
  match call with
  | none => (.ok j, s)
  | some call => call.run jvm now s

/-- What follows the `switch`: the repository is saved unless `j` holds an error, and an exception
ends the thread. -/
def afterCall (sR : SmartContractRunner) (result : Outcome JSONObject) : BankService :=
  match result.1 with
  | .error _ => ⟨result.2, { sR with alive := false }⟩
  | .ok j => ⟨if j.has "error" then result.2 else result.2.save, { sR with j := j }⟩

/-- The body of the inner loop of `run` for one operation of the contract `i`: the list is cleared
and the operation is executed. -/
def runOperation (jvm : Jvm) (now : Int64) (i : Int32) (op : String) (st : BankService) :
    BankService :=
  let sR := st.sR.clearOperations i
  match sR.ownerOf i with
  | none => { st with sR := { sR with alive := false } }
  | some www =>
    match sR.dispatch jvm st.bankRepo i www (split " " op) with
    | .error _ => { st with sR := { sR with alive := false } }
    -- Without a call the verdict of an earlier operation decides whether to save.
    | .ok call => afterCall sR (callResult jvm now sR.j call st.bankRepo)

/-- The inner loop of `run` over the operations of the contract `i`, at the times `now`. -/
def runOperations (jvm : Jvm) (i : Int32) :
    (now : ℕ → Int64) → List String → BankService → BankService
  | _, [], st => st
  | now, op :: ops, st =>
    if st.sR.alive then
      runOperations jvm i (fun n => now (n + 1)) ops (runOperation jvm (now 0) i op st)
    else st

/-- The outer loop of `run` over the keys of the contracts. -/
def runContracts (jvm : Jvm) (now : Int32 → ℕ → Int64) : List Int32 → BankService → BankService
  | [], st => st
  | i :: is, st =>
    let ops := ((st.sR.contracts.lookup i).map st.sR.getOperations).getD []
    runContracts jvm now is (runOperations jvm i (now i) ops st)

/-- One pass of the thread over all contracts; `now i n` is the time of the operation `n` of the
contract `i`. -/
def pass (jvm : Jvm) (now : Int32 → ℕ → Int64) (st : BankService) : BankService :=
  runContracts jvm now (jvm.order st.sR.contracts.keys) st

end BankService

end NovaBank.Replica
