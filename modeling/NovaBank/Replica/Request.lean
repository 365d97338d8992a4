import NovaBank.Replica.Entities

/-!
# Requests

The requests of a replica, and how `appExecuteOrdered` and `appExecuteUnordered` of
`CSDBftServer/src/main/java/bftProxyServer/BankService.java` read them from a command. A command is
an object stream that begins with the name of its type.

Decoding does not depend on the state of the replica. Where the code reads some of the fields only
on one branch, the request carries the result of that reading, its exception included, and the
branch uses it or not.
-/

namespace NovaBank.Replica

open Java

/-- The objects that occur in commands and in replies. -/
inductive JObject where
  | null
  | str (s : String)
  | long (v : Int64)
  | int (v : Int32)
  | strings (l : List JString)
  | bid (b : BidEntity)
  /-- An object of another class, with what its `toString()` returns. -/
  | other (text : String)
  deriving DecidableEq

/-- The bytes of a command, as the object stream that they are. -/
abbrev Command := ObjectStream JObject

namespace JObject

/-- `toString()` of an object that is not `null`. The texts of arrays and bids are not those of any
request type, and only that matters. -/
def toText : JObject → String
  | null => ""
  | str s => s
  | long v => Long.toText v
  | int v => toString v.toInt
  | strings _ => "[Ljava.lang.String;"
  | bid b => "bid#" ++ Long.toText b.id
  | other text => text

/-- The cast `(String)`. -/
def asString : JObject → Except JavaException JString
  | null => .ok none
  | str s => .ok (some s)
  | _ => .error .classCast

/-- The cast `(Long)`. -/
def asLong : JObject → Except JavaException JLong
  | null => .ok none
  | long v => .ok (some v)
  | _ => .error .classCast

/-- The cast `(String[])`. -/
def asStrings : JObject → Except JavaException (Option (List JString))
  | null => .ok none
  | strings l => .ok (some l)
  | _ => .error .classCast

end JObject

/-- `readObject()` with a cast. -/
def readAs {α : Type} (cast : JObject → Except JavaException α) (c : Command) :
    Except JavaException (α × Command) := do
  let (o, c) ← readObject c
  return (← cast o, c)

/-- `readObject().toString()`. -/
def readType (c : Command) : Except JavaException (String × Command) := do
  let (o, c) ← readObject c
  if o = .null then throw .nullPointer else return (o.toText, c)

/-! ## Ordered requests -/

/-- A request on the ledger. -/
inductive LedgerRequest where
  /-- `REGISTER_USER`. The password, the amount and the roles are read when the name is free. -/
  | registerUser (username : JString)
      (rest : Except JavaException (JString × JLong × Option (List JString)))
  /-- `CREATE_MONEY`. The original and the final amount are read when the user exists. -/
  | createMoney (who : JString) (rest : Except JavaException (Int64 × Int64))
  /-- `TRANSFER_MONEY`. -/
  | transferMoney (sender : JString) (fromSaldo : Int64) (receiver : JString)
      (toSaldo fromAmount toAmount : Int64)
  /-- `CREATE_AUCTION`. -/
  | createAuction (who : JString) (auctionID : JLong)
  /-- `CLOSE_AUCTION`. -/
  | closeAuction (who : JString) (auctionID : JLong)

/-- A request as `appExecuteOrdered` dispatches it. -/
inductive Request where
  | ledger (r : LedgerRequest)
  /-- `CREATE_SMART_CONTRACT`. -/
  | createSmartContract (who : JString) (code : List UInt8)
  /-- Every other type, which is left to `appExecuteUnordered`. -/
  | other

/-- The fields of `REGISTER_USER` after the name. -/
def readRegistration (c : Command) :
    Except JavaException (JString × JLong × Option (List JString)) := do
  let (password, c) ← readAs JObject.asString c
  let (amount, c) ← readAs JObject.asLong c
  let (roles, _) ← readAs JObject.asStrings c
  return (password, amount, roles)

/-- The fields of `CREATE_MONEY` after the name. -/
def readAmounts (c : Command) : Except JavaException (Int64 × Int64) := do
  let (original, c) ← readLong c
  let (amount, _) ← readLong c
  return (original, amount)

/-- The fields of `TRANSFER_MONEY`. -/
def readTransfer (c : Command) : Except JavaException LedgerRequest := do
  let (sender, c) ← readAs JObject.asString c
  let (fromSaldo, c) ← readLong c
  let (receiver, c) ← readAs JObject.asString c
  let (toSaldo, c) ← readLong c
  let (fromAmount, c) ← readLong c
  let (toAmount, _) ← readLong c
  return .transferMoney sender fromSaldo receiver toSaldo fromAmount toAmount

/-- The fields of `CREATE_SMART_CONTRACT`. -/
def readContract (c : Command) : Except JavaException Request := do
  let (who, c) ← readAs JObject.asString c
  let (sizeOfCode, c) ← readInt c
  -- The array of the code is allocated before it is read.
  if sizeOfCode < 0 then throw .negativeArraySize
  let (code, _) ← readFully sizeOfCode.toNatClampNeg c
  return .createSmartContract who code

/-- A user and the id of an auction. -/
def readUserAndAuction (c : Command) : Except JavaException (JString × JLong) := do
  let (who, c) ← readAs JObject.asString c
  let (auctionID, _) ← readAs JObject.asLong c
  return (who, auctionID)

/-- The reading of a command by `appExecuteOrdered`. -/
def decodeOrdered (c : Command) : Except JavaException Request := do
  let (bankServiceRequestType, c) ← readType c
  if bankServiceRequestType = "REGISTER_USER" then
    let (username, c) ← readAs JObject.asString c
    return .ledger (.registerUser username (readRegistration c))
  else if bankServiceRequestType = "CREATE_MONEY" then
    let (who, c) ← readAs JObject.asString c
    return .ledger (.createMoney who (readAmounts c))
  else if bankServiceRequestType = "TRANSFER_MONEY" then
    return .ledger (← readTransfer c)
  else if bankServiceRequestType = "CREATE_AUCTION" then
    let (who, auctionID) ← readUserAndAuction c
    return .ledger (.createAuction who auctionID)
  else if bankServiceRequestType = "CLOSE_AUCTION" then
    let (who, auctionID) ← readUserAndAuction c
    return .ledger (.closeAuction who auctionID)
  else if bankServiceRequestType = "CREATE_SMART_CONTRACT" then
    readContract c
  else return .other

/-! ## Unordered requests -/

/-- A request as `appExecuteUnordered` dispatches it. -/
inductive Query where
  /-- `FIND_USER`. -/
  | findUser (username : JString)
  /-- `LIST_ALL_BANK_ACCOUNTS`. -/
  | listAllBankAccounts
  /-- `CHECK_CURRENT_AMOUNT`. -/
  | checkCurrentAmount (who : JString)
  /-- `LIST_ALL_CURRENT_OPENED_AUCTIONS`. -/
  | listAllCurrentOpenedAuctions
  /-- `LIST_ALL_CURRENT_CLOSED_AUCTIONS`. -/
  | listAllCurrentClosedAuctions
  /-- `LIST_ALL_BIDS_FROM_AUCTION`. -/
  | listAllBidsFromAuction (auctionID : JLong)
  /-- `LIST_ALL_BIDS_FROM_USER`. -/
  | listAllBidsFromUser (who : JString)
  /-- `CHECK_WINNER_BID_CLOSED_AUCTION`. -/
  | checkWinnerBidClosedAuction (auctionID : JLong)
  /-- Every other type. -/
  | unsupported
  deriving DecidableEq

/-- The reading of a command by `appExecuteUnordered`. -/
def decodeUnordered (c : Command) : Except JavaException Query := do
  let (bankServiceRequestType, c) ← readType c
  if bankServiceRequestType = "FIND_USER" then
    let (username, _) ← readAs JObject.asString c
    return .findUser username
  else if bankServiceRequestType = "LIST_ALL_BANK_ACCOUNTS" then
    return .listAllBankAccounts
  else if bankServiceRequestType = "CHECK_CURRENT_AMOUNT" then
    let (who, _) ← readAs JObject.asString c
    return .checkCurrentAmount who
  else if bankServiceRequestType = "LIST_ALL_CURRENT_OPENED_AUCTIONS" then
    return .listAllCurrentOpenedAuctions
  else if bankServiceRequestType = "LIST_ALL_CURRENT_CLOSED_AUCTIONS" then
    return .listAllCurrentClosedAuctions
  else if bankServiceRequestType = "LIST_ALL_BIDS_FROM_AUCTION" then
    let (auctionID, _) ← readAs JObject.asLong c
    return .listAllBidsFromAuction auctionID
  else if bankServiceRequestType = "LIST_ALL_BIDS_FROM_USER" then
    let (who, _) ← readAs JObject.asString c
    return .listAllBidsFromUser who
  else if bankServiceRequestType = "CHECK_WINNER_BID_CLOSED_AUCTION" then
    let (auctionID, _) ← readAs JObject.asLong c
    return .checkWinnerBidClosedAuction auctionID
  else return .unsupported

end NovaBank.Replica
