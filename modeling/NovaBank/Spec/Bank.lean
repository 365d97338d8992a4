import NovaBank.Replica.Runs
import Mathlib.Logic.Function.Basic

/-!
# What a replica is for

A bank as its clients see it: who has an account, with which password, balance and roles, and which
auctions there are, each with its owner, whether it is closed, and its bid. An auction takes one bid
and no more, so there is no list of bids; there are no references, no second and third map of
auctions, no order in which anything was put, and no version.

`Bank.run` says what the five operations of the ledger do to such a bank and what they return,
`Bank.execute` what the ordered requests do, and `Office` adds the contracts and their runner, with
the requests and the operations of contracts as its steps. `Spec/Refinement.lean` shows that a
replica does just this.
-/

namespace NovaBank.Spec

open Java Replica

/-! ## The bank -/

/-- What the bank knows of a user. -/
structure Holder where
  password : JString
  amount : JLong
  roles : String
  deriving DecidableEq

/-- An auction. -/
structure Sale where
  owner : JString
  closed : Bool
  bid : Option BidEntity
  deriving DecidableEq

/-- The accounts and the auctions. -/
@[ext]
structure Bank where
  holders : JString → Option Holder
  sales : JLong → Option Sale

/-- The roles of a user. -/
def Holder.getRoles (h : Holder) : List String := split roleSeparator h.roles

/-- The account of the user `u` as it is sent to a proxy. -/
def Holder.getJSON (u : JString) (h : Holder) : JSONObject :=
  (((JSONObject.empty.put "username" (u.map .text)).put "password" (h.password.map .text)).put
    "amount" (h.amount.map .number)).put "roles" (some (.text h.roles))

namespace Sale

/-- The auction when it has ended. -/
def close (sale : Sale) : Sale := { sale with closed := true }

/-- The auction with a bid. -/
def addBid (sale : Sale) (bid : BidEntity) : Sale := { sale with bid := some bid }

/-- Whether `who` is the owner, up to the case of letters. -/
def isOwner (jvm : Jvm) (sale : Sale) (who : JString) : Except JavaException Bool :=
  match sale.owner with
  | none => .error .nullPointer
  | some owner => .ok (jvm.equalsIgnoreCase owner who)

/-- Whether the user `who` may close the auction: the owner, and whoever makes auctions. -/
def mayClose (jvm : Jvm) (sale : Sale) (h : Holder) (who : JString) : Except JavaException Bool :=
  (sale.isOwner jvm who).map (· || h.getRoles.contains "ROLE_AUCTION_MAKER")

/-- The bid that counts as the last one: the bids are counted from 0, and the bid of an auction has
the id of the auction. -/
def lastBid (id : JLong) (sale : Sale) : Option BidEntity := if id = some 0 then sale.bid else none

/-- What the owner is paid at the end. -/
def prize (id : JLong) (sale : Sale) : Int64 := ((sale.lastBid id).map BidEntity.amount).getD 0

end Sale

namespace Bank

/-- The empty bank. -/
def new : Bank := ⟨fun _ => none, fun _ => none⟩

/-- The bank with the account `h` for the user `u`. -/
def enrol (u : JString) (h : Holder) (B : Bank) : Bank :=
  { B with holders := Function.update B.holders u (some h) }

/-- The bank with the balance `v` for the user `who`, if there is one. -/
def assign (who : JString) (v : Int64) (B : Bank) : Bank :=
  let h := (B.holders who).map fun h => { h with amount := some v }
  { B with holders := Function.update B.holders who h }

/-- The bank with the auction `sale` under the id. -/
def list (id : JLong) (sale : Sale) (B : Bank) : Bank :=
  { B with sales := Function.update B.sales id (some sale) }

/-- The account of a user who must exist. -/
def user (B : Bank) (u : JString) : Except JavaException Holder :=
  match B.holders u with
  | none => .error .noSuchElement
  | some h => .ok h

/-- The balance of a user who must exist. -/
def balance (B : Bank) (u : JString) : Except JavaException Int64 := do
  match (← B.user u).amount with
  | none => throw .nullPointer
  | some v => return v

/-! ## The operations -/

/-- A deposit sets the balance. -/
def createMoney (who : JString) (amount : Int64) (B : Bank) : JSONObject × Bank :=
  match B.holders who with
  | some _ => (JSONObject.success.put "amount" (some (.number amount)), B.assign who amount)
  | none => (JSONObject.error ("User not found " ++ JString.toText who), B)

/-- A transfer sets the balance of the sender and then that of the receiver. -/
def transferMoney (sender : JString) (fromAmount : Int64) (receiver : JString) (toAmount : Int64)
    (B : Bank) : Except JavaException JSONObject × Bank :=
  match B.holders sender, B.holders receiver with
  | none, _ => (.error .noSuchElement, B)
  | some _, none => (.error .noSuchElement, B.assign sender fromAmount)
  | some _, some _ => (.ok JSONObject.success, (B.assign sender fromAmount).assign receiver toAmount)

/-- A user opens an auction under a free id. -/
def createAuction (id : JLong) (who : JString) (B : Bank) : JSONObject × Bank :=
  match B.holders who, B.sales id with
  | none, _ => (JSONObject.error ("User not found " ++ JString.toText who), B)
  | some _, some _ => (JSONObject.error ("Auction already exist " ++ JLong.toText id), B)
  | some _, none => (JSONObject.success.put "id" (id.map .number), B.list id ⟨who, false, none⟩)

/-- The owner of an auction is paid, if the owner has a balance. -/
def payOwner (id : JLong) (sale : Sale) (B : Bank) : Except JavaException Unit × Bank :=
  match B.balance sale.owner with
  | .error e => (.error e, B)
  | .ok v => (.ok (), B.assign sale.owner (sale.prize id + v))

/-- The auction ends, and its owner is paid. It is closed even when the owner cannot be paid. -/
def closeAution (jvm : Jvm) (id : JLong) (who : JString) (B : Bank) :
    Except JavaException JSONObject × Bank :=
  match B.holders who, B.sales id with
  | none, _ => (.ok (JSONObject.error ("User not found " ++ JString.toText who)), B)
  | some _, none => (.ok (JSONObject.error ("Auction don't exist " ++ JLong.toText id)), B)
  | some h, some sale =>
    -- A closed auction is reported as one that does not exist.
    if sale.closed then (.ok (JSONObject.error ("Auction don't exist " ++ JLong.toText id)), B)
    else
      match sale.mayClose jvm h who with
      | .error e => (.error e, B)
      | .ok false =>
        (.ok (JSONObject.error ("User " ++ JString.toText who ++ " doesn't own this auction " ++
          JLong.toText id)), B)
      | .ok true =>
        let paid := (B.list id sale.close).payOwner id sale
        (paid.1.map fun _ => JSONObject.success.put "id" (id.map .number), paid.2)

/-- A user bids on an auction of someone else. The first bid that is covered by the balance of the
bidder is taken, and its amount with it. -/
def createBid (jvm : Jvm) (now bidId auctionId amount : Int64) (who : JString) (B : Bank) :
    Except JavaException JSONObject × Bank :=
  match B.holders who, B.sales (some bidId) with
  | none, _ => (.ok (JSONObject.error ("User not found " ++ JString.toText who)), B)
  | some _, none => (.ok (JSONObject.error ("Auction don't exist " ++ Long.toText auctionId)), B)
  | some h, some sale =>
    if sale.closed then
      (.ok (JSONObject.error ("Auction it's already closed " ++ Long.toText auctionId)), B)
    else
      match sale.isOwner jvm who with
      | .error e => (.error e, B)
      | .ok true =>
        (.ok (JSONObject.error ("User " ++ JString.toText who ++
          " can't make bids for its own auction " ++ Long.toText auctionId)), B)
      | .ok false =>
        if sale.bid.isSome then
          (.ok (JSONObject.error ("Auction " ++ Long.toText auctionId ++
            " already contains a Bid with the id " ++ Long.toText bidId)), B)
        else
          match h.amount with
          | none => (.error .nullPointer, B)
          | some v =>
            if amount ≤ v then
              (.ok (JSONObject.success.put "id" (some (.number bidId))),
                (B.assign who (v - amount)).list (some bidId)
                  (sale.addBid ⟨bidId, who, amount, now⟩))
            else
              (.ok (JSONObject.error ("User " ++ JString.toText who ++
                " don't have the necessary amount of money to make this bid")), B)

/-- An operation of the ledger. -/
def run (jvm : Jvm) (now : Int64) (op : LedgerOperation) (B : Bank) :
    Except JavaException JSONObject × Bank :=
  match op with
  | .createMoney who amount => (.ok (B.createMoney who amount).1, (B.createMoney who amount).2)
  | .transferMoney sender fromAmount receiver toAmount =>
    B.transferMoney sender fromAmount receiver toAmount
  | .createAuction id who => (.ok (B.createAuction id who).1, (B.createAuction id who).2)
  | .createBid bidId auctionId amount who => B.createBid jvm now bidId auctionId amount who
  | .closeAution id who => B.closeAution jvm id who

/-! ## The requests -/

/-- A new account under a free name. -/
def register (jvm : Jvm) (username : JString)
    (rest : Except JavaException (JString × JLong × Option (List JString))) (B : Bank) :
    Except JavaException Reply × Bank :=
  match B.holders username, rest with
  | some _, _ => (.ok none, B)
  | none, .error e => (.error e, B)
  | none, .ok (password, amount, roles) =>
    match BankEntity.new jvm username password amount roles with
    | .error e => (.error e, B)
    | .ok b => (.ok (some [.name username]), B.enrol username ⟨password, amount, b.roles⟩)

/-- A deposit of a user with the balance `v` names the balance that it found. When that is the balance, it
is accepted unless it is negative. When it is another one, the deposit is accepted nevertheless if the
balance is zero or negative, except for the least `long`, which is its own negation. -/
def deposit (who : JString) (v original amount : Int64) (B : Bank) :
    Except JavaException Reply × Bank :=
  let compared := if v = original then v else -v
  if 0 ≤ compared then
    (.ok (BankService.jsonReply (B.createMoney who amount).1), (B.createMoney who amount).2)
  else
    (.ok (BankService.jsonReply ((JSONObject.error "Original amount did not pass verifications").put
      "amount" (some (.number (-compared))))), B)

/-- A transfer between users with the accounts `h` and `k` names the two balances that it found. It is
refused when one of them is not the balance. The second balance is not looked at when the first one
differs. -/
def transfer (sender receiver : JString) (fromSaldo toSaldo fromAmount toAmount : Int64) (h k : Holder)
    (B : Bank) : Except JavaException Reply × Bank :=
  let refused := (.ok (BankService.jsonReply (((JSONObject.empty.put "error" (some (.bool true))).put
    "fromSaldo" (h.amount.map .number)).put "toSaldo" (k.amount.map .number))), B)
  match h.amount, k.amount with
  | none, _ => (.error .nullPointer, B)
  | some v, none => if v = fromSaldo then (.error .nullPointer, B) else refused
  | some v, some w =>
    if v = fromSaldo ∧ w = toSaldo then
      ((B.transferMoney sender fromAmount receiver toAmount).1.map BankService.jsonReply,
        (B.transferMoney sender fromAmount receiver toAmount).2)
    else refused

/-- A request on the ledger. One that names nobody is not answered. -/
def execute (jvm : Jvm) (r : LedgerRequest) (B : Bank) : Except JavaException Reply × Bank :=
  match r with
  | .registerUser username rest => B.register jvm username rest
  | .createMoney who rest =>
    match B.holders who, rest, B.balance who with
    | none, _, _ => (.ok none, B)
    | some _, .error e, _ => (.error e, B)
    | some _, .ok _, .error e => (.error e, B)
    | some _, .ok (original, amount), .ok v => B.deposit who v original amount
  | .transferMoney sender fromSaldo receiver toSaldo fromAmount toAmount =>
    match B.holders sender, B.holders receiver with
    | some h, some k => B.transfer sender receiver fromSaldo toSaldo fromAmount toAmount h k
    | _, _ => (.ok none, B)
  | .createAuction who auctionID =>
    match B.holders who, B.sales auctionID with
    | some _, none =>
      (.ok (BankService.jsonReply (B.createAuction auctionID who).1),
        (B.createAuction auctionID who).2)
    | _, _ => (.ok none, B)
  | .closeAuction who auctionID =>
    ((B.closeAution jvm auctionID who).1.map BankService.jsonReply,
      (B.closeAution jvm auctionID who).2)

/-- The answer to a query about one thing. What a listing answers is not a matter of the bank alone:
it has an order. -/
def answer (B : Bank) : Query → Option (Except JavaException Reply)
  | .findUser username =>
    some (.ok ((B.holders username).map fun h => [.json (.object (h.getJSON username))]))
  | .checkCurrentAmount who =>
    some (match B.holders who with
      | none => .ok none
      | some _ => (B.balance who).map fun v => some [.long v])
  | .checkWinnerBidClosedAuction id =>
    some (.ok (((B.sales id).filter Sale.closed).map fun sale => [.bid (sale.lastBid id)]))
  | .unsupported => some (.ok none)
  | _ => none

/-- What the operation with the words `ss` of the contract `i` asks for on behalf of `www`. -/
def call (jvm : Jvm) (sR : SmartContractRunner) (i : Int32) (www : JString) (ss : List String)
    (B : Bank) : Except JavaException (Option LedgerOperation) := do
  let name ← word ss 0
  if name = "CREATE_MONEY" then
    let old ← B.balance www
    let amount ← longWord ss 1
    return some (.createMoney www (old + amount))
  else if name = "TRANSFER_MONEY" then
    let _ ← B.user www
    let amount ← longWord ss 2
    let old ← B.balance www
    if 0 ≤ old - amount then
      let receiver ← word ss 1
      let toOld ← B.balance (some receiver)
      return some (.transferMoney www (old - amount) (some receiver) (amount + toOld))
    else return none
  else if name = "CREATE_AUCTION" then
    let h ← B.user www
    if h.getRoles.contains "ROLE_AUCTION_MAKER" then
      return some (.createAuction (some (Int64.ofInt i.toInt)) www)
    else return none
  else if name = "BID" then
    let id ← longWord ss 2
    match B.sales (some id) with
    | none => return none
    | some sale =>
      if ← sameName jvm www sale.owner then return none
      else
        let amount ← longWord ss 1
        return some (.createBid id id amount www)
  else if name = "CLOSE_AUCTION" then
    let key ← intWord ss 2
    match sR.ownerOf key with
    | none => throw .nullPointer
    | some owner =>
      if ← sameName jvm www owner then
        let id ← longWord ss 1
        return some (.closeAution (some id) www)
      else
        let h ← B.user www
        if h.getRoles.contains "ROLE_AUCTION_MANAGER" then
          let id ← longWord ss 1
          return some (.closeAution (some id) www)
        else return none
  else return none

end Bank

/-! ## The bank with its contracts -/

/-- The bank, and the runner of the contracts. -/
structure Office where
  bank : Bank
  sR : SmartContractRunner

namespace Office

/-- An office without users and contracts. -/
def new : Office := ⟨Bank.new, SmartContractRunner.new⟩

/-- What becomes of the result of a request: an exception of the streams is no reply. -/
def settle (reply : Except JavaException Reply) : Except JavaException Reply :=
  match reply with
  | .ok reply => .ok reply
  | .error e => if e.isStream then .ok none else .error e

/-- The upload of a contract by a user. -/
def upload (jvm : Jvm) (who : JString) (code : List UInt8) (o : Office) :
    Except JavaException Reply × Office :=
  match o.bank.holders who with
  | none => (.ok none, o)
  | some _ =>
    match o.sR.createObjectFromFile jvm who code with
    | (.error e, sR) =>
      (if BankService.isLoading e then .ok (BankService.jsonReply JSONObject.empty) else .error e,
        { o with sR := sR })
    -- The verdict of the verifier never holds an error.
    | (.ok cl, sR) =>
      (.ok (BankService.jsonReply (BankServiceHelper.validateCode jvm cl)),
        { o with sR := sR.runContract cl who })

/-- The answer to an unordered command, where the bank determines it. -/
def query (command : Command) (o : Office) : Option (Except JavaException Reply) :=
  match decodeUnordered command with
  | .error e => some (settle (.error e))
  | .ok q => (o.bank.answer q).map settle

/-- An ordered command: its reply, where the bank determines it, and the office after it. -/
def ordered (jvm : Jvm) (command : Command) (o : Office) :
    Option (Except JavaException Reply) × Office :=
  match decodeOrdered command with
  | .error e => (some (settle (.error e)), o)
  | .ok (.ledger r) =>
    (some (settle (o.bank.execute jvm r).1), { o with bank := (o.bank.execute jvm r).2 })
  | .ok (.createSmartContract who code) =>
    (some (settle (o.upload jvm who code).1), (o.upload jvm who code).2)
  | .ok .other => (o.query command, o)

/-- The reply to a request, where the bank determines it. -/
def reply (jvm : Jvm) (a : Access) (o : Office) : Option (Except JavaException Reply) :=
  match a with
  | .ordered command => (o.ordered jvm command).1
  | .unordered command => o.query command

/-- The operation `op` of the contract `i` at the time `now`. An exception ends the runner. -/
def operation (jvm : Jvm) (now : Int64) (i : Int32) (op : String) (o : Office) : Office :=
  let sR := o.sR.clearOperations i
  match sR.ownerOf i with
  | none => { o with sR := { sR with alive := false } }
  | some www =>
    match o.bank.call jvm sR i www (split " " op) with
    | .error _ => { o with sR := { sR with alive := false } }
    | .ok none => { o with sR := sR }
    | .ok (some call) =>
      match o.bank.run jvm now call with
      | (.error _, bank) => ⟨bank, { sR with alive := false }⟩
      | (.ok j, bank) => ⟨bank, { sR with j := j }⟩

/-- A step of the office. -/
def step (jvm : Jvm) (o : Office) (x : Action) : Office :=
  match x with
  | .ordered command => (o.ordered jvm command).2
  | .unordered _ => o
  | .operation now i op => if o.sR.alive then o.operation jvm now i op else o

end Office

end NovaBank.Spec
