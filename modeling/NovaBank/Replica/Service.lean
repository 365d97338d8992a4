import NovaBank.Replica.Contracts
import NovaBank.Replica.Request

/-!
# The replicated service

`appExecuteOrdered`, `appExecuteUnordered`, `getSnapshot` and `installSnapshot` of
`CSDBftServer/src/main/java/bftProxyServer/BankService.java`.

A reply is the sequence of objects that the request writes to its output stream; the signature is
added to their bytes later. `none` is the `null` that the code returns when it wrote no object. Both
`appExecute` methods end with the same epilogue (`finish`): the exceptions of the streams are caught
and lead to `null`, the repository is saved, and any other exception escapes before the save.
-/

namespace NovaBank.Replica

open Java

deriving instance DecidableEq for Json

/-- An object that a request writes to its reply. A JSON value is written as its text. -/
inductive ReplyObject where
  | name (s : JString)
  | json (j : Json)
  | long (v : Int64)
  | int (v : Int32)
  | bid (b : Option BidEntity)
  deriving DecidableEq

/-- The objects of a reply, `none` for `null`. -/
abbrev Reply := Option (List ReplyObject)

/-- A request to a replica. -/
inductive Access where
  | ordered (command : Command)
  | unordered (command : Command)

namespace BankService

/-- The end of both `appExecute` methods, after the `switch` or the exception that left it. -/
def finish (r : Outcome Reply) : Outcome Reply :=
  match r.1 with
  | .ok reply => (.ok reply, r.2.save)
  | .error e => if e.isStream then (.ok none, r.2.save) else (.error e, r.2)

/-! ## Unordered requests -/

/-- The hash of `LIST_ALL_BANK_ACCOUNTS` over the accounts in the order of the iteration. -/
def accountsHash (jvm : Jvm) (bs : List BankEntity) : Int32 :=
  bs.foldl (fun hash b => hash ^^^ hashCode (jvm.text (.object b.getJSONSecure))) 0

/-- The answer that the `switch` of `appExecuteUnordered` writes. -/
def answer (jvm : Jvm) (s : BankRepository) : Query → Except JavaException Reply
  | .findUser username =>
    match s.findByUserName username with
    | some b => .ok (some [.json (.object b.getJSON)])
    | none => .ok none
  | .listAllBankAccounts =>
    let it := s.usersIterator jvm
    .ok (some [.int (accountsHash jvm it), .json (.array (it.map BankEntity.getJSONSecure))])
  | .checkCurrentAmount who =>
    match s.findByUserName who with
    | some _ => (BankServiceHelper.currentAmount who s).map fun amount => some [.long amount]
    | none => .ok none
  | .listAllCurrentOpenedAuctions =>
    .ok (some (.int s.getNumOpenedAuctions ::
      (s.openedAuctionsIterator jvm).map fun a => .json (.auction a)))
  | .listAllCurrentClosedAuctions =>
    -- The number is that of the opened auctions here, too.
    .ok (some (.int s.getNumOpenedAuctions ::
      (s.closedAuctionsIterator jvm).map fun a => .json (.auction a)))
  | .listAllBidsFromAuction auctionID =>
    match s.findByAuctionID auctionID with
    | some r =>
      .ok (some (.int (Int32.ofNat (s.auction r).bids.size) ::
        (s.findAllBidsFromAuction jvm r).map fun b => .json (.object b.getJSON)))
    | none => .ok none
  | .listAllBidsFromUser who =>
    match s.findByUserName who with
    | some b =>
      .ok (some (.int (Int32.ofNat b.bids.size) ::
        (BankRepository.findAllBidsFromUser jvm b).map fun b => .json (.object b.getJSON)))
    | none => .ok none
  | .checkWinnerBidClosedAuction auctionID =>
    match s.findByAuctionID auctionID, s.findByClosedAuctionID auctionID with
    | some r, some _ => .ok (some [.bid (s.checkWinnerBidFromAuction r)])
    | _, _ => .ok none
  | .unsupported => .ok none

/-- The answer to `FIND_USER`: the account, or nothing. -/
theorem answer_findUser (jvm : Jvm) (s : BankRepository) (username : JString) :
    answer jvm s (.findUser username) =
      .ok ((s.findByUserName username).map fun b => [.json (.object b.getJSON)]) := by
  rw [answer]
  cases s.findByUserName username <;> rfl

/-- The answer to `CHECK_CURRENT_AMOUNT`: the amount, or nothing. An amount that is `null` throws. -/
theorem answer_checkCurrentAmount (jvm : Jvm) (s : BankRepository) (who : JString) :
    answer jvm s (.checkCurrentAmount who) =
      (s.findByUserName who).elim (.ok none) fun b =>
        b.amount.elim (.error .nullPointer) fun amount => .ok (some [.long amount]) := by
  rw [answer, BankServiceHelper.currentAmount]
  cases s.findByUserName who with
  | none => rfl
  | some b =>
    dsimp only [Option.elim_some]
    cases b.amount <;> rfl

/-- The reading of a command and its answer. -/
def query (jvm : Jvm) (command : Command) (s : BankRepository) : Except JavaException Reply := do
  answer jvm s (← decodeUnordered command)

/-- `appExecuteUnordered(commandBytes, messageContext)`. -/
def appExecuteUnordered (jvm : Jvm) (command : Command) (s : BankRepository) : Outcome Reply :=
  finish (query jvm command s, s)

/-! ## Ordered requests -/

/-- A JSON object as the only object of a reply. -/
def jsonReply (j : JSONObject) : Reply := some [.json (.object j)]

/-- `REGISTER_USER`. -/
def executeRegisterUser (jvm : Jvm) (username : JString)
    (rest : Except JavaException (JString × JLong × Option (List JString))) (s : BankRepository) :
    Outcome Reply :=
  match s.findByUserName username with
  | some _ => (.ok none, s)
  | none =>
    match rest with
    | .error e => (.error e, s)
    | .ok (password, amount, roles) =>
      let (b, s) := BankServiceHelper.registerUser jvm username password amount roles s
      (b.map fun b => some [.name b.userName], s)

/-- `CREATE_MONEY`. -/
def executeCreateMoney (who : JString) (rest : Except JavaException (Int64 × Int64))
    (s : BankRepository) : Outcome Reply :=
  match s.findByUserName who with
  | none => (.ok none, s)
  | some _ =>
    match rest with
    | .error e => (.error e, s)
    | .ok (original, amount) =>
      match s.compareAmount who original with
      | .error e => (.error e, s)
      | .ok orig =>
        if 0 ≤ orig then
          let (j, s) := BankServiceHelper.createMoney who amount s
          (.ok (jsonReply j), s)
        else
          -- What was compared is the negated balance here, so this prints the balance.
          let j := JSONObject.error "Original amount did not pass verifications"
          (.ok (jsonReply (j.put "amount" (some (.number (-orig))))), s)

/-- `getAmount() == saldo`, where the left side is unboxed. -/
def amountIs (b : BankEntity) (saldo : Int64) : Except JavaException Bool :=
  match b.amount with
  | none => .error .nullPointer
  | some v => .ok (v == saldo)

/-- `beFrom.getAmount() == fromSaldo && beTo.getAmount() == toSaldo`. -/
def amountsAre (beFrom beTo : BankEntity) (fromSaldo toSaldo : Int64) : Except JavaException Bool :=
  match amountIs beFrom fromSaldo with
  -- The second amount is not looked at when the first one differs.
  | .ok true => amountIs beTo toSaldo
  | r => r

/-- `TRANSFER_MONEY`. -/
def executeTransferMoney (sender : JString) (fromSaldo : Int64) (receiver : JString)
    (toSaldo fromAmount toAmount : Int64) (s : BankRepository) : Outcome Reply :=
  match s.findByUserName sender, s.findByUserName receiver with
  | some beFrom, some beTo =>
    match amountsAre beFrom beTo fromSaldo toSaldo with
    | .error e => (.error e, s)
    | .ok true =>
      let (j, s) := BankServiceHelper.transferMoney sender fromAmount receiver toAmount s
      (j.map jsonReply, s)
    | .ok false =>
      let j := JSONObject.empty.put "error" (some (.bool true))
      let j := (j.put "fromSaldo" (beFrom.amount.map .number)).put "toSaldo"
        (beTo.amount.map .number)
      (.ok (jsonReply j), s)
  | _, _ => (.ok none, s)

/-- `CREATE_AUCTION`. -/
def executeCreateAuction (who : JString) (auctionID : JLong) (s : BankRepository) :
    Outcome Reply :=
  match s.findByUserName who, s.findByAuctionID auctionID with
  | some _, none =>
    let (j, s) := BankServiceHelper.createAuction auctionID who s
    (.ok (jsonReply j), s)
  | _, _ => (.ok none, s)

/-- `CLOSE_AUCTION`. -/
def executeCloseAuction (jvm : Jvm) (who : JString) (auctionID : JLong) (s : BankRepository) :
    Outcome Reply :=
  let (j, s) := BankServiceHelper.closeAution jvm auctionID who s
  (j.map jsonReply, s)

/-- The cases of the `switch` of `appExecuteOrdered` that work on the ledger. -/
def executeLedger (jvm : Jvm) (r : LedgerRequest) (s : BankRepository) : Outcome Reply :=
  match r with
  | .registerUser username rest => executeRegisterUser jvm username rest s
  | .createMoney who rest => executeCreateMoney who rest s
  | .transferMoney sender fromSaldo receiver toSaldo fromAmount toAmount =>
    executeTransferMoney sender fromSaldo receiver toSaldo fromAmount toAmount s
  | .createAuction who auctionID => executeCreateAuction who auctionID s
  | .closeAuction who auctionID => executeCloseAuction jvm who auctionID s

/-- The exceptions that the handlers around `createObjectFromFile` name. -/
def isLoading : JavaException → Bool
  | .io | .reflective => true
  | _ => false

/-- `CREATE_SMART_CONTRACT`. -/
def executeCreateSmartContract (jvm : Jvm) (who : JString) (code : List UInt8) (st : BankService) :
    Except JavaException Reply × SmartContractRunner :=
  match st.bankRepo.findByUserName who with
  | none => (.ok none, st.sR)
  | some _ =>
    match st.sR.createObjectFromFile jvm who code with
    | (.error e, sR) =>
      (if isLoading e then .ok (jsonReply JSONObject.empty) else .error e, sR)
    | (.ok cl, sR) =>
      let j := BankServiceHelper.validateCode jvm cl
      (.ok (jsonReply j), if j.has "error" then sR else sR.runContract cl who)

/-- `appExecuteOrdered(commandBytes, messageContext)`. -/
def appExecuteOrdered (jvm : Jvm) (command : Command) (st : BankService) :
    Except JavaException Reply × BankService :=
  match decodeOrdered command with
  | .error e =>
    let (reply, s) := finish (.error e, st.bankRepo)
    (reply, { st with bankRepo := s })
  | .ok (.ledger r) =>
    let (reply, s) := finish (executeLedger jvm r st.bankRepo)
    (reply, { st with bankRepo := s })
  | .ok (.createSmartContract who code) =>
    let (reply, sR) := executeCreateSmartContract jvm who code st
    let (reply, s) := finish (reply, st.bankRepo)
    (reply, ⟨s, sR⟩)
  -- The command is read again, from its beginning.
  | .ok .other =>
    let (reply, s) := appExecuteUnordered jvm command st.bankRepo
    (reply, { st with bankRepo := s })

/-- The execution of one request. -/
def access (jvm : Jvm) (a : Access) (st : BankService) : Except JavaException Reply × BankService :=
  match a with
  | .ordered command => st.appExecuteOrdered jvm command
  | .unordered command =>
    let (reply, s) := appExecuteUnordered jvm command st.bankRepo
    (reply, { st with bankRepo := s })

/-- An unordered request that is answered. The epilogue counts the version. -/
theorem access_of_answer (jvm : Jvm) (st : BankService) {command : Command} {q : Query}
    {reply : Reply} (hcommand : decodeUnordered command = .ok q)
    (h : answer jvm st.bankRepo q = .ok reply) :
    st.access jvm (.unordered command) = (.ok reply, { st with bankRepo := st.bankRepo.save }) := by
  have hquery : query jvm command st.bankRepo = .ok reply := by
    rw [query, hcommand]
    exact h
  simp only [access, appExecuteUnordered, finish, hquery]

/-! ## Snapshots -/

/-- `getSnapshot()`: the stream of the version, boxed. -/
def getSnapshot (st : BankService) : ObjectStream JObject := [.object (.int st.bankRepo.version)]

/-- `installSnapshot(snapshotStateBytes)`. The exceptions of the stream are caught, and the version
that is read is assigned. -/
def installSnapshot (snapshot : ObjectStream JObject) (st : BankService) :
    Except JavaException BankService :=
  match readObject snapshot with
  | .error e => if e.isStream then .ok st else .error e
  | .ok (.int v, _) => .ok { st with bankRepo := { st.bankRepo with version := v } }
  | .ok (.null, _) => .error .nullPointer
  | .ok (_, _) => .error .classCast

end BankService

end NovaBank.Replica
