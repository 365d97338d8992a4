import NovaBank.Replica.Request

/-!
# The commands that the proxy sends

What the `invoke` methods of
`csd/src/main/java/fct/unl/pt/csd/Controller/ClientRequestHandler.java` write for each request, and
that a replica reads from it the request with the same fields. The commands are named after the
requests.
-/

namespace NovaBank.Proxy

open Java Replica

/-- `writeObject` of a string that may be `null`. -/
def stringObject (s : JString) : Token JObject :=
  .object (match s with
    | none => .null
    | some s => .str s)

/-- `writeObject` of a `Long` that may be `null`. -/
def longObject (v : JLong) : Token JObject :=
  .object (match v with
    | none => .null
    | some v => .long v)

/-- `writeObject` of an array of strings that may be `null`. -/
def stringsObject (l : Option (List JString)) : Token JObject :=
  .object (match l with
    | none => .null
    | some l => .strings l)

/-- `writeObject` of the name of a request. -/
def typeObject (name : String) : Token JObject := .object (.str name)

/-! ## Ordered requests -/

/-- `invokeCreateNew(username, password, amount, roles)`, with the encoded password. -/
def registerUser (username password : JString) (amount : JLong) (roles : Option (List JString)) :
    Command :=
  [typeObject "REGISTER_USER", stringObject username, stringObject password, longObject amount,
    stringsObject roles]

/-- `invokeCreateMoney(who, initialAmount, finalAmount)`. -/
def createMoney (who : JString) (initialAmount finalAmount : Int64) : Command :=
  typeObject "CREATE_MONEY" :: stringObject who :: (writeLong initialAmount ++ writeLong finalAmount)

/-- `invokeTransferMoney(from, fromSaldo, to, toSaldo, fromAmount, toAmount)`. -/
def transferMoney (sender : JString) (fromSaldo : Int64) (receiver : JString)
    (toSaldo fromAmount toAmount : Int64) : Command :=
  typeObject "TRANSFER_MONEY" :: stringObject sender :: (writeLong fromSaldo ++
    stringObject receiver :: (writeLong toSaldo ++ (writeLong fromAmount ++ writeLong toAmount)))

/-- `invokeCreateAuction(who, auctionID)`. -/
def createAuction (who : JString) (auctionID : JLong) : Command :=
  [typeObject "CREATE_AUCTION", stringObject who, longObject auctionID]

/-- `invokeCloseAuction(who, auctionID)`. -/
def closeAuction (who : JString) (auctionID : JLong) : Command :=
  [typeObject "CLOSE_AUCTION", stringObject who, longObject auctionID]

/-- `invokeCreateSmartContract(who, code)`. -/
def createSmartContract (who : JString) (code : List UInt8) : Command :=
  typeObject "CREATE_SMART_CONTRACT" :: stringObject who ::
    (writeInt (Int32.ofNat code.length) ++ writeBytes code)

/-! ## Unordered requests -/

/-- The command of an unordered request, as the `invoke` method of the request writes it. -/
def queryCommand : Query → Command
  | .findUser username => [typeObject "FIND_USER", stringObject username]
  | .listAllBankAccounts => [typeObject "LIST_ALL_BANK_ACCOUNTS"]
  | .checkCurrentAmount who => [typeObject "CHECK_CURRENT_AMOUNT", stringObject who]
  | .listAllCurrentOpenedAuctions => [typeObject "LIST_ALL_CURRENT_OPENED_AUCTIONS"]
  | .listAllCurrentClosedAuctions => [typeObject "LIST_ALL_CURRENT_CLOSED_AUCTIONS"]
  | .listAllBidsFromAuction auctionID =>
    [typeObject "LIST_ALL_BIDS_FROM_AUCTION", longObject auctionID]
  | .listAllBidsFromUser who => [typeObject "LIST_ALL_BIDS_FROM_USER", stringObject who]
  | .checkWinnerBidClosedAuction auctionID =>
    [typeObject "CHECK_WINNER_BID_CLOSED_AUCTION", longObject auctionID]
  | .unsupported => [typeObject "UNSUPPORTED"]

/-! ## The replica reads what was written -/

/-- A string is read back from its object. -/
@[simp] theorem readAs_stringObject (s : JString) (c : Command) :
    readAs JObject.asString (stringObject s :: c) = .ok (s, c) := by
  cases s <;> rfl

/-- A `Long` is read back from its object. -/
@[simp] theorem readAs_longObject (v : JLong) (c : Command) :
    readAs JObject.asLong (longObject v :: c) = .ok (v, c) := by
  cases v <;> rfl

/-- A list of strings is read back from its object. -/
@[simp] theorem readAs_stringsObject (l : Option (List JString)) (c : Command) :
    readAs JObject.asStrings (stringsObject l :: c) = .ok (l, c) := by
  cases l <;> rfl

/-- The type is read back from its object. -/
@[simp] theorem readType_typeObject (name : String) (c : Command) :
    readType (typeObject name :: c) = .ok (name, c) := rfl

/-- The last `long` of a command is read back. -/
theorem readLong_writeLong_nil (v : Int64) :
    readLong (writeLong v : Command) = .ok (v, []) := by
  simpa using readLong_writeLong v ([] : Command)

/-- A registration is read as it was written. -/
theorem decodeOrdered_registerUser (username password : JString) (amount : JLong)
    (roles : Option (List JString)) :
    decodeOrdered (registerUser username password amount roles) =
      .ok (.ledger (.registerUser username (.ok (password, amount, roles)))) := by
  simp [decodeOrdered, registerUser, readRegistration, bind, Except.bind, pure, Except.pure]

/-- A deposit is read as it was written. -/
theorem decodeOrdered_createMoney (who : JString) (initialAmount finalAmount : Int64) :
    decodeOrdered (createMoney who initialAmount finalAmount) =
      .ok (.ledger (.createMoney who (.ok (initialAmount, finalAmount)))) := by
  simp [decodeOrdered, createMoney, readAmounts, readLong_writeLong_nil, bind, Except.bind, pure,
    Except.pure]

/-- A transfer is read as it was written. -/
theorem decodeOrdered_transferMoney (sender : JString) (fromSaldo : Int64) (receiver : JString)
    (toSaldo fromAmount toAmount : Int64) :
    decodeOrdered (transferMoney sender fromSaldo receiver toSaldo fromAmount toAmount) =
      .ok (.ledger (.transferMoney sender fromSaldo receiver toSaldo fromAmount toAmount)) := by
  simp [decodeOrdered, transferMoney, readTransfer, readLong_writeLong_nil, bind, Except.bind, pure,
    Except.pure]

/-- The request for an auction is read as it was written. -/
theorem decodeOrdered_createAuction (who : JString) (auctionID : JLong) :
    decodeOrdered (createAuction who auctionID) = .ok (.ledger (.createAuction who auctionID)) := by
  simp [decodeOrdered, createAuction, readUserAndAuction, bind, Except.bind, pure, Except.pure]

/-- The request to close one is read as it was written. -/
theorem decodeOrdered_closeAuction (who : JString) (auctionID : JLong) :
    decodeOrdered (closeAuction who auctionID) = .ok (.ledger (.closeAuction who auctionID)) := by
  simp [decodeOrdered, closeAuction, readUserAndAuction, bind, Except.bind, pure, Except.pure]

/-- An upload is read as one, if it is read at all. -/
theorem decodeOrdered_createSmartContract {who : JString} {code : List UInt8} {request : Request}
    (h : decodeOrdered (createSmartContract who code) = .ok request) :
    ∃ code', request = .createSmartContract who code' := by
  have hread : decodeOrdered (createSmartContract who code) =
      readContract (stringObject who ::
        (writeInt (Int32.ofNat code.length) ++ writeBytes code)) := by
    simp [decodeOrdered, createSmartContract, bind, Except.bind]
  rw [hread] at h
  obtain ⟨⟨who', c⟩, hwho, h⟩ := bind_eq_ok h
  rw [readAs_stringObject] at hwho
  cases hwho
  obtain ⟨⟨size, c'⟩, -, h⟩ := bind_eq_ok h
  -- A negative size throws, and a short stream gives fewer bytes.
  dsimp only at h
  split_ifs at h
  · cases h
  · obtain ⟨⟨code', c''⟩, -, h⟩ := bind_eq_ok h
    cases h
    exact ⟨code', rfl⟩

/-- The code of an upload is read back, as an array has fewer than `2^31` elements. -/
theorem decodeOrdered_createSmartContract_eq (who : JString) {code : List UInt8}
    (h : code.length < 2^31) :
    decodeOrdered (createSmartContract who code) = .ok (.createSmartContract who code) := by
  have hlength : (Int32.ofNat code.length).toNatClampNeg = code.length :=
    Int32.toNatClampNeg_ofNat_of_lt h
  have hsize : ¬ Int32.ofNat code.length < 0 := by
    rw [Int32.lt_iff_toInt_lt, Int32.toInt_ofNat_of_lt h, Int32.toInt_zero]
    omega
  have hcode : readFully code.length (writeBytes code : Command) = .ok (code, []) := by
    simpa using readFully_writeBytes code ([] : Command)
  simp [decodeOrdered, createSmartContract, readContract, hsize, hlength, hcode, bind, Except.bind,
    pure, Except.pure]

/-- A query is read as it was written. -/
theorem decodeUnordered_queryCommand (q : Query) : decodeUnordered (queryCommand q) = .ok q := by
  cases q <;> simp [decodeUnordered, queryCommand, bind, Except.bind, pure, Except.pure]

end NovaBank.Proxy
