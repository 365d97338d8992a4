import NovaBank.Proxy.Listing

/-!
# The requests of the proxy

Every request that an `invoke` method of
`csd/src/main/java/fct/unl/pt/csd/Controller/ClientRequestHandler.java` sends, with the arguments of
the method, and the case of the two `switch` statements of a replica that it gets to. Encoder and
decoder have no schema in common: they agree because each field is read in the order and with the
type with which it was written. `command_decodes`: the replica gets the arguments of the method in
their roles, where the password of `invokeCreateNew` was encoded by `BCryptPasswordEncoder` first. And
the replica replies what that case writes, after the epilogue (`reply_eq`).
-/

namespace NovaBank.Proxy

open Java Replica

/-- A Java `byte[]`, whose length is an `int`. -/
abbrev ByteArray := { bytes : List UInt8 // bytes.length < 2^31 }

/-- A call of an `invoke` method. The listings have a type of their own. -/
inductive ClientRequest where
  | createNew (username : JString) (password : String) (amount : JLong) (roles : Option (List JString))
  | createMoney (who : JString) (initialAmount finalAmount : Int64)
  | transferMoney (sender : JString) (fromSaldo : Int64) (receiver : JString)
      (toSaldo fromAmount toAmount : Int64)
  | createAuction (who : JString) (auctionID : JLong)
  | closeAuction (who : JString) (auctionID : JLong)
  | createBid (who : JString) (auctionID bidID amount : JLong)
  | createSmartContract (who : JString) (code : ByteArray)
  | findUser (username : JString)
  | checkCurrentAmount (username : JString)
  | list (l : Listing)
  | checkWinnerBidClosedAuction (auctionID : JLong)

/-- `invokeCreateBid(who, auctionID, bidID, amount)`. -/
def createBid (who : JString) (auctionID bidID amount : JLong) : Command :=
  [typeObject "CREATE_BID", stringObject who, longObject auctionID, longObject bidID, longObject amount]

namespace ClientRequest

/-- The command that the method writes, and the method of the library that it calls. `encode` is
`BCryptPasswordEncoder.encode`, whose result depends on a random salt. -/
def access (encode : String → String) : ClientRequest → Access
  | createNew username password amount roles =>
    .ordered (registerUser username (some (encode password)) amount roles)
  | createMoney who initialAmount finalAmount =>
    .ordered (Proxy.createMoney who initialAmount finalAmount)
  | transferMoney sender fromSaldo receiver toSaldo fromAmount toAmount =>
    .ordered (Proxy.transferMoney sender fromSaldo receiver toSaldo fromAmount toAmount)
  | createAuction who auctionID => .ordered (Proxy.createAuction who auctionID)
  | closeAuction who auctionID => .ordered (Proxy.closeAuction who auctionID)
  | createBid who auctionID bidID amount => .ordered (Proxy.createBid who auctionID bidID amount)
  | createSmartContract who code => .ordered (Proxy.createSmartContract who code.val)
  | findUser username => .unordered (queryCommand (.findUser username))
  | checkCurrentAmount username => .unordered (queryCommand (.checkCurrentAmount username))
  | list l => .unordered (queryCommand l.query)
  | checkWinnerBidClosedAuction auctionID =>
    .unordered (queryCommand (.checkWinnerBidClosedAuction auctionID))

end ClientRequest

/-- The case of a `switch` that a request gets to, with what is read there. -/
inductive Case where
  | ordered (r : Request)
  | unordered (q : Query)

/-- The case that a request gets to. An ordered request of another type is read again by
`appExecuteUnordered`. -/
def dispatch : Access → Except JavaException Case
  | .ordered command => do
    match ← decodeOrdered command with
    | .other => return .unordered (← decodeUnordered command)
    | r => return .ordered r
  | .unordered command => do return .unordered (← decodeUnordered command)

/-- The case of the request with the arguments of the method in their roles. The password is the
text `secret`. `CREATE_BID` has no case in either `switch`. -/
def ClientRequest.case (secret : String → String) : ClientRequest → Case
  | createNew username password amount roles =>
    .ordered (.ledger (.registerUser username (.ok (some (secret password), amount, roles))))
  | createMoney who initialAmount finalAmount =>
    .ordered (.ledger (.createMoney who (.ok (initialAmount, finalAmount))))
  | transferMoney sender fromSaldo receiver toSaldo fromAmount toAmount =>
    .ordered (.ledger (.transferMoney sender fromSaldo receiver toSaldo fromAmount toAmount))
  | createAuction who auctionID => .ordered (.ledger (.createAuction who auctionID))
  | closeAuction who auctionID => .ordered (.ledger (.closeAuction who auctionID))
  | createBid _ _ _ _ => .unordered .unsupported
  | createSmartContract who code => .ordered (.createSmartContract who code.val)
  | findUser username => .unordered (.findUser username)
  | checkCurrentAmount username => .unordered (.checkCurrentAmount username)
  | list l => .unordered l.query
  | checkWinnerBidClosedAuction auctionID => .unordered (.checkWinnerBidClosedAuction auctionID)

/-- `CREATE_BID` has no case among the ordered requests. -/
theorem decodeOrdered_createBid (who : JString) (auctionID bidID amount : JLong) :
    decodeOrdered (createBid who auctionID bidID amount) = .ok .other := by
  simp [decodeOrdered, createBid, bind, Except.bind, pure, Except.pure]

/-- Nor has it one among the unordered ones. -/
theorem decodeUnordered_createBid (who : JString) (auctionID bidID amount : JLong) :
    decodeUnordered (createBid who auctionID bidID amount) = .ok .unsupported := by
  simp [decodeUnordered, createBid, bind, Except.bind, pure, Except.pure]

/-- How a command is read, with the case that it gets to. -/
inductive Decodes : Access → Case → Prop where
  | ordered {command : Command} {r : Request} (read : decodeOrdered command = .ok r) (named : r ≠ .other) :
      Decodes (.ordered command) (.ordered r)
  /-- An ordered command of another type is read again. -/
  | reread {command : Command} {q : Query} (read : decodeOrdered command = .ok .other)
      (again : decodeUnordered command = .ok q) : Decodes (.ordered command) (.unordered q)
  | unordered {command : Command} {q : Query} (read : decodeUnordered command = .ok q) :
      Decodes (.unordered command) (.unordered q)

/-- The command is dispatched to that case. -/
theorem Decodes.dispatch_eq {a : Access} {c : Case} (h : Decodes a c) : dispatch a = .ok c := by
  -- A command that is not one of the ordered ones is read once more, from its start.
  cases h with
  | @ordered command r read named =>
    simp only [dispatch, read, bind, Except.bind]
    cases r with
    | other => exact absurd rfl named
    | ledger r => rfl
    | createSmartContract who code => rfl
  | reread read again =>
    simp only [dispatch, read, again]
    rfl
  | unordered read =>
    simp only [dispatch, read]
    rfl

/-- How the commands of the methods are read. -/
theorem decodes_access (encode : String → String) (q : ClientRequest) :
    Decodes (q.access encode) (q.case encode) := by
  -- A bid is sent as an ordered request, but it is read with the queries.
  cases q with
  | createNew username password amount roles =>
    exact .ordered (decodeOrdered_registerUser username _ amount roles) (by simp)
  | createMoney who initialAmount finalAmount =>
    exact .ordered (decodeOrdered_createMoney who initialAmount finalAmount) (by simp)
  | transferMoney sender fromSaldo receiver toSaldo fromAmount toAmount =>
    exact .ordered
      (decodeOrdered_transferMoney sender fromSaldo receiver toSaldo fromAmount toAmount) (by simp)
  | createAuction who auctionID => exact .ordered (decodeOrdered_createAuction who auctionID) (by simp)
  | closeAuction who auctionID => exact .ordered (decodeOrdered_closeAuction who auctionID) (by simp)
  | createBid who auctionID bidID amount =>
    exact .reread (decodeOrdered_createBid who auctionID bidID amount)
      (decodeUnordered_createBid who auctionID bidID amount)
  | createSmartContract who code =>
    exact .ordered (decodeOrdered_createSmartContract_eq who code.property) (by simp)
  | findUser username => exact .unordered (decodeUnordered_queryCommand _)
  | checkCurrentAmount username => exact .unordered (decodeUnordered_queryCommand _)
  | list l => exact .unordered (decodeUnordered_queryCommand _)
  | checkWinnerBidClosedAuction auctionID => exact .unordered (decodeUnordered_queryCommand _)

/-- **The round trip of the requests:** whatever the arguments of an `invoke` method are, the command
that it writes gets to the case of its request, which reads the arguments in their roles, with the
encoded password for the password. -/
theorem command_decodes (encode : String → String) (q : ClientRequest) :
    dispatch (q.access encode) = .ok (q.case encode) :=
  (decodes_access encode q).dispatch_eq

/-- The registration of `alice` with the password `abc`. -/
def aliceRegisters : ClientRequest := .createNew (some "alice") "abc" (some 10) none

/-- What `BCryptPasswordEncoder` makes of `abc` with one of its salts. -/
def abcEncoded : String := "$2a$10$WvvTPHKwdBJ3uk0Z37EMR.hLA2W6N9AEBhEgrAOljy2Ae5MtaSIUi"

/-- **The password itself is not sent:** the replica reads the encoded one, and not the argument of
the method. -/
theorem password_not_sent :
    dispatch (aliceRegisters.access fun _ => abcEncoded) =
        .ok (.ordered (.ledger (.registerUser (some "alice") (.ok (some abcEncoded, some 10, none))))) ∧
      dispatch (aliceRegisters.access fun _ => abcEncoded) ≠ .ok (aliceRegisters.case id) := by
  have hread : dispatch (aliceRegisters.access fun _ => abcEncoded) =
      .ok (.ordered (.ledger (.registerUser (some "alice") (.ok (some abcEncoded, some 10, none))))) :=
    (Decodes.ordered (decodeOrdered_registerUser _ _ _ _) (by simp)).dispatch_eq
  refine ⟨hread, ?_⟩
  rw [hread]
  simp [aliceRegisters, ClientRequest.case, abcEncoded]

/-! ## What a replica replies -/

/-- What the case of a request writes or throws, before the epilogue. No command gets to the case
`other`, which is read again as an unordered one. -/
def Case.result (jvm : Jvm) (st : BankService) : Case → Except JavaException Reply
  | .ordered (.ledger r) => (BankService.executeLedger jvm r st.bankRepo).1
  | .ordered (.createSmartContract who code) =>
    (BankService.executeCreateSmartContract jvm who code st).1
  | .ordered .other => .ok none
  | .unordered q => BankService.answer jvm st.bankRepo q

/-- What the epilogue makes of it: `null` after an exception of the streams. -/
def finished (result : Except JavaException Reply) : Except JavaException Reply :=
  match result with
  | .ok reply => .ok reply
  | .error e => if e.isStream then .ok none else .error e

/-- The epilogue makes `null` of an exception of the streams. -/
theorem finish_fst (x : Outcome Reply) : (BankService.finish x).1 = finished x.1 := by
  obtain ⟨r, s⟩ := x
  cases r with
  | ok reply => rfl
  | error e =>
    simp only [BankService.finish, finished]
    split_ifs <;> rfl

/-- A replica replies what the case of the request leads to. -/
theorem Decodes.reply_eq (jvm : Jvm) (st : BankService) {a : Access} {c : Case} (h : Decodes a c) :
    (st.access jvm a).1 = finished (c.result jvm st) := by
  have hquery : ∀ {command q}, decodeUnordered command = .ok q →
      (BankService.appExecuteUnordered jvm command st.bankRepo).1 =
        finished (BankService.answer jvm st.bankRepo q) := by
    intro command q hq
    rw [BankService.appExecuteUnordered, finish_fst]
    simp only [BankService.query, hq]
    rfl
  -- The ordered requests execute, the others only answer.
  cases h with
  | @ordered command r read named =>
    simp only [BankService.access, BankService.appExecuteOrdered, read]
    cases r with
    | other => exact absurd rfl named
    | ledger r => exact finish_fst _
    | createSmartContract who code => exact finish_fst _
  | reread read again =>
    simp only [BankService.access, BankService.appExecuteOrdered, read]
    exact hquery again
  | unordered read => exact hquery read

/-- What a replica replies to the request of an `invoke` method. -/
theorem reply_eq (jvm : Jvm) (st : BankService) (encode : String → String) (q : ClientRequest) :
    (st.access jvm (q.access encode)).1 = finished ((q.case encode).result jvm st) :=
  (decodes_access encode q).reply_eq jvm st

/-- A reply is what was written, or `null` after an exception of the streams. -/
theorem finished_eq_ok {result : Except JavaException Reply} {reply : Reply}
    (h : finished result = .ok reply) :
    result = .ok reply ∨ reply = none ∧ ∃ e, result = .error e ∧ e.isStream = true := by
  cases result with
  | ok r => exact .inl h
  | error e =>
    simp only [finished] at h
    split_ifs at h with he
    cases h
    exact .inr ⟨rfl, e, rfl, he⟩

end NovaBank.Proxy
