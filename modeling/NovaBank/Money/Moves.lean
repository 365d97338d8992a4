import NovaBank.Money.Effects
import NovaBank.Proxy.Rest

/-!
# What a move writes

The ways in which a balance is written: by the requests that the REST controller builds, and by the
operations of contracts. `Writes` says for each of them which balance is written, from which value
and by how much, read off the request or the words of the operation and the state that they meet.
The new balance is the wrapped sum (`balanceOf_of_writes`), and every other balance is left alone
(`writes_of_ne`).
-/

namespace NovaBank.Money

open Java Replica Proxy

/-- A step that may move money. The ordered `CREATE_BID`, for which the `switch` has no case and which
changes nothing but the version, is left out. -/
inductive Move where
  | rest (r : Rest)
  /-- `CREATE_AUCTION`, which the client library sends but the controller does not. -/
  | createAuction (who : JString) (auctionID : JLong)
  /-- The operation `op` of the contract `i`, executed at the time `now`. -/
  | operation (now : Int64) (i : Int32) (op : String)

/-- The move as a step of a replica. -/
def Move.action : Move → Action
  | rest r => .ordered r.command
  | createAuction who auctionID => .ordered (Proxy.createAuction who auctionID)
  | operation now i op => .operation now i op

/-- The move writes the balance of a user: the value `base` and `delta` more. -/
inductive Writes (jvm : Jvm) (st : BankService) : Move → JString → Int64 → ℤ → Prop where
  /-- A new account gets its first amount. -/
  | created (userName password : JString) (amount : Int64) (roles : Option (List JString))
      (b : BankEntity) (free : st.bankRepo.findByUserName userName = none)
      (account : BankEntity.new jvm userName password (some amount) roles = .ok b) :
      Writes jvm st (.rest (.createNew userName password (some amount) roles)) userName 0 amount.toInt
  /-- A deposit that passes the comparison of its user's balance writes the cached balance. -/
  | deposited (subject who : JString) (money amount v : Int64)
      (balance : balanceOf st.bankRepo who = some v) (passes : 0 ≤ if v = money then v else -v) :
      Writes jvm st (.rest (.createMoney subject who money amount)) who money amount.toInt
  /-- The sender of a transfer whose cached balances are right. -/
  | sent (subject sender receiver : JString) (fromSaldo toSaldo amount : Int64)
      (distinct : sender ≠ receiver) (balance : balanceOf st.bankRepo sender = some fromSaldo)
      (toBalance : balanceOf st.bankRepo receiver = some toSaldo) :
      Writes jvm st (.rest (.transferMoney subject sender receiver fromSaldo toSaldo amount)) sender
        fromSaldo (-amount.toInt)
  /-- The receiver of such a transfer. -/
  | received (subject sender receiver : JString) (fromSaldo toSaldo amount : Int64)
      (balance : balanceOf st.bankRepo sender = some fromSaldo)
      (toBalance : balanceOf st.bankRepo receiver = some toSaldo) :
      Writes jvm st (.rest (.transferMoney subject sender receiver fromSaldo toSaldo amount)) receiver
        toSaldo amount.toInt
  /-- The owner of an auction that is closed gets the last bid. -/
  | paid (subject : JString) (id : JLong) (r : AuctionRef) (v : Int64)
      (closes : Closes jvm id subject st.bankRepo r)
      (balance : balanceOf st.bankRepo (st.bankRepo.auction r).ownerUsername = some v) :
      Writes jvm st (.rest (.closeAuction subject id)) (st.bankRepo.auction r).ownerUsername v
        (st.bankRepo.auction r).getLastBidAmount.toInt
  /-- `CREATE_MONEY` of a contract. -/
  | contractDeposited (now : Int64) (i : Int32) (op : String) (www : JString) (amount v : Int64)
      (user : Action.onBehalfOf st i = some www) (name : word (split " " op) 0 = .ok "CREATE_MONEY")
      (asked : longWord (split " " op) 1 = .ok amount) (balance : balanceOf st.bankRepo www = some v) :
      Writes jvm st (.operation now i op) www v amount.toInt
  /-- The sender of `TRANSFER_MONEY` of a contract, who has enough. -/
  | contractSent (now : Int64) (i : Int32) (op receiver : String) (www : JString) (amount v w : Int64)
      (user : Action.onBehalfOf st i = some www)
      (name : word (split " " op) 0 = .ok "TRANSFER_MONEY")
      (target : word (split " " op) 1 = .ok receiver) (asked : longWord (split " " op) 2 = .ok amount)
      (distinct : www ≠ some receiver) (balance : balanceOf st.bankRepo www = some v)
      (toBalance : balanceOf st.bankRepo (some receiver) = some w) (enough : 0 ≤ v - amount) :
      Writes jvm st (.operation now i op) www v (-amount.toInt)
  /-- The receiver of such a transfer. -/
  | contractReceived (now : Int64) (i : Int32) (op receiver : String) (www : JString)
      (amount v w : Int64) (user : Action.onBehalfOf st i = some www)
      (name : word (split " " op) 0 = .ok "TRANSFER_MONEY")
      (target : word (split " " op) 1 = .ok receiver) (asked : longWord (split " " op) 2 = .ok amount)
      (balance : balanceOf st.bankRepo www = some v)
      (toBalance : balanceOf st.bankRepo (some receiver) = some w) (enough : 0 ≤ v - amount) :
      Writes jvm st (.operation now i op) (some receiver) w amount.toInt
  /-- The bidder of an accepted `BID` of a contract. -/
  | bid (now : Int64) (i : Int32) (op : String) (www : JString) (id amount : Int64) (r : AuctionRef)
      (v : Int64)
      (asks : (Action.operation now i op).asks jvm st = some (.call (.createBid id id amount www)))
      (accepts : AcceptsBid jvm id amount www st.bankRepo r v) :
      Writes jvm st (.operation now i op) www v (-amount.toInt)
  /-- The owner of an auction that `CLOSE_AUCTION` of a contract closes. -/
  | contractPaid (now : Int64) (i : Int32) (op : String) (www : JString) (id : JLong) (r : AuctionRef)
      (v : Int64) (asks : (Action.operation now i op).asks jvm st = some (.call (.closeAution id www)))
      (closes : Closes jvm id www st.bankRepo r)
      (balance : balanceOf st.bankRepo (st.bankRepo.auction r).ownerUsername = some v) :
      Writes jvm st (.operation now i op) (st.bankRepo.auction r).ownerUsername v
        (st.bankRepo.auction r).getLastBidAmount.toInt

/-! ## What the moves ask for -/

section Asks

variable {jvm : Jvm} {st : BankService}

/-- The balance that a contract operation reads is that of the user. -/
theorem balance_eq_ok_iff {s : BankRepository} {u : JString} {v : Int64} :
    s.balance u = .ok v ↔ balanceOf s u = some v := by
  constructor
  · intro h
    obtain ⟨b, hb, hv⟩ := user_of_balance h
    simp [balanceOf, hb, hv]
  · intro h
    obtain ⟨b, hb, hv⟩ := find_of_balanceOf h
    simp [BankRepository.balance, BankRepository.user, hb, hv, bind, Except.bind, pure, Except.pure]

/-- A deposit asks for its new balance when the comparison passes. -/
theorem asks_createMoney_iff {subject who : JString} {money amount : Int64} {a : Ask} :
    (Move.rest (.createMoney subject who money amount)).action.asks jvm st = some a ↔
      (∃ v, balanceOf st.bankRepo who = some v ∧ 0 ≤ if v = money then v else -v) ∧
        a = .call (.createMoney who (money + amount)) := by
  simp only [Move.action, Rest.command, Action.asks, decodeOrdered_createMoney, LedgerRequest.asks]
  -- The comparison is made on the account, and only when there is one.
  cases hb : st.bankRepo.findByUserName who with
  | none => simp [balanceOf, hb]
  | some b =>
    cases ha : b.amount with
    | none => simp [balanceOf, BankRepository.compareAmount, hb, ha]
    | some v =>
      have hbal : balanceOf st.bankRepo who = some v := by simp [balanceOf, hb, ha]
      simp only [compareAmount_eq hbal, hbal, Option.some.injEq, exists_eq_left']
      split_ifs <;> simp_all [eq_comm]

/-- A transfer asks for its new balances when the old ones are right. -/
theorem asks_transferMoney_iff {subject sender receiver : JString} {fromSaldo toSaldo amount : Int64}
    {a : Ask} :
    (Move.rest (.transferMoney subject sender receiver fromSaldo toSaldo amount)).action.asks jvm st =
        some a ↔
      (balanceOf st.bankRepo sender = some fromSaldo ∧ balanceOf st.bankRepo receiver = some toSaldo) ∧
        a = .call (.transferMoney sender (fromSaldo - amount) receiver (toSaldo + amount)) := by
  simp only [Move.action, Rest.command, Action.asks, decodeOrdered_transferMoney,
    LedgerRequest.asks]
  -- The request is refused unless both amounts are as given.
  constructor
  · intro h
    split at h
    · rename_i b c hb hc
      split at h
      · rename_i hsame
        obtain ⟨hv, hw⟩ := amountsAre_true hsame
        cases h
        simp [balanceOf, hb, hc, hv, hw]
      · cases h
    · cases h
  · rintro ⟨⟨hv, hw⟩, rfl⟩
    obtain ⟨b, hb, hv⟩ := find_of_balanceOf hv
    obtain ⟨c, hc, hw⟩ := find_of_balanceOf hw
    have hsame : BankService.amountsAre b c fromSaldo toSaldo = .ok true := by
      simp [BankService.amountsAre, BankService.amountIs, hv, hw]
    simp only [hb, hc, hsame]

/-- A registration asks for the new account when the name is free. -/
theorem asks_createNew_iff {userName password : JString} {amount : JLong}
    {roles : Option (List JString)} {a : Ask} :
    (Move.rest (.createNew userName password amount roles)).action.asks jvm st = some a ↔
      st.bankRepo.findByUserName userName = none ∧
        ∃ b, BankEntity.new jvm userName password amount roles = .ok b ∧ a = .register b := by
  simp only [Move.action, Rest.command, Action.asks, decodeOrdered_registerUser, LedgerRequest.asks]
  cases st.bankRepo.findByUserName userName with
  | some b => simp
  | none =>
    cases hnew : BankEntity.new jvm userName password amount roles with
    | error e => simp [Except.toOption, hnew]
    | ok b => simp [Except.toOption, hnew, eq_comm]

/-- The end of an auction is always asked for. -/
theorem asks_closeAuction (subject : JString) (id : JLong) :
    (Move.rest (.closeAuction subject id)).action.asks jvm st =
      some (.call (.closeAution id subject)) := by
  simp only [Move.action, Rest.command, Action.asks, decodeOrdered_closeAuction, LedgerRequest.asks]

/-- An upload asks for nothing of the ledger. -/
theorem asks_smartContract (subject : JString) (data : List UInt8) :
    (Move.rest (.smartContract subject data)).action.asks jvm st = none := by
  simp only [Move.action, Rest.command, Action.asks]
  split
  · rename_i r hr
    obtain ⟨code, h⟩ := decodeOrdered_createSmartContract hr
    cases h
  · rfl

/-- `CREATE_MONEY` of a contract asks for the sum. -/
theorem asks_contractDeposit {now : Int64} {i : Int32} {op : String} {www : JString}
    {amount v : Int64} (user : Action.onBehalfOf st i = some www)
    (name : word (split " " op) 0 = .ok "CREATE_MONEY")
    (asked : longWord (split " " op) 1 = .ok amount) (balance : balanceOf st.bankRepo www = some v) :
    (Action.operation now i op).asks jvm st = some (.call (.createMoney www (v + amount))) := by
  have hcall : (st.sR.clearOperations i).dispatch jvm st.bankRepo i www (split " " op) =
      .ok (some (.createMoney www (v + amount))) := by
    simp [SmartContractRunner.dispatch, SmartContractRunner.callCreateMoney, name, asked,
      balance_eq_ok_iff.mpr balance, bind, Except.bind, pure, Except.pure]
  simp only [Action.asks, user, hcall]

/-- `TRANSFER_MONEY` of a contract asks for both new balances, if the sender has enough. -/
theorem asks_contractTransfer {now : Int64} {i : Int32} {op receiver : String} {www : JString}
    {amount v w : Int64} (user : Action.onBehalfOf st i = some www)
    (name : word (split " " op) 0 = .ok "TRANSFER_MONEY")
    (target : word (split " " op) 1 = .ok receiver) (asked : longWord (split " " op) 2 = .ok amount)
    (balance : balanceOf st.bankRepo www = some v)
    (toBalance : balanceOf st.bankRepo (some receiver) = some w) (enough : 0 ≤ v - amount) :
    (Action.operation now i op).asks jvm st =
      some (.call (.transferMoney www (v - amount) (some receiver) (amount + w))) := by
  obtain ⟨b, hb, -⟩ := find_of_balanceOf balance
  -- The balances of both sides are read before the call.
  have huser : st.bankRepo.user www = .ok b := by simp [BankRepository.user, hb]
  have hcall : (st.sR.clearOperations i).dispatch jvm st.bankRepo i www (split " " op) =
      .ok (some (.transferMoney www (v - amount) (some receiver) (amount + w))) := by
    simp [SmartContractRunner.dispatch, SmartContractRunner.callTransferMoney, name, asked, target,
      huser, balance_eq_ok_iff.mpr balance, balance_eq_ok_iff.mpr toBalance, enough, bind, Except.bind,
      pure, Except.pure]
  simp only [Action.asks, user, hcall]

end Asks

/-! ## The new balance -/

section Effect

variable {jvm : Jvm} {st : BankService} {x : Move} {u : JString} {base : Int64} {delta : ℤ}

/-- A balance that is written becomes the wrapped sum. -/
theorem balanceOf_of_writes (h : Indexed st.bankRepo)
    (writes : Writes jvm st x u base delta) :
    balanceOf (x.action.run jvm st).bankRepo u = some (Int64.ofInt (base.toInt + delta)) := by
  -- One case for each way in which a move writes an account.
  cases writes with
  | created userName password amount roles b free account =>
    rw [balanceOf_run, asks_createNew_iff.mpr ⟨free, b, account, rfl⟩]
    show balanceOf (st.bankRepo.newUserBankEntity b) u = _
    rw [balanceOf_newUserBankEntity, BankEntity.userName_of_new account, if_pos rfl,
      BankEntity.amount_of_new account, ofInt_toInt_add, zero_add]
  | deposited subject who money amount v balance passes =>
    obtain ⟨b, hb, -⟩ := find_of_balanceOf balance
    rw [balanceOf_run, asks_createMoney_iff.mpr ⟨⟨v, balance, passes⟩, rfl⟩, ofInt_toInt_add]
    exact (balanceOf_createMoney hb _ u).trans (if_pos rfl)
  | sent subject sender receiver fromSaldo toSaldo amount distinct balance toBalance =>
    obtain ⟨b, hb, -⟩ := find_of_balanceOf balance
    obtain ⟨c, hc, -⟩ := find_of_balanceOf toBalance
    rw [balanceOf_run, asks_transferMoney_iff.mpr ⟨⟨balance, toBalance⟩, rfl⟩, ofInt_toInt_sub]
    refine (balanceOf_transferMoney hb hc _ _ u).trans ?_
    rw [if_neg distinct.symm, if_pos rfl]
  | received subject sender receiver fromSaldo toSaldo amount balance toBalance =>
    obtain ⟨b, hb, -⟩ := find_of_balanceOf balance
    obtain ⟨c, hc, -⟩ := find_of_balanceOf toBalance
    rw [balanceOf_run, asks_transferMoney_iff.mpr ⟨⟨balance, toBalance⟩, rfl⟩, ofInt_toInt_add]
    exact (balanceOf_transferMoney hb hc _ _ u).trans (if_pos rfl)
  | paid subject id r v closes balance =>
    rw [balanceOf_closeAution h (asks_closeAuction subject id) closes, balance, if_pos rfl,
      ofInt_toInt_add]
    rfl
  | contractDeposited now i op www amount v user name asked balance =>
    obtain ⟨b, hb, -⟩ := find_of_balanceOf balance
    rw [Move.action, balanceOf_run, asks_contractDeposit user name asked balance, ofInt_toInt_add]
    exact (balanceOf_createMoney hb _ u).trans (if_pos rfl)
  | contractSent now i op receiver www amount v w user name target asked distinct balance toBalance
      enough =>
    obtain ⟨b, hb, -⟩ := find_of_balanceOf balance
    obtain ⟨c, hc, -⟩ := find_of_balanceOf toBalance
    rw [Move.action, balanceOf_run,
      asks_contractTransfer user name target asked balance toBalance enough, ofInt_toInt_sub]
    refine (balanceOf_transferMoney hb hc _ _ u).trans ?_
    rw [if_neg distinct.symm, if_pos rfl]
  | contractReceived now i op receiver www amount v w user name target asked balance toBalance
      enough =>
    obtain ⟨b, hb, -⟩ := find_of_balanceOf balance
    obtain ⟨c, hc, -⟩ := find_of_balanceOf toBalance
    rw [Move.action, balanceOf_run,
      asks_contractTransfer user name target asked balance toBalance enough, ofInt_toInt_add,
      add_comm]
    exact (balanceOf_transferMoney hb hc _ _ _).trans (if_pos rfl)
  | bid now i op www id amount r v asks accepts =>
    rw [Move.action, balanceOf_run, asks, ofInt_toInt_sub]
    show balanceOf (BankServiceHelper.createBid jvm now id id amount u st.bankRepo).2 u = _
    rcases createBid_iff_cases jvm h now id id amount u with ⟨-, hno, -⟩ | ⟨q, w, hbid, hs, -⟩
    · exact (hno r base accepts).elim
    · rw [hs, balanceOf_acceptBid h hbid, if_pos rfl,
        Option.some.inj (hbid.2.2.1.symm.trans accepts.2.2.1)]
  | contractPaid now i op www id r v asks closes balance =>
    rw [Move.action, balanceOf_closeAution h asks closes, balance, if_pos rfl, ofInt_toInt_add]
    rfl

/-- The change is an amount or its negation. -/
theorem Writes.delta_bounds (h : Writes jvm st x u base delta) : -2^63 ≤ delta ∧ delta ≤ 2^63 := by
  have hadd : ∀ a : Int64, -2^63 ≤ a.toInt ∧ a.toInt ≤ 2^63 := fun a =>
    ⟨a.le_toInt, a.toInt_lt.le⟩
  have hsub : ∀ a : Int64, -2^63 ≤ -a.toInt ∧ -a.toInt ≤ 2^63 := fun a =>
    ⟨neg_le_neg a.toInt_lt.le, neg_le.mp a.le_toInt⟩
  cases h with
  | created | deposited | received | paid | contractDeposited | contractReceived | contractPaid =>
    exact hadd _
  | sent | contractSent | bid => exact hsub _

/-- The sum of a balance and a change has 65 bits. -/
theorem Writes.sum_bounds (h : Writes jvm st x u base delta) :
    -2^64 ≤ base.toInt + delta ∧ base.toInt + delta < 2^64 := by
  obtain ⟨hlo, hhi⟩ := h.delta_bounds
  have := base.le_toInt
  have := base.toInt_lt
  constructor <;> omega

/-- A balance that the end of an auction changes is that of its owner. -/
theorem owner_of_closeAution (h : Indexed st.bankRepo) {a : Action} {id : JLong} {who : JString}
    (asks : a.asks jvm st = some (.call (.closeAution id who)))
    (hne : balanceOf (a.run jvm st).bankRepo u ≠ balanceOf st.bankRepo u) :
    ∃ r v, Closes jvm id who st.bankRepo r ∧ (st.bankRepo.auction r).ownerUsername = u ∧
      balanceOf st.bankRepo u = some v := by
  obtain ⟨r, hcloses, howner⟩ := concerns_of_ne h asks hne
  rw [balanceOf_closeAution h asks hcloses] at hne
  cases hv : balanceOf st.bankRepo u with
  | none => simp [hv] at hne
  | some v => exact ⟨r, v, hcloses, howner, rfl⟩

/-- A balance that the operation of a contract changes is one that it writes. -/
theorem writes_of_operation (h : Indexed st.bankRepo) {now : Int64} {i : Int32} {op : String}
    (hne : balanceOf ((Action.operation now i op).run jvm st).bankRepo u ≠ balanceOf st.bankRepo u) :
    ∃ base delta, Writes jvm st (.operation now i op) u base delta := by
  cases hasks : (Action.operation now i op).asks jvm st with
  | none =>
    rw [balanceOf_run, hasks] at hne
    exact (hne rfl).elim
  | some a =>
    obtain ⟨www, call, rfl, user, hcall⟩ := Action.asks_operation hasks
    -- The user that the operation is carried out for is the one of the calls.
    cases hcall with
    | createMoney old amount name balance asked =>
      obtain rfl : www = u := concerns_of_ne h hasks hne
      exact ⟨_, _, .contractDeposited now i op www amount old user name asked
        (balance_eq_ok_iff.mp balance)⟩
    | transferMoney old toOld amount receiver name balance asked enough target toBalance =>
      have hbalance := balance_eq_ok_iff.mp balance
      have htoBalance := balance_eq_ok_iff.mp toBalance
      -- A transfer to oneself is counted as a receipt, since this balance is written last.
      by_cases hreceiver : some receiver = u
      · subst hreceiver
        exact ⟨_, _, .contractReceived now i op receiver www amount old toOld user name target asked
          hbalance htoBalance enough⟩
      · obtain rfl : www = u := (concerns_of_ne h hasks hne).resolve_right hreceiver
        exact ⟨_, _, .contractSent now i op receiver www amount old toOld user name target asked
          (Ne.symm hreceiver) hbalance htoBalance enough⟩
    | createAuction name => exact (concerns_of_ne h hasks hne).elim
    | createBid id amount name auction asked =>
      rw [balanceOf_run, hasks] at hne
      change balanceOf (BankServiceHelper.createBid jvm now id id amount www st.bankRepo).2 u ≠ _ at hne
      rcases createBid_iff_cases jvm h now id id amount www with ⟨hs, -⟩ | ⟨r, v, hbid, hs, -⟩
      · exact (hne (by rw [hs])).elim
      · have hwho : www = u := by
          by_contra e
          exact hne (by rw [hs, balanceOf_acceptBid h hbid, if_neg e])
        subst hwho
        exact ⟨_, _, .bid now i op www id amount r v hasks hbid⟩
    | closeAution id name auction =>
      obtain ⟨r, v, hcloses, rfl, hv⟩ := owner_of_closeAution h hasks hne
      exact ⟨_, _, .contractPaid now i op www (some id) r v hasks hcloses hv⟩

/-- A balance that a move changes is one that it writes. -/
theorem writes_of_ne (h : Indexed st.bankRepo)
    (hne : balanceOf (x.action.run jvm st).bankRepo u ≠ balanceOf st.bankRepo u) :
    ∃ base delta, Writes jvm st x u base delta := by
  -- A request that is refused asks for nothing, and so it changes no balance.
  cases x with
  | operation now i op => exact writes_of_operation h hne
  | createAuction who auctionID =>
    have hasks : ∀ a, (Move.createAuction who auctionID).action.asks jvm st = some a →
        a = .call (.createAuction auctionID who) := by
      intro a ha
      simp only [Move.action, Action.asks, decodeOrdered_createAuction] at ha
      cases LedgerRequest.requested_of_asks ha
      rfl
    cases ha : (Move.createAuction who auctionID).action.asks jvm st with
    | none =>
      rw [balanceOf_run, ha] at hne
      exact (hne rfl).elim
    | some a =>
      rw [hasks a ha] at ha
      exact (concerns_of_ne h ha hne).elim
  | rest r =>
    cases hasks : (Move.rest r).action.asks jvm st with
    | none =>
      rw [balanceOf_run, hasks] at hne
      exact (hne rfl).elim
    | some a =>
      cases r with
      | createNew userName password amount roles =>
        obtain ⟨free, b, hnew, rfl⟩ := asks_createNew_iff.mp hasks
        rw [balanceOf_run, hasks] at hne
        change balanceOf (st.bankRepo.newUserBankEntity b) u ≠ _ at hne
        rw [balanceOf_newUserBankEntity, BankEntity.userName_of_new hnew,
          BankEntity.amount_of_new hnew] at hne
        -- Only the name of the new account can differ.
        have hname : userName = u := by
          by_contra e
          exact hne (if_neg e)
        subst hname
        rw [if_pos rfl, balanceOf, free] at hne
        obtain ⟨v, rfl⟩ := Option.ne_none_iff_exists'.mp hne
        exact ⟨_, _, .created userName password v roles b free hnew⟩
      | transferMoney subject sender receiver fromSaldo toSaldo amount =>
        obtain ⟨⟨hv, hw⟩, rfl⟩ := asks_transferMoney_iff.mp hasks
        by_cases hreceiver : receiver = u
        · subst hreceiver
          exact ⟨_, _, .received subject sender receiver fromSaldo toSaldo amount hv hw⟩
        · obtain rfl : sender = u := (concerns_of_ne h hasks hne).resolve_right hreceiver
          exact ⟨_, _, .sent subject sender receiver fromSaldo toSaldo amount (Ne.symm hreceiver) hv
            hw⟩
      | createMoney subject who money amount =>
        obtain ⟨⟨v, hv, hpasses⟩, rfl⟩ := asks_createMoney_iff.mp hasks
        obtain rfl : who = u := concerns_of_ne h hasks hne
        exact ⟨_, _, .deposited subject who money amount v hv hpasses⟩
      | smartContract subject data =>
        rw [asks_smartContract] at hasks
        cases hasks
      | closeAuction subject id =>
        obtain ⟨r, v, hcloses, rfl, hv⟩ := owner_of_closeAution h (asks_closeAuction subject id) hne
        exact ⟨_, _, .paid subject id r v hcloses hv⟩

end Effect

end NovaBank.Money
