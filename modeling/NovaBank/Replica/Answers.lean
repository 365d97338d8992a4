import NovaBank.Replica.Simulation

/-!
# Two replicas with one book answer alike

The requests of a replica and the passes of its contract runner, on two replicas whose repositories
are related by `Sim f`. Their replies are the same up to `f` on the times of bids, and their
repositories stay related. The runners of the two replicas need to be the same only for the passes:
no request reads the runner's state for its reply.
-/

namespace NovaBank.Replica

open Java

/-! ## Replies up to times -/

/-- A value with its time replaced. -/
def Scalar.retime (f : Int64 → Int64) : Scalar → Scalar
  | .number v => .number (f v)
  | v => v

/-- An object with its field `timestamp` replaced. -/
def JSONObject.retime (f : Int64 → Int64) (o : JSONObject) : JSONObject :=
  ⟨o.fields.map fun e => if e.1 = "timestamp" then (e.1, e.2.retime f) else e⟩

/-- An object of a reply with the times of bids replaced. The accounts in an array have none. -/
def ReplyObject.retime (f : Int64 → Int64) : ReplyObject → ReplyObject
  | .json (.object o) => .json (.object (o.retime f))
  | .json (.auction a) => .json (.auction (a.retime f))
  | .bid b => .bid (b.map (BidEntity.retime f))
  | o => o

/-- A reply with the times of bids replaced. -/
def Reply.retime (f : Int64 → Int64) (r : Reply) : Reply := r.map (List.map (ReplyObject.retime f))

/-- The object of a bid with another time. -/
theorem BidEntity.getJSON_retime (f : Int64 → Int64) (b : BidEntity) :
    b.getJSON.retime f = (b.retime f).getJSON := by
  cases hu : b.username <;>
    simp [BidEntity.getJSON, BidEntity.retime, JSONObject.retime, JSONObject.put, JSONObject.empty,
      Scalar.retime, hu]

/-- Keeping the times keeps a value. -/
@[simp] theorem Scalar.retime_same (v : Scalar) : v.retime (fun t => t) = v := by
  cases v <;> rfl

/-- Keeping the times keeps an object. -/
@[simp] theorem JSONObject.retime_same (o : JSONObject) : o.retime (fun t => t) = o := by
  simp [JSONObject.retime]

/-- Keeping the times keeps an object of a reply. -/
@[simp] theorem ReplyObject.retime_same (o : ReplyObject) : o.retime (fun t => t) = o := by
  cases o with
  | json j => cases j <;> simp [ReplyObject.retime]
  | bid b => cases b <;> simp [ReplyObject.retime]
  | _ => rfl

/-- Keeping the times keeps a reply. -/
@[simp] theorem Reply.retime_same (r : Reply) : r.retime (fun t => t) = r := by
  have h : ReplyObject.retime (fun t => t) = id := funext ReplyObject.retime_same
  simp [Reply.retime, h]

/-! ## Unordered requests -/

/-- The entity of an account, without the auctions that its user lists. -/
def Account.toEntity (a : Account) : BankEntity :=
  ⟨a.userName, a.password, a.amount, KeyedMap.empty, a.bids, a.roles⟩

section Lists

variable (jvm : Jvm) {f : Int64 → Int64} {s t : BankRepository}

/-- The iteration over the users visits the accounts of the book. -/
theorem usersIterator_account (f : Int64 → Int64) (s : BankRepository) :
    (s.usersIterator jvm).map (BankEntity.account f) = (view f s).accounts.inOrder jvm.order := by
  simp only [view, KeyedMap.inOrder_map]
  rfl

/-- The hash of all accounts depends on the accounts of the book only. -/
theorem accountsHash_account (f : Int64 → Int64) (bs : List BankEntity) :
    BankService.accountsHash jvm bs =
      BankService.accountsHash jvm ((bs.map (BankEntity.account f)).map Account.toEntity) := by
  simp only [BankService.accountsHash, List.foldl_map]
  rfl

/-- So do their objects. -/
theorem getJSONSecure_account (f : Int64 → Int64) (bs : List BankEntity) :
    bs.map BankEntity.getJSONSecure =
      ((bs.map (BankEntity.account f)).map Account.toEntity).map BankEntity.getJSONSecure := by
  simp only [List.map_map]
  rfl

/-- The iteration over the opened auctions visits those of the book. -/
theorem openedAuctionsIterator_retime (f : Int64 → Int64) (s : BankRepository) :
    (s.openedAuctionsIterator jvm).map (AuctionEntity.retime f) =
      ((view f s).opened.inOrder jvm.order).map Prod.snd := by
  simp only [view, JavaMap.mapValues, KeyedMap.inOrder_map, List.map_map,
    BankRepository.openedAuctionsIterator]
  rfl

/-- So does that over the closed ones. -/
theorem closedAuctionsIterator_retime (f : Int64 → Int64) (s : BankRepository) :
    (s.closedAuctionsIterator jvm).map (AuctionEntity.retime f) =
      ((view f s).closed.inOrder jvm.order).map Prod.snd := by
  simp only [view, JavaMap.mapValues, KeyedMap.inOrder_map, List.map_map,
    BankRepository.closedAuctionsIterator]
  rfl

/-- The number of opened auctions is that of the book. -/
theorem getNumOpenedAuctions_view (f : Int64 → Int64) (s : BankRepository) :
    s.getNumOpenedAuctions = Int32.ofNat (view f s).opened.size := by
  simp [BankRepository.getNumOpenedAuctions, view, JavaMap.mapValues, KeyedMap.size]

/-- The objects that list bids depend on the bids up to their times. -/
theorem bidObjects_congr {m m' : Bids} (h : Bids.retime f m = Bids.retime f m') :
    (ReplyObject.int (Int32.ofNat m.size) ::
        (m.inOrder jvm.order).map fun b => .json (.object b.getJSON)).map (ReplyObject.retime f) =
      (ReplyObject.int (Int32.ofNat m'.size) ::
        (m'.inOrder jvm.order).map fun b => .json (.object b.getJSON)).map (ReplyObject.retime f) := by
  -- Both replies are functions of the bids without their times.
  have hall : ∀ m : Bids, (ReplyObject.int (Int32.ofNat m.size) ::
      (m.inOrder jvm.order).map fun b => .json (.object b.getJSON)).map (ReplyObject.retime f) =
      .int (Int32.ofNat (KeyedMap.size (Bids.retime f m))) ::
        (KeyedMap.inOrder jvm.order (Bids.retime f m)).map fun b => .json (.object b.getJSON) := by
    intro m
    simp only [Bids.retime, KeyedMap.inOrder_map, KeyedMap.size, KeyedMap.map_values,
      List.length_map, List.map_cons, List.map_map]
    congr 1
    apply List.map_congr_left
    intro b _
    simp only [Function.comp_apply, ReplyObject.retime, BidEntity.getJSON_retime]
  rw [hall, hall, h]

/-- The objects that list auctions depend on the auctions up to the times of their bids. -/
theorem auctionObjects_retime (n : Int32) (as : List AuctionEntity) :
    (ReplyObject.int n :: as.map fun a => .json (.auction a)).map (ReplyObject.retime f) =
      .int n :: (as.map (AuctionEntity.retime f)).map fun a => .json (.auction a) := by
  simp only [List.map_cons, List.map_map]
  rfl

end Lists

section Answers

variable {jvm : Jvm} {f : Int64 → Int64} {s t : BankRepository}

/-- The account of a user as `FIND_USER` prints it. -/
theorem getJSON_congr {b b' : BankEntity} (h : b.account f = b'.account f) :
    b.getJSON = b'.getJSON := by
  have := congrArg (fun a : Account => a.toEntity.getJSON) h
  exact this

/-- Replicas with the same book have as many opened auctions. -/
theorem getNumOpenedAuctions_congr (h : Sim f s t) :
    s.getNumOpenedAuctions = t.getNumOpenedAuctions := by
  rw [getNumOpenedAuctions_view f, getNumOpenedAuctions_view f, h.view]

/-- The answers about one user have no times in them. -/
theorem answer_findUser_congr (jvm : Jvm) (h : Sim f s t) (username : JString) :
    BankService.answer jvm s (.findUser username) =
      BankService.answer jvm t (.findUser username) := by
  rw [BankService.answer_findUser, BankService.answer_findUser]
  rcases h.user_cases username with ⟨hs, ht⟩ | ⟨b, b', hs, ht, hb⟩
  · rw [hs, ht]
  · rw [hs, ht, Option.map_some, Option.map_some, getJSON_congr hb]

/-- They answer the question for a balance alike. -/
theorem answer_checkCurrentAmount_congr (jvm : Jvm) (h : Sim f s t) (who : JString) :
    BankService.answer jvm s (.checkCurrentAmount who) =
      BankService.answer jvm t (.checkCurrentAmount who) := by
  rw [BankService.answer_checkCurrentAmount, BankService.answer_checkCurrentAmount]
  rcases h.user_cases who with ⟨hs, ht⟩ | ⟨b, b', hs, ht, hb⟩
  · rw [hs, ht]
  · have hamount : b.amount = b'.amount := congrArg Account.amount hb
    rw [hs, ht, Option.elim_some, Option.elim_some, hamount]

/-- An unordered request is answered alike. -/
theorem answer_agrees (h : Sim f s t) (q : Query) :
    (BankService.answer jvm s q).map (Reply.retime f) =
      (BankService.answer jvm t q).map (Reply.retime f) := by
  have hiter : (s.usersIterator jvm).map (BankEntity.account f) =
      (t.usersIterator jvm).map (BankEntity.account f) := by
    rw [usersIterator_account, usersIterator_account, h.view]
  have hnum := getNumOpenedAuctions_congr h
  cases q with
  | findUser u => rw [answer_findUser_congr jvm h]
  | listAllBankAccounts =>
    simp only [BankService.answer]
    -- The hash and the listing see of an entity its account only.
    rw [accountsHash_account jvm f, getJSONSecure_account f, hiter, ← accountsHash_account,
      ← getJSONSecure_account]
  | checkCurrentAmount who => rw [answer_checkCurrentAmount_congr jvm h]
  | listAllCurrentOpenedAuctions =>
    simp only [BankService.answer, Except.map, Reply.retime, Option.map_some,
      auctionObjects_retime, openedAuctionsIterator_retime, h.view, hnum]
  | listAllCurrentClosedAuctions =>
    simp only [BankService.answer, Except.map, Reply.retime, Option.map_some,
      auctionObjects_retime, closedAuctionsIterator_retime, h.view, hnum]
  | listAllBidsFromAuction id =>
    have hbids : ∀ r r', (s.auction r).retime f = (t.auction r').retime f →
        Bids.retime f (s.auction r).bids = Bids.retime f (t.auction r').bids := by
      intro r r' e
      have := congrArg AuctionEntity.bids e
      exact this
    rcases h.auction_cases id with ⟨⟨hs, -⟩, ht, -⟩ | ⟨r, r', ⟨hs, -⟩, ⟨ht, -⟩, e⟩ |
      ⟨r, r', ⟨hs, -⟩, ⟨ht, -⟩, e⟩
    · simp only [BankService.answer, hs, ht]
    all_goals
      simp only [BankService.answer, hs, ht, Except.map, Reply.retime, Option.map_some,
        BankRepository.findAllBidsFromAuction, bidObjects_congr jvm (hbids r r' e)]
  | listAllBidsFromUser who =>
    rcases h.user_cases who with ⟨hs, ht⟩ | ⟨b, b', hs, ht, hb⟩
    · simp only [BankService.answer, hs, ht]
    · have hbids : Bids.retime f b.bids = Bids.retime f b'.bids := congrArg Account.bids hb
      simp only [BankService.answer, hs, ht, Except.map, Reply.retime, Option.map_some,
        BankRepository.findAllBidsFromUser, bidObjects_congr jvm hbids]
  | checkWinnerBidClosedAuction id =>
    rcases h.auction_cases id with ⟨⟨hs, -⟩, ht, -⟩ | ⟨r, r', ⟨hs, -, hc⟩, ⟨ht, -, hc'⟩, -⟩ |
      ⟨r, r', ⟨hs, -, hc⟩, ⟨ht, -, hc'⟩, e⟩
    · simp only [BankService.answer, hs, ht]
    · simp only [BankService.answer, hs, ht, hc, hc']
    · simp only [BankService.answer, hs, ht, hc, hc', Except.map, Reply.retime, Option.map_some,
        List.map_cons, List.map_nil, ReplyObject.retime, BankRepository.checkWinnerBidFromAuction,
        AuctionEntity.getLastBid_congr e]
  | unsupported => rfl

/-- Two outcomes of a request: the same reply up to the times of bids, and related repositories. -/
def RepliesAgree (f : Int64 → Int64) (x y : Outcome Reply) : Prop :=
  x.1.map (Reply.retime f) = y.1.map (Reply.retime f) ∧ Sim f x.2 y.2

/-- Outcomes that agree have replies that agree. -/
theorem RepliesAgree.of_agrees {x y : Outcome Reply} (h : Agrees f x y) : RepliesAgree f x y :=
  ⟨by rw [h.1], h.2⟩

/-- The epilogue treats both sides alike. -/
theorem RepliesAgree.finish {x y : Outcome Reply} (h : RepliesAgree f x y) :
    RepliesAgree f (BankService.finish x) (BankService.finish y) := by
  obtain ⟨rx, s⟩ := x
  obtain ⟨ry, t⟩ := y
  obtain ⟨he, hsim⟩ := h
  -- Both sides end in the same way, and each counts its version or neither does.
  cases rx with
  | error e =>
    cases ry with
    | error e' =>
      obtain rfl : e = e' := by simpa [Except.map] using he
      simp only [BankService.finish]
      split
      · exact ⟨rfl, hsim.save⟩
      · exact ⟨rfl, hsim⟩
    | ok r => simp [Except.map] at he
  | ok r =>
    cases ry with
    | error e => simp [Except.map] at he
    | ok r' => exact ⟨he, hsim.save⟩

/-- Unordered requests are answered alike, up to the times. -/
theorem appExecuteUnordered_agrees (jvm : Jvm) (h : Sim f s t) (command : Command) :
    RepliesAgree f (BankService.appExecuteUnordered jvm command s)
      (BankService.appExecuteUnordered jvm command t) := by
  apply RepliesAgree.finish
  refine ⟨?_, h⟩
  simp only [BankService.query]
  cases decodeUnordered command with
  | error e => rfl
  | ok q => exact answer_agrees h q

/-! ## Ordered requests -/

/-- The comparison with a balance has the same result. -/
theorem compareAmount_congr (h : Sim f s t) (who : JString) (original : Int64) :
    s.compareAmount who original = t.compareAmount who original := by
  rcases h.user_cases who with ⟨hs, ht⟩ | ⟨b, b', hs, ht, hb⟩
  · simp only [BankRepository.compareAmount, hs, ht]
  · have hamount : b.amount = b'.amount := congrArg Account.amount hb
    simp only [BankRepository.compareAmount, hs, ht, hamount]

/-- An ordered request on the ledger is answered alike. -/
theorem executeLedger_agrees (h : Sim f s t) (r : LedgerRequest) :
    Agrees f (BankService.executeLedger jvm r s) (BankService.executeLedger jvm r t) := by
  -- The two states have the same accounts and auctions up to times, so each test has the same result.
  cases r with
  | registerUser username rest =>
    simp only [BankService.executeLedger, BankService.executeRegisterUser]
    rcases h.user_cases username with ⟨hs, ht⟩ | ⟨b, b', hs, ht, -⟩
    · simp only [hs, ht]
      cases rest with
      | error e => exact ⟨rfl, h⟩
      | ok fields =>
        obtain ⟨hb, hsim⟩ := registerUser_agrees jvm h hs fields.1 fields.2.1 fields.2.2
        exact ⟨congrArg (Except.map _) hb, hsim⟩
    · simp only [hs, ht]
      exact ⟨rfl, h⟩
  | createMoney who rest =>
    simp only [BankService.executeLedger, BankService.executeCreateMoney]
    rcases h.user_cases who with ⟨hs, ht⟩ | ⟨b, b', hs, ht, -⟩
    · simp only [hs, ht]
      exact ⟨rfl, h⟩
    · simp only [hs, ht]
      cases rest with
      | error e => exact ⟨rfl, h⟩
      | ok amounts =>
        simp only [compareAmount_congr h]
        split
        · exact ⟨rfl, h⟩
        · split
          · obtain ⟨hj, hsim⟩ := createMoney_agrees h who amounts.2
            exact ⟨congrArg (fun j => Except.ok (BankService.jsonReply j)) hj, hsim⟩
          · exact ⟨rfl, h⟩
  | transferMoney sender fromSaldo receiver toSaldo fromAmount toAmount =>
    simp only [BankService.executeLedger, BankService.executeTransferMoney]
    rcases h.user_cases sender with ⟨hs, ht⟩ | ⟨b, b', hs, ht, hb⟩
    · simp only [hs, ht]
      exact ⟨rfl, h⟩
    · rcases h.user_cases receiver with ⟨hs', ht'⟩ | ⟨d, d', hs', ht', hd⟩
      · simp only [hs, ht, hs', ht']
        exact ⟨rfl, h⟩
      · have hfrom : b.amount = b'.amount := congrArg Account.amount hb
        have hto : d.amount = d'.amount := congrArg Account.amount hd
        simp only [hs, ht, hs', ht', BankService.amountsAre, BankService.amountIs, hfrom, hto]
        split
        · exact ⟨rfl, h⟩
        · obtain ⟨hj, hsim⟩ := transferMoney_agrees h sender fromAmount receiver toAmount
          exact ⟨congrArg (Except.map _) hj, hsim⟩
        · exact ⟨rfl, h⟩
  | createAuction who auctionID =>
    simp only [BankService.executeLedger, BankService.executeCreateAuction]
    obtain ⟨hj, hsim⟩ := createAuction_agrees h auctionID who
    rcases h.user_cases who with ⟨hs, ht⟩ | ⟨b, b', hs, ht, -⟩
    · simp only [hs, ht]
      exact ⟨rfl, h⟩
    rcases h.auction_cases auctionID with ⟨⟨ha, -⟩, ha', -⟩ | ⟨r, r', ⟨ha, -⟩, ⟨ha', -⟩, -⟩ |
      ⟨r, r', ⟨ha, -⟩, ⟨ha', -⟩, -⟩
    · simp only [hs, ht, ha, ha']
      exact ⟨congrArg (fun j => Except.ok (BankService.jsonReply j)) hj, hsim⟩
    · simp only [hs, ht, ha, ha']
      exact ⟨rfl, h⟩
    · simp only [hs, ht, ha, ha']
      exact ⟨rfl, h⟩
  | closeAuction who auctionID =>
    obtain ⟨hj, hsim⟩ := closeAution_agrees jvm h auctionID who
    exact ⟨congrArg (Except.map _) hj, hsim⟩

/-- The reply to an uploaded contract, and what it does to the runner, depend on the repository only
through the existence of the user. -/
theorem executeCreateSmartContract_congr (jvm : Jvm) {st st' : BankService}
    (h : Sim f st.bankRepo st'.bankRepo)
    (who : JString) (code : List UInt8) :
    (BankService.executeCreateSmartContract jvm who code st).1 =
        (BankService.executeCreateSmartContract jvm who code st').1 ∧
      (st.sR = st'.sR → (BankService.executeCreateSmartContract jvm who code st).2 =
        (BankService.executeCreateSmartContract jvm who code st').2) := by
  simp only [BankService.executeCreateSmartContract]
  rcases h.user_cases who with ⟨hs, ht⟩ | ⟨b, b', hs, ht, -⟩
  · simp only [hs, ht]
    exact ⟨trivial, fun h => h⟩
  · simp only [hs, ht]
    refine ⟨?_, fun hr => by rw [hr]⟩
    -- The reply looks at the class only, and not at the runner.
    unfold SmartContractRunner.createObjectFromFile
    cases jvm.defineClass code with
    | error e => rfl
    | ok cl =>
      dsimp only
      split_ifs <;> rfl

/-- An ordered request is answered alike, and keeps equal runners equal. -/
theorem appExecuteOrdered_agrees (jvm : Jvm) {st st' : BankService}
    (h : Sim f st.bankRepo st'.bankRepo)
    (command : Command) :
    ((st.appExecuteOrdered jvm command).1.map (Reply.retime f) =
        (st'.appExecuteOrdered jvm command).1.map (Reply.retime f) ∧
      Sim f (st.appExecuteOrdered jvm command).2.bankRepo
        (st'.appExecuteOrdered jvm command).2.bankRepo) ∧
      (st.sR = st'.sR → (st.appExecuteOrdered jvm command).2.sR =
        (st'.appExecuteOrdered jvm command).2.sR) := by
  unfold BankService.appExecuteOrdered
  -- The runner only matters for an upload.
  cases decodeOrdered command with
  | error e =>
    exact ⟨RepliesAgree.finish (x := (.error e, st.bankRepo)) (y := (.error e, st'.bankRepo)) ⟨rfl, h⟩,
      fun hr => hr⟩
  | ok r =>
    cases r with
    | ledger r => exact ⟨(RepliesAgree.of_agrees (executeLedger_agrees h r)).finish, fun hr => hr⟩
    | createSmartContract who code =>
      obtain ⟨hreply, hrunner⟩ := executeCreateSmartContract_congr jvm h who code
      refine ⟨RepliesAgree.finish (x := (_, st.bankRepo)) (y := (_, st'.bankRepo)) ⟨?_, h⟩, hrunner⟩
      rw [hreply]
    | other => exact ⟨appExecuteUnordered_agrees jvm h command, fun hr => hr⟩

/-! ## Passes of the runner -/

/-- The runner finds the same balance. -/
theorem balance_congr (h : Sim f s t) (u : JString) : s.balance u = t.balance u := by
  unfold BankRepository.balance BankRepository.user
  rcases h.user_cases u with ⟨hs, ht⟩ | ⟨b, b', hs, ht, hb⟩
  · simp only [hs, ht]
  · have hamount : b.amount = b'.amount := congrArg Account.amount hb
    simp only [hs, ht]
    simp only [bind, Except.bind, hamount]

/-- What a call reads of a user beside the balance are the roles. -/
theorem user_bind_congr {α : Type} (h : Sim f s t) (u : JString)
    (k : List String → Except JavaException α) :
    (s.user u >>= fun b => k b.getRoles) = (t.user u >>= fun b => k b.getRoles) := by
  unfold BankRepository.user
  rcases h.user_cases u with ⟨hs, ht⟩ | ⟨b, b', hs, ht, hb⟩
  · simp only [hs, ht]
  · have hr : b.roles = b'.roles := congrArg Account.roles hb
    simp only [hs, ht]
    simp only [bind, Except.bind, BankEntity.getRoles, hr]

open SmartContractRunner in
/-- The case `BID` makes the same call. -/
theorem callBid_congr (h : Sim f s t) (www : JString) (ss : List String) :
    callBid jvm s www ss = callBid jvm t www ss := by
  unfold callBid
  congr 1
  funext id
  rcases h.auction_cases (some id) with ⟨⟨hs, -⟩, ht, -⟩ | ⟨r, r', ⟨hs, -⟩, ⟨ht, -⟩, e⟩ |
    ⟨r, r', ⟨hs, -⟩, ⟨ht, -⟩, e⟩
  · rw [hs, ht]
  all_goals
    rw [hs, ht]
    simp only [AuctionEntity.ownerUsername_congr e]

open SmartContractRunner in
/-- The case `CLOSE_AUCTION` makes the same call. -/
theorem callCloseAuction_congr (h : Sim f s t) (sR : SmartContractRunner) (www : JString)
    (ss : List String) : callCloseAuction jvm sR s www ss = callCloseAuction jvm sR t www ss := by
  unfold callCloseAuction
  congr 1
  funext key
  -- The role is looked up only when the owner of the contract is another one.
  split
  · rfl
  · congr 1
    funext same
    split
    · rfl
    · exact user_bind_congr h www fun roles =>
        if roles.contains "ROLE_AUCTION_MANAGER" then do
          let id ← longWord ss 1
          return some (LedgerOperation.closeAution (some id) www)
        else return none

/-- The runner makes the same call on both sides. -/
theorem dispatch_congr (h : Sim f s t) (sR : SmartContractRunner) (i : Int32) (www : JString)
    (ss : List String) : sR.dispatch jvm s i www ss = sR.dispatch jvm t i www ss := by
  -- No operation reads a time.
  have hmoney : SmartContractRunner.callCreateMoney s www ss =
      SmartContractRunner.callCreateMoney t www ss := by
    simp only [SmartContractRunner.callCreateMoney, balance_congr h]
  have htransfer : SmartContractRunner.callTransferMoney s www ss =
      SmartContractRunner.callTransferMoney t www ss := by
    simp only [SmartContractRunner.callTransferMoney, balance_congr h]
    exact user_bind_congr h www fun _ => _
  have hauction : SmartContractRunner.callCreateAuction s i www =
      SmartContractRunner.callCreateAuction t i www :=
    user_bind_congr h www fun roles =>
      if roles.contains "ROLE_AUCTION_MAKER" then
        return some (LedgerOperation.createAuction (some (Int64.ofInt i.toInt)) www)
      else return none
  simp only [SmartContractRunner.dispatch, hmoney, htransfer, hauction, callBid_congr h,
    callCloseAuction_congr h]

/-- Two replicas with equal runners whose repositories are related. -/
structure Replicas (f : Int64 → Int64) (st st' : BankService) : Prop where
  repo : Sim f st.bankRepo st'.bankRepo
  runner : st.sR = st'.sR

/-- A call at corresponding times has results that agree. -/
theorem callResult_agrees (h : Sim f s t) {now now' : Int64} (hnow : f now = f now') (j : JSONObject)
    (call : Option LedgerOperation) :
    Agrees f (BankService.callResult jvm now j call s) (BankService.callResult jvm now' j call t) := by
  cases call with
  | none => exact ⟨rfl, h⟩
  | some call => exact LedgerOperation.run_agrees h hnow call

/-- The runner goes on alike after results that agree. -/
theorem Replicas.afterCall {x y : Outcome JSONObject} (h : Agrees f x y) (sR : SmartContractRunner) :
    Replicas f (BankService.afterCall sR x) (BankService.afterCall sR y) := by
  obtain ⟨hj, hsim⟩ := h
  unfold BankService.afterCall
  rw [← hj]
  split
  · exact ⟨hsim, rfl⟩
  · refine ⟨?_, rfl⟩
    dsimp only
    split
    · exact hsim
    · exact hsim.save

/-- One operation of a contract, at times that agree. -/
theorem Replicas.runOperation {st st' : BankService} (h : Replicas f st st') {now now' : Int64}
    (hnow : f now = f now') (i : Int32) (op : String) :
    Replicas f (st.runOperation jvm now i op) (st'.runOperation jvm now' i op) := by
  obtain ⟨hsim, hr⟩ := h
  unfold BankService.runOperation
  simp only [← hr, ← dispatch_congr hsim]
  split
  · exact ⟨hsim, rfl⟩
  · split
    · exact ⟨hsim, rfl⟩
    · exact Replicas.afterCall (callResult_agrees hsim hnow _ _) _

/-- The operations of a contract keep replicas alike. -/
theorem Replicas.runOperations {st st' : BankService} (h : Replicas f st st') (i : Int32)
    {now now' : ℕ → Int64} (hnow : ∀ n, f (now n) = f (now' n)) (ops : List String) :
    Replicas f (st.runOperations jvm i now ops) (st'.runOperations jvm i now' ops) := by
  induction ops generalizing now now' st st' with
  | nil => exact h
  | cons op ops ih =>
    unfold BankService.runOperations
    rw [← h.runner]
    split
    · exact ih (h.runOperation (hnow 0) i op) fun n => hnow (n + 1)
    · exact h

/-- A pass of the runner on both sides, at times that agree. -/
theorem Replicas.pass {st st' : BankService} (h : Replicas f st st') {now now' : Int32 → ℕ → Int64}
    (hnow : ∀ i n, f (now i n) = f (now' i n)) : Replicas f (st.pass jvm now) (st'.pass jvm now') := by
  -- On the contracts that are left, for any two replicas that agree.
  have hall : ∀ (is : List Int32) {st st' : BankService}, Replicas f st st' →
      Replicas f (st.runContracts jvm now is) (st'.runContracts jvm now' is) := by
    intro is
    induction is with
    | nil => exact fun h => h
    | cons i is ih =>
      intro st st' h
      unfold BankService.runContracts
      rw [← h.runner]
      exact ih (h.runOperations i (hnow i) _)
  unfold BankService.pass
  rw [← h.runner]
  exact hall _ h

/-- An ordered request on both sides. -/
theorem Replicas.ordered (jvm : Jvm) {st st' : BankService} (h : Replicas f st st')
    (command : Command) :
    (st.appExecuteOrdered jvm command).1.map (Reply.retime f) =
        (st'.appExecuteOrdered jvm command).1.map (Reply.retime f) ∧
      Replicas f (st.appExecuteOrdered jvm command).2 (st'.appExecuteOrdered jvm command).2 := by
  obtain ⟨⟨hreply, hsim⟩, hrunner⟩ := appExecuteOrdered_agrees jvm h.repo command
  exact ⟨hreply, hsim, hrunner h.runner⟩

end Answers

end NovaBank.Replica
