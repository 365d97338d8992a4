import NovaBank.Ledger.Closing
import NovaBank.Ledger.Refusals

/-!
# Bids and winners

A bid gets the id of its auction, so an auction holds one bid at most: the first one that is accepted
(`bidsOf_acceptBid`). The bids that an auction holds are those that were accepted on it along the run
(`bidsOf_reached`).

The last bid is looked up under the number of bids less one, that is under 0 as soon as there is one.
`winner_is_last_iff`: the look-ups agree with the history exactly when no bid was accepted or the
auction has the id 0. `bid_law_iff` says when a `BID` is treated as it should be. A second bid is
refused whatever it offers; a first one is accepted without a look at the sign of its amount.
-/

namespace NovaBank.Ledger

open Java Replica Money

/-! ## The bids of an auction -/

/-- The bids that the auction `k` holds. -/
def bidsOf (s : BankRepository) (k : JLong) : List BidEntity :=
  (s.auctions.lookup k).elim [] fun r => (s.auction r).bids.values

/-- The bid that an action places on the auction `k`, if it asks for one that is accepted. -/
def placed (jvm : Jvm) (k : JLong) (st : BankService) (x : Action) : List BidEntity :=
  match x.asks jvm st with
  | some (.call (.createBid id auctionId amount who)) =>
    if succeeded (BankServiceHelper.createBid jvm x.time id auctionId amount who st.bankRepo).1 = true ∧
        some auctionId = k then
      [⟨id, who, amount, x.time⟩]
    else []
  | _ => []

/-- The bids that are accepted on the auction `k` in a run, the last one last. -/
def acceptedBids (jvm : Jvm) (k : JLong) : List Action → BankService → List BidEntity
  | [], _ => []
  | x :: xs, st => placed jvm k st x ++ acceptedBids jvm k xs (x.run jvm st)

section Bids

variable {jvm : Jvm} {s : BankRepository} {k : JLong} {r : AuctionRef}

/-- The bids of a longer run are those of the run so far and those of its last step. -/
theorem acceptedBids_concat (xs : List Action) (x : Action) (st : BankService) :
    acceptedBids jvm k (xs ++ [x]) st =
      acceptedBids jvm k xs st ++ placed jvm k (st.runAll jvm xs) x := by
  induction xs generalizing st with
  | nil => simp [acceptedBids, BankService.runAll]
  | cons y ys ih =>
    rw [List.cons_append, acceptedBids, acceptedBids, ih, List.append_assoc]
    rfl

/-- The bids of an auction that is there. -/
theorem bidsOf_of_auction (ha : s.auctions.lookup k = some r) :
    bidsOf s k = (s.auction r).bids.values := by
  rw [bidsOf, ha]
  rfl

/-- A new auction has no bids. -/
theorem bidsOf_createAuction (h : Indexed s) (id : JLong) (who : JString) (k : JLong) :
    bidsOf (BankServiceHelper.createAuction id who s).2 k = bidsOf s k := by
  cases hu : s.findByUserName who with
  | none => simp only [BankServiceHelper.createAuction, hu]
  | some b =>
    cases ha : s.findByAuctionID id with
    | some r => simp only [BankServiceHelper.createAuction, hu, ha]
    | none =>
      rw [BankServiceHelper.createAuction_of_free hu ha]
      show bidsOf (s.createAuction (AuctionEntity.new id who)).2 k = _
      have hid : (AuctionEntity.new id who).id = id := rfl
      unfold bidsOf
      rw [BankRepository.createAuction_auctions, JavaMap.lookup_insert, hid]
      -- The new auction has no bids, and there was none under its id before.
      by_cases e : id = k
      · have hfree : s.auctions.lookup k = none := e ▸ ha
        rw [if_pos e, hfree]
        show ((s.createAuction (AuctionEntity.new id who)).2.auction s.objects.length).bids.values = []
        rw [BankRepository.createAuction_auction_length]
        rfl
      · rw [if_neg e]
        cases hk : s.auctions.lookup k with
        | none => rfl
        | some r =>
          show ((s.createAuction (AuctionEntity.new id who)).2.auction r).bids.values = _
          rw [s.createAuction_auction _ (h.object hk).1]
          rfl

/-- Closing an auction keeps its bids. -/
theorem bidsOf_closeAution (h : Indexed s) (id : JLong) (who : JString) (k : JLong) :
    bidsOf (BankServiceHelper.closeAution jvm id who s).2 k = bidsOf s k := by
  rcases closeAution_cases jvm h id who with ⟨hs, -⟩ | ⟨r, hc, hs⟩
  · rw [hs]
  · have ha := (h.opened hc.1).1
    -- Paying the owner touches accounts only, and closing an auction keeps its bids.
    obtain ⟨us, hus⟩ := payOwner_eq (s.auction r).close
      ((s.updateAuction r AuctionEntity.close).closeAuction r)
    rw [hs, hus]
    show bidsOf ((s.updateAuction r AuctionEntity.close).closeAuction r) k = _
    unfold bidsOf
    rw [h.auctions_closeAuction ha]
    cases s.auctions.lookup k with
    | none => rfl
    | some q =>
      rw [Option.elim_some, Option.elim_some, h.auction_closeAuction ha q]
      split_ifs with e
      · rw [e]
        rfl
      · rfl

/-- An accepted bid is the only one of its auction. -/
theorem bidsOf_acceptBid (h : Indexed s) {id amount : Int64} {who : JString} {v : Int64}
    (hbid : AcceptsBid jvm id amount who s r v) (now : Int64) (k : JLong) :
    bidsOf s (some id) = [] ∧
    bidsOf (BankServiceHelper.acceptBid ⟨id, who, amount, now⟩ r s) k =
      if some id = k then [⟨id, who, amount, now⟩] else bidsOf s k := by
  obtain ⟨ho, hfree, hv, -⟩ := hbid
  have ha := (h.opened ho).1
  obtain ⟨b, hb, -⟩ := find_of_balanceOf hv
  have hempty := h.bids_eq_empty ha hfree
  have heq : BankServiceHelper.acceptBid ⟨id, who, amount, now⟩ r s = _ := h.acceptBid_eq hb ha hfree
  have hobj := s.updateAuction_auction (h.object ha).1 fun a => a.addBid ⟨id, who, amount, now⟩
  refine ⟨by rw [bidsOf_of_auction ha, hempty, KeyedMap.empty_values], ?_⟩
  rw [heq]
  show bidsOf (s.updateAuction r fun a => a.addBid ⟨id, who, amount, now⟩) k = _
  -- The other auctions are other objects.
  by_cases e : some id = k
  · rw [if_pos e, ← e, bidsOf_of_auction (s := s.updateAuction r _) ha, hobj r, if_pos rfl,
      AuctionEntity.addBid, hempty]
    rfl
  · rw [if_neg e]
    unfold bidsOf
    show (s.auctions.lookup k).elim _ _ = _
    cases hk : s.auctions.lookup k with
    | none => rfl
    | some q =>
      show ((s.updateAuction r _).auction q).bids.values = _
      rw [hobj q, if_neg (h.ref_ne hk ha (Ne.symm e))]
      rfl

/-- The bids of an auction after an operation: the new one is appended, if one is placed. -/
theorem bidsOf_call (h : Indexed s) (now : Int64) (op : LedgerOperation) (k : JLong) :
    bidsOf (op.run jvm now s).2 k = bidsOf s k ++
      match op with
      | .createBid id auctionId amount who =>
        if succeeded (BankServiceHelper.createBid jvm now id auctionId amount who s).1 = true ∧
            some id = k then
          [⟨id, who, amount, now⟩]
        else []
      | _ => [] := by
  -- Only an accepted bid adds anything.
  cases op with
  | createMoney who amount =>
    obtain ⟨us, hs⟩ := createMoney_eq who amount s
    show bidsOf (BankServiceHelper.createMoney who amount s).2 k = _
    rw [List.append_nil, hs]
    rfl
  | transferMoney sender fromAmount receiver toAmount =>
    obtain ⟨us, hs⟩ := transferMoney_eq sender fromAmount receiver toAmount s
    show bidsOf (BankServiceHelper.transferMoney sender fromAmount receiver toAmount s).2 k = _
    rw [List.append_nil, hs]
    rfl
  | createAuction id who =>
    rw [List.append_nil]
    exact bidsOf_createAuction h id who k
  | createBid id auctionId amount who =>
    show bidsOf (BankServiceHelper.createBid jvm now id auctionId amount who s).2 k = _
    rcases createBid_iff_cases jvm h now id auctionId amount who with
      ⟨hs, -, hfail⟩ | ⟨r, v, hbid, hs, hdone⟩
    · simp [hs, hfail]
    · obtain ⟨hnone, hplaced⟩ := bidsOf_acceptBid h hbid now k
      rw [hs, hplaced]
      dsimp only
      by_cases e : some id = k
      · rw [if_pos e, if_pos ⟨hdone, e⟩, ← e, hnone, List.nil_append]
      · rw [if_neg e, if_neg fun h => e h.2, List.append_nil]
  | closeAution id who =>
    rw [List.append_nil]
    exact bidsOf_closeAution h id who k

/-- A bid is placed under the id of its auction. -/
theorem auction_of_asks {x : Action} {st : BankService} {id auctionId amount : Int64} {who : JString}
    (hasks : x.asks jvm st = some (.call (.createBid id auctionId amount who))) : auctionId = id := by
  -- Only a contract bids, and it gives the id of the auction for both.
  cases x with
  | ordered command =>
    simp only [Action.asks] at hasks
    split at hasks
    · cases LedgerRequest.requested_of_asks hasks
    · cases hasks
  | unordered command => cases hasks
  | operation now i op =>
    obtain ⟨www, call, hcall, -, hd⟩ := Action.asks_operation hasks
    cases hcall
    cases hd
    rfl

/-- The bids of an auction after an action. -/
theorem bidsOf_run {st : BankService} (h : Indexed st.bankRepo) (x : Action) (k : JLong) :
    bidsOf (x.run jvm st).bankRepo k = bidsOf st.bankRepo k ++ placed jvm k st x := by
  obtain ⟨v, hrun⟩ := x.run_eq jvm st
  rw [hrun, placed]
  -- A registration and a refused request touch no auction.
  cases hasks : x.asks jvm st with
  | none => exact (List.append_nil _).symm
  | some a =>
    cases a with
    | register b => exact (List.append_nil _).symm
    | call op =>
      refine (bidsOf_call h x.time op k).trans ?_
      cases op with
      | createBid id auctionId amount who => rw [auction_of_asks hasks]
      | _ => rfl

/-- The bids that an auction holds are those that were accepted on it. -/
theorem bidsOf_reached (xs : List Action) (k : JLong) :
    bidsOf (reached jvm xs) k = acceptedBids jvm k xs BankService.new := by
  induction xs using List.reverseRecOn with
  | nil => rfl
  | append_singleton xs x ih =>
    rw [acceptedBids_concat, ← ih, reached_concat]
    exact bidsOf_run (reached_indexed xs) x k

/-! ## The last bid -/

/-- An auction without bids has no last one. -/
theorem getLastBid_of_nil {a : AuctionEntity} (h : a.bids.values = []) : a.getLastBid = none := by
  have hempty : a.bids = KeyedMap.empty := KeyedMap.ext (h.trans KeyedMap.empty_values.symm)
  rw [AuctionEntity.getLastBid, hempty, KeyedMap.get_empty]

/-- One bid is looked up under 0. -/
theorem getLastBid_of_single {a : AuctionEntity} {b : BidEntity} (h : a.bids.values = [b]) :
    a.getLastBid = if b.id = 0 then some b else none := by
  have hsize : a.bids.size = 1 := by rw [KeyedMap.size, h, List.length_singleton]
  have hzero : Int64.ofInt (((1 : ℕ) : ℤ) - 1) = 0 := by decide
  rw [AuctionEntity.getLastBid, hsize, hzero]
  by_cases e : b.id = 0
  · rw [if_pos e, ← e]
    exact KeyedMap.get_of_mem (by rw [h]; exact List.mem_singleton_self b)
  · rw [if_neg e, KeyedMap.get_eq_none_iff, h]
    intro c hc
    rw [List.mem_singleton.mp hc]
    exact e

end Bids

/-- The look-ups of an auction say what its history says: the last one of the accepted bids and its
amount, or no bid and 0. -/
def WinnerIsLast (s : BankRepository) (k : JLong) (accepted : List BidEntity) : Prop :=
  ∀ r, s.findByAuctionID k = some r →
    (s.auction r).getLastBid = accepted.getLast? ∧
    (s.auction r).getLastBidAmount = (accepted.getLast?.map BidEntity.amount).getD 0 ∧
    s.checkWinnerBidFromAuction r = accepted.getLast?

/-- **When the winner is the last accepted bid:** after every run and for every auction, exactly when
no bid was accepted on it or its id is 0. -/
theorem winner_is_last_iff (jvm : Jvm) (xs : List Action) (k : JLong) :
    WinnerIsLast (reached jvm xs) k (acceptedBids jvm k xs BankService.new) ↔
      acceptedBids jvm k xs BankService.new = [] ∨ k = some 0 := by
  have h : Indexed (reached jvm xs) := reached_indexed xs
  rw [← bidsOf_reached, WinnerIsLast]
  cases ha : (reached jvm xs).findByAuctionID k with
  | none =>
    have hnone : bidsOf (reached jvm xs) k = [] := by
      rw [bidsOf, show (reached jvm xs).auctions.lookup k = none from ha]
      rfl
    exact iff_of_true (fun r hr => by cases hr) (.inl hnone)
  | some r =>
    simp only [Option.some.injEq, forall_eq', AuctionEntity.getLastBidAmount,
      BankRepository.checkWinnerBidFromAuction]
    rw [bidsOf_of_auction ha]
    -- An auction holds one bid at most, under its own id, while the last one is looked up by position.
    rcases standing_cases h ha with hnil | ⟨b, hb, hk⟩
    · rw [getLastBid_of_nil hnil, hnil]
      simp
    · rw [getLastBid_of_single hb, hb, hk]
      by_cases e : b.id = 0
      · simp [e]
      · simp [e]

/-- `alice` opens the auction `id`, and `bob` uploads a contract. -/
def openRun (id : Int64) : List Action :=
  [.ordered (Proxy.registerUser (some "alice") (some "secret") (some 10) none),
    .ordered (Proxy.registerUser (some "bob") (some "secret") (some 20) none),
    .ordered (Proxy.createAuction (some "alice") (some id)),
    .ordered (Proxy.createSmartContract (some "bob") [])]

/-- The contract of `bob` bids 5 on the auction `id`. -/
def bidRun (id : Int64) : List Action :=
  openRun id ++ [.operation 0 0 ("BID 5 " ++ Long.toText id)]

/-- **No winner:** a bid was accepted on the auction 7, and the auction answers that there is none.
-/
theorem accepted_bid_not_found :
    acceptedBids (bidJvm 7) (some 7) (bidRun 7) BankService.new = [⟨7, some "bob", 5, 0⟩] ∧
      (reached (bidJvm 7) (bidRun 7)).findByAuctionID (some 7) = some 0 ∧
      ((reached (bidJvm 7) (bidRun 7)).auction 0).getLastBid = none ∧
      ((reached (bidJvm 7) (bidRun 7)).auction 0).getLastBidAmount = 0 ∧
      (reached (bidJvm 7) (bidRun 7)).checkWinnerBidFromAuction 0 = none := by
  decide

/-! ## The law of a bid -/

/-- The operation `BID amount id` of a contract. -/
structure IsBid (op : String) (amount id : Int64) : Prop where
  name : word (split " " op) 0 = .ok "BID"
  asked : longWord (split " " op) 1 = .ok amount
  auction : longWord (split " " op) 2 = .ok id

/-- A bid should be accepted when the auction is open and not the bidder's own, the amount is greater
than the highest bid, and the bidder is registered and has it. -/
def ShouldAccept (s : BankRepository) (who : JString) (id amount : Int64) : Prop :=
  ∃ r v, s.findByOpenedAuctionID (some id) = some r ∧ (s.auction r).ownerUsername ≠ who ∧
    standing (s.auction r) < amount ∧ balanceOf s who = some v ∧ amount ≤ v

/-- Whether an action asks for something that is answered with success. -/
def actionAccepted (jvm : Jvm) (st : BankService) (x : Action) : Bool :=
  match x.asks jvm st with
  | some (.call op) => succeeded (op.run jvm x.time st.bankRepo).1
  | _ => false

/-- What a user gets back when the auction takes another bid: that of the highest bidder. -/
def refund (a : AuctionEntity) (u : JString) : Int64 :=
  ((a.bids.values.find? fun b => decide (b.amount = standing a ∧ b.username = u)).map
    BidEntity.amount).getD 0

/-- A bid is treated as it should be: it is accepted exactly when it should be; then the bidder pays
the amount, the highest bidder so far gets the earlier bid back, and the bid becomes the last one;
otherwise nothing changes. -/
structure BidLaw (jvm : Jvm) (st : BankService) (now : Int64) (i : Int32) (op : String) (who : JString)
    (id amount : Int64) : Prop where
  accepted_iff : actionAccepted jvm st (.operation now i op) = true ↔
    ShouldAccept st.bankRepo who id amount
  effect : actionAccepted jvm st (.operation now i op) = true →
    ∀ r, st.bankRepo.findByOpenedAuctionID (some id) = some r →
      (∀ u, balanceOf ((Action.operation now i op).run jvm st).bankRepo u =
        (balanceOf st.bankRepo u).map fun v =>
          v - (if who = u then amount else 0) + refund (st.bankRepo.auction r) u) ∧
      (((Action.operation now i op).run jvm st).bankRepo.auction r).getLastBid =
        some ⟨id, who, amount, now⟩
  refused : actionAccepted jvm st (.operation now i op) = false →
    Unchanged st.bankRepo ((Action.operation now i op).run jvm st).bankRepo

/-- The tests for the owner that the runner and `createBid` make, both of which ignore case. -/
def PassesOwnerTests (jvm : Jvm) (who : JString) (a : AuctionEntity) : Prop :=
  sameName jvm who a.ownerUsername = .ok false ∧ BankServiceHelper.mayBid jvm who a a = .ok true

/-- When the law holds of a bid that the bidder can pay. On an auction without a bid: the tests let
everybody but the owner make a positive bid, and whom they let pass bids a positive amount on the
auction 0. On an auction with a bid: the bidder is the owner or offers no more. -/
def BidTreated (jvm : Jvm) (s : BankRepository) (who : JString) (id amount : Int64) : Prop :=
  ∀ r v, s.findByOpenedAuctionID (some id) = some r → balanceOf s who = some v → amount ≤ v →
    if (s.auction r).bids.values = [] then
      ((s.auction r).ownerUsername ≠ who → 0 < amount → PassesOwnerTests jvm who (s.auction r)) ∧
        (PassesOwnerTests jvm who (s.auction r) → 0 < amount ∧ id = 0)
    else (s.auction r).ownerUsername ≠ who → amount ≤ standing (s.auction r)

section Law

variable {jvm : Jvm} {st : BankService} {who : JString} {id amount now : Int64} {i : Int32}
  {op : String} {r : AuctionRef}

/-- Who passes the tests is not the owner. -/
theorem PassesOwnerTests.ne {a : AuctionEntity} (h : PassesOwnerTests jvm who a) :
    a.ownerUsername ≠ who := by
  rintro rfl
  obtain ⟨hsame, -⟩ := h
  cases howner : a.ownerUsername with
  | none =>
    rw [howner] at hsame
    cases hsame
  | some owner =>
    rw [howner] at hsame
    simp [sameName, Jvm.equalsIgnoreCase, Java.equalsIgnoreCase] at hsame

/-- What a `BID` asks for: the call, unless there is no auction or the test for its owner fails. -/
theorem asks_bid (user : Action.onBehalfOf st i = some who) (bid : IsBid op amount id) :
    (Action.operation now i op).asks jvm st =
      (st.bankRepo.findByAuctionID (some id)).bind fun r =>
        if sameName jvm who (st.bankRepo.auction r).ownerUsername = .ok false then
          some (.call (.createBid id id amount who))
        else none := by
  -- The operation's name decides the call, which then reads the auction and the amount.
  have hcall : (st.sR.clearOperations i).dispatch jvm st.bankRepo i who (split " " op) =
      SmartContractRunner.callBid jvm st.bankRepo who (split " " op) := by
    simp [SmartContractRunner.dispatch, bid.name, bind, Except.bind]
  simp only [Action.asks, user, hcall, SmartContractRunner.callBid, bid.auction, bid.asked, bind,
    Except.bind]
  cases st.bankRepo.findByAuctionID (some id) with
  | none => rfl
  | some r =>
    dsimp only [Option.bind_some]
    cases sameName jvm who (st.bankRepo.auction r).ownerUsername with
    | error e => rfl
    | ok same => cases same <;> rfl

/-- A `BID` is accepted when it passes the test of the runner and those of `createBid`. -/
theorem actionAccepted_iff (h : Indexed st.bankRepo) (user : Action.onBehalfOf st i = some who)
    (bid : IsBid op amount id) :
    actionAccepted jvm st (.operation now i op) = true ↔
      ∃ r v, AcceptsBid jvm id amount who st.bankRepo r v ∧
        sameName jvm who (st.bankRepo.auction r).ownerUsername = .ok false := by
  rw [actionAccepted, asks_bid user bid]
  cases ha : st.bankRepo.findByAuctionID (some id) with
  | none =>
    refine iff_of_false Bool.false_ne_true ?_
    rintro ⟨r, v, ⟨ho, -⟩, -⟩
    rw [BankRepository.findByAuctionID, (h.opened ho).1] at ha
    cases ha
  | some r =>
    -- The auction of an accepted bid is this one.
    have hr : ∀ q v, AcceptsBid jvm id amount who st.bankRepo q v → q = r := fun q v hq =>
      Option.some.inj ((h.opened hq.1).1.symm.trans ha)
    rw [Option.bind_some]
    by_cases hsame : sameName jvm who (st.bankRepo.auction r).ownerUsername = .ok false
    · rw [if_pos hsame]
      show succeeded (BankServiceHelper.createBid jvm now id id amount who st.bankRepo).1 = true ↔ _
      rcases createBid_iff_cases jvm h now id id amount who with
        ⟨-, hno, hfail⟩ | ⟨q, v, hbid, -, hdone⟩
      · rw [hfail]
        refine iff_of_false Bool.false_ne_true ?_
        rintro ⟨q, v, hq, -⟩
        exact hno q v hq
      · exact iff_of_true hdone ⟨q, v, hbid, hr q v hbid ▸ hsame⟩
    · rw [if_neg hsame]
      refine iff_of_false Bool.false_ne_true ?_
      rintro ⟨q, v, hq, hq'⟩
      exact hsame (hr q v hq ▸ hq')

/-- An accepted bid is the first one of its auction. -/
theorem bids_of_acceptsBid (h : Indexed st.bankRepo) {v : Int64}
    (hbid : AcceptsBid jvm id amount who st.bankRepo r v) :
    (st.bankRepo.auction r).bids.values = [] := by
  rw [h.bids_eq_empty (h.opened hbid.1).1 hbid.2.1, KeyedMap.empty_values]

/-- The auction of an accepted bid holds this bid alone. -/
theorem getLastBid_run (h : Indexed st.bankRepo) (user : Action.onBehalfOf st i = some who)
    (bid : IsBid op amount id) {v : Int64} (hbid : AcceptsBid jvm id amount who st.bankRepo r v)
    (hsame : sameName jvm who (st.bankRepo.auction r).ownerUsername = .ok false) :
    (∀ u, balanceOf ((Action.operation now i op).run jvm st).bankRepo u =
      if who = u then some (v - amount) else balanceOf st.bankRepo u) ∧
    (((Action.operation now i op).run jvm st).bankRepo.auction r).getLastBid =
      if id = 0 then some ⟨id, who, amount, now⟩ else none := by
  have ha := (h.opened hbid.1).1
  have hasks : (Action.operation now i op).asks jvm st = some (.call (.createBid id id amount who)) := by
    rw [asks_bid user bid, show st.bankRepo.findByAuctionID (some id) = some r from ha,
      Option.bind_some, if_pos hsame]
  obtain ⟨q, w, hbid', hs, -⟩ := (createBid_iff_cases jvm h now id id amount who).resolve_left
    fun hno => hno.2.1 r v hbid
  obtain rfl : q = r := Option.some.inj (hbid'.1.symm.trans hbid.1)
  constructor
  · intro u
    rw [balanceOf_run, hasks]
    show balanceOf (BankServiceHelper.createBid jvm now id id amount who st.bankRepo).2 u = _
    rw [hs, balanceOf_acceptBid h hbid]
  · -- The auction is still listed, and its one bid is the new one.
    have hlisted : ((Action.operation now i op).run jvm st).bankRepo.auctions.lookup (some id) = some q :=
      (Continues.of_updates h ((Action.operation now i op).run_updates st)).listed _ _ ha
    have hplaced : placed jvm (some id) st (.operation now i op) = [⟨id, who, amount, now⟩] := by
      have hdone : succeeded (BankServiceHelper.createBid jvm now id id amount who st.bankRepo).1 =
          true := by
        rcases createBid_iff_cases jvm h now id id amount who with ⟨-, hno, -⟩ | ⟨_, _, -, -, hdone⟩
        · exact absurd hbid (hno q v)
        · exact hdone
      rw [placed, hasks]
      exact if_pos ⟨hdone, rfl⟩
    have hbids : bidsOf ((Action.operation now i op).run jvm st).bankRepo (some id) = _ :=
      bidsOf_run h (.operation now i op) (some id)
    rw [bidsOf_of_auction hlisted, bidsOf_of_auction ha, bids_of_acceptsBid h hbid, hplaced] at hbids
    exact getLastBid_of_single hbids

/-- A `BID` that is not accepted changes nothing. -/
theorem unchanged_of_not_accepted (h : Indexed st.bankRepo)
    (user : Action.onBehalfOf st i = some who) (bid : IsBid op amount id)
    (hrefused : actionAccepted jvm st (.operation now i op) = false) :
    Unchanged st.bankRepo ((Action.operation now i op).run jvm st).bankRepo := by
  obtain ⟨v, hrun⟩ := (Action.operation now i op).run_eq jvm st
  refine ⟨v, hrun.trans ?_⟩
  have hasks : (Action.operation now i op).asks jvm st = _ := asks_bid user bid
  unfold actionAccepted at hrefused
  cases ha : (Action.operation now i op).asks jvm st with
  | none => rfl
  | some a =>
    -- It asks for the bid and for nothing else.
    obtain rfl : a = .call (.createBid id id amount who) := by
      rw [ha] at hasks
      obtain ⟨r, -, hr⟩ := Option.bind_eq_some_iff.mp hasks.symm
      split_ifs at hr
      exact (Option.some.inj hr).symm
    rw [ha] at hrefused
    change succeeded (BankServiceHelper.createBid jvm now id id amount who st.bankRepo).1 = false
      at hrefused
    show { (BankServiceHelper.createBid jvm now id id amount who st.bankRepo).2 with version := v } = _
    rcases createBid_iff_cases jvm h now id id amount who with ⟨hs, -⟩ | ⟨_, _, -, -, hdone⟩
    · rw [hs]
    · rw [hdone] at hrefused
      cases hrefused

/-- An auction without bids has nothing in escrow. -/
theorem standing_of_nil {a : AuctionEntity} (h : a.bids.values = []) : standing a = 0 := by
  rw [standing, h]
  rfl

/-- Where the law holds, a bid that should be accepted passes all tests. -/
theorem BidLaw.accepts (law : BidLaw jvm st now i op who id amount) (h : Indexed st.bankRepo)
    (user : Action.onBehalfOf st i = some who) (bid : IsBid op amount id) {v : Int64}
    (ho : st.bankRepo.findByOpenedAuctionID (some id) = some r)
    (hv : balanceOf st.bankRepo who = some v) (enough : amount ≤ v)
    (hne : (st.bankRepo.auction r).ownerUsername ≠ who)
    (hlt : standing (st.bankRepo.auction r) < amount) :
    (st.bankRepo.auction r).bids.values = [] ∧ PassesOwnerTests jvm who (st.bankRepo.auction r) := by
  obtain ⟨q, w, hbid, hsame⟩ := (actionAccepted_iff h user bid).mp
    (law.accepted_iff.mpr ⟨r, v, ho, hne, hlt, hv, enough⟩)
  obtain rfl : q = r := Option.some.inj (hbid.1.symm.trans ho)
  exact ⟨bids_of_acceptsBid h hbid, hsame, hbid.2.2.2.2⟩

/-- A first bid that the bidder can pay passes the tests of `createBid` when it passes those for the
owner. -/
theorem acceptsBid_of_passes (hnil : (st.bankRepo.auction r).bids.values = []) {v : Int64}
    (ho : st.bankRepo.findByOpenedAuctionID (some id) = some r)
    (hv : balanceOf st.bankRepo who = some v) (enough : amount ≤ v)
    (hpass : PassesOwnerTests jvm who (st.bankRepo.auction r)) :
    AcceptsBid jvm id amount who st.bankRepo r v :=
  ⟨ho, KeyedMap.get_eq_none_iff.mpr (by simp [hnil]), hv, enough, hpass.2⟩

/-- The law needs its condition. -/
theorem BidLaw.treated (law : BidLaw jvm st now i op who id amount) (h : Indexed st.bankRepo)
    (user : Action.onBehalfOf st i = some who) (bid : IsBid op amount id) :
    BidTreated jvm st.bankRepo who id amount := by
  intro r v ho hv enough
  split_ifs with hnil
  · refine ⟨fun hne hpos => ?_, fun hpass => ?_⟩
    · exact (law.accepts h user bid ho hv enough hne (by rwa [standing_of_nil hnil])).2
    · -- The bid is accepted, so it should be, and it is the last one.
      have hbid := acceptsBid_of_passes hnil ho hv enough hpass
      have hacc : actionAccepted jvm st (.operation now i op) = true :=
        (actionAccepted_iff h user bid).mpr ⟨r, v, hbid, hpass.1⟩
      obtain ⟨q, w, hq, -, hlt, -⟩ := law.accepted_iff.mp hacc
      obtain rfl : q = r := Option.some.inj (hq.symm.trans ho)
      rw [standing_of_nil hnil] at hlt
      have hlast := (law.effect hacc q ho).2
      rw [(getLastBid_run h user bid hbid hpass.1).2] at hlast
      refine ⟨hlt, ?_⟩
      by_contra hne
      rw [if_neg hne] at hlast
      cases hlast
  · intro hne
    by_contra hlt
    exact hnil (law.accepts h user bid ho hv enough hne (Int64.not_le.mp hlt)).1

/-- The tests accept a bid exactly when they should, under the condition of the law. -/
theorem BidTreated.accepted_iff (cond : BidTreated jvm st.bankRepo who id amount)
    (h : Indexed st.bankRepo) (user : Action.onBehalfOf st i = some who) (bid : IsBid op amount id) :
    actionAccepted jvm st (.operation now i op) = true ↔ ShouldAccept st.bankRepo who id amount := by
  rw [actionAccepted_iff h user bid]
  constructor
  -- An accepted bid is the first of its auction, and by the condition it is above zero.
  · rintro ⟨r, v, hbid, hsame⟩
    have hpass : PassesOwnerTests jvm who (st.bankRepo.auction r) := ⟨hsame, hbid.2.2.2.2⟩
    have hnil := bids_of_acceptsBid h hbid
    have hcond := cond r v hbid.1 hbid.2.2.1 hbid.2.2.2.1
    rw [if_pos hnil] at hcond
    refine ⟨r, v, hbid.1, hpass.ne, ?_, hbid.2.2.1, hbid.2.2.2.1⟩
    rw [standing_of_nil hnil]
    exact (hcond.2 hpass).1
  · rintro ⟨r, v, ho, hne, hlt, hv, enough⟩
    have hcond := cond r v ho hv enough
    -- With a bid already standing, the higher one is refused as well.
    split_ifs at hcond with hnil
    · rw [standing_of_nil hnil] at hlt
      have hpass := hcond.1 hne hlt
      exact ⟨r, v, acceptsBid_of_passes hnil ho hv enough hpass, hpass.1⟩
    · exact absurd (hcond hne) (Int64.not_le.mpr hlt)

/-- The condition is enough for the law. -/
theorem BidTreated.law (cond : BidTreated jvm st.bankRepo who id amount) (h : Indexed st.bankRepo)
    (user : Action.onBehalfOf st i = some who) (bid : IsBid op amount id) :
    BidLaw jvm st now i op who id amount := by
  refine ⟨cond.accepted_iff h user bid, fun hacc r ho => ?_, unchanged_of_not_accepted h user bid⟩
  obtain ⟨q, v, hbid, hsame⟩ := (actionAccepted_iff h user bid).mp hacc
  obtain rfl : q = r := Option.some.inj (hbid.1.symm.trans ho)
  have hnil := bids_of_acceptsBid h hbid
  have hcond := cond q v hbid.1 hbid.2.2.1 hbid.2.2.2.1
  rw [if_pos hnil] at hcond
  obtain ⟨hbalance, hlast⟩ := getLastBid_run h user bid hbid hsame
  refine ⟨fun u => ?_, ?_⟩
  · -- Nobody gets anything back.
    have hrefund : refund (st.bankRepo.auction q) u = 0 := by
      rw [refund, hnil]
      rfl
    rw [hbalance u, hrefund]
    by_cases e : who = u
    · rw [if_pos e, if_pos e, ← e, hbid.2.2.1, Option.map_some, add_zero]
    · rw [if_neg e, if_neg e]
      simp
  · rw [hlast, if_pos (hcond.2 ⟨hsame, hbid.2.2.2.2⟩).2]

end Law

/-- **When a bid is treated as it should be:** in every reachable repository, whoever bids what on
which auction, exactly when `BidTreated` holds before the operation. -/
theorem bid_law_iff (jvm : Jvm) (xs : List Action) (sR : SmartContractRunner) (now : Int64) (i : Int32)
    (op : String) (who : JString) (id amount : Int64)
    (user : Action.onBehalfOf ⟨reached jvm xs, sR⟩ i = some who) (bid : IsBid op amount id) :
    BidLaw jvm ⟨reached jvm xs, sR⟩ now i op who id amount ↔
      BidTreated jvm (reached jvm xs) who id amount := by
  have h : Indexed (BankService.mk (reached jvm xs) sR).bankRepo := reached_indexed xs
  constructor
  · intro law
    exact law.treated h user bid
  · intro cond
    refine BidTreated.law ?_ h user bid
    exact cond

/-- The bid of 5 of `bob` on the auction 0 of `alice` is accepted as it should be. -/
theorem bid_law_first :
    actionAccepted (bidJvm 0) (BankService.new.runAll (bidJvm 0) (openRun 0))
        (.operation 0 0 "BID 5 0") = true ∧
      BidLaw (bidJvm 0) (BankService.new.runAll (bidJvm 0) (openRun 0)) 0 0 "BID 5 0" (some "bob")
        0 5 := by
  refine ⟨by decide, (bid_law_iff (bidJvm 0) (openRun 0)
    (BankService.new.runAll (bidJvm 0) (openRun 0)).sR 0 0 "BID 5 0" (some "bob") 0 5 (by decide)
    ⟨by decide, by decide, by decide⟩).mpr ?_⟩
  intro r v ho _ _
  obtain rfl : r = 0 := Option.some.inj (ho.symm.trans (by decide))
  rw [if_pos (by decide)]
  exact ⟨fun _ _ => ⟨by decide, by decide⟩, fun _ => by decide⟩

/-- **Bids that are not treated as they should be:** `bob`, who holds the bid of 5 on the auction 0 and
has 15 left, offers 6, which is refused. A first bid of -5 on the auction 0 is accepted and brings
`bob` 5. And the accepted bid on the auction 7 is not its last one. -/
theorem bids_not_as_they_should_be :
    (ShouldAccept (reached (bidJvm 0) (bidRun 0)) (some "bob") 0 6 ∧
      actionAccepted (bidJvm 0) (BankService.new.runAll (bidJvm 0) (bidRun 0))
        (.operation 1 0 "BID 6 0") = false) ∧
    (¬ ShouldAccept (reached (bidJvm 0) (openRun 0)) (some "bob") 0 (-5) ∧
      actionAccepted (bidJvm 0) (BankService.new.runAll (bidJvm 0) (openRun 0))
        (.operation 0 0 "BID -5 0") = true ∧
      balanceOf (reached (bidJvm 0) (openRun 0 ++ [.operation 0 0 "BID -5 0"])) (some "bob") =
        some 25) ∧
    (ShouldAccept (reached (bidJvm 7) (openRun 7)) (some "bob") 7 5 ∧
      actionAccepted (bidJvm 7) (BankService.new.runAll (bidJvm 7) (openRun 7))
        (.operation 0 0 "BID 5 7") = true ∧
      ((reached (bidJvm 7) (openRun 7 ++ [.operation 0 0 "BID 5 7"])).auction 0).getLastBid = none) := by
  refine ⟨⟨⟨0, 15, by decide⟩, by decide⟩, ⟨?_, by decide, by decide⟩,
    ⟨⟨0, 20, by decide⟩, by decide, by decide⟩⟩
  -- The negative amount is below the one that stands, which is zero.
  rintro ⟨r, v, ho, -, hlt, -⟩
  obtain rfl : r = 0 := Option.some.inj (ho.symm.trans (by decide))
  revert hlt
  decide

end NovaBank.Ledger
