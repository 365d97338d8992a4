import NovaBank.Common.Run
import NovaBank.Money.Balances
import NovaBank.Replica.Runs

/-!
# Auctions and money

An accepted bid freezes its amount, and closing an auction should pay the standing bid to the owner.
So the balances of all users together with the standing bids of the opened auctions should stay the
same along every run of `CREATE_AUCTION`, `BID` and `CLOSE_AUCTION`.

A contract files a bid under the id of the auction, so that an auction has at most one bid: nobody
is ever outbid (`standing_cases`). But `getLastBid` looks for the id that is the number of bids
minus one. It finds the bid of the auction 0 only, and closing any other auction pays nothing
(`getLastBidAmount_eq`). Besides, an owner without an amount makes the pay-out fail after the
auction has been closed. `auctions_conserve_iff`: the money is conserved at every point of a run
exactly when no step closes such an auction.
-/

namespace NovaBank.Money

open Java Replica

/-- The amount of the standing bid of an auction, the highest of its bids, and 0 without one. -/
def standing (a : AuctionEntity) : Int64 := ((a.bids.values.map BidEntity.amount).max?).getD 0

/-- The sum of the standing bids of all opened auctions. -/
def escrow (s : BankRepository) : Int64 := s.openedAuctions.total fun e => standing (s.auction e.2)

/-- All the money of a repository. -/
def wealth (s : BankRepository) : Int64 := totalBalance s + escrow s

/-! ## The bids of an auction -/

section Bids

variable {s : BankRepository} {id : JLong} {r : AuctionRef}

/-- A listed auction has no bid, or one, which has its id. -/
theorem standing_cases (h : Indexed s) (ha : s.auctions.lookup id = some r) :
    (s.auction r).bids.values = [] ∨ ∃ b, (s.auction r).bids.values = [b] ∧ id = some b.id := by
  have hbid : ∀ b ∈ (s.auction r).bids.values, id = some b.id := fun b hb => (h.bid ha hb).1
  have hnd := (s.auction r).bids.nodup
  cases hv : (s.auction r).bids.values with
  | nil => exact .inl rfl
  | cons b bs =>
    rw [hv] at hbid hnd
    have hb := hbid b (by simp)
    cases bs with
    | nil => exact .inr ⟨b, rfl, hb⟩
    | cons c cs =>
      -- Two bids would have one id.
      have hc := hbid c (by simp)
      have hbc : b.id = c.id := Option.some.inj (hb.symm.trans hc)
      simp [hbc] at hnd

/-- The amount that is paid out is the standing bid for the auction 0, and nothing for the others.
-/
theorem getLastBidAmount_eq (h : Indexed s) (ha : s.auctions.lookup id = some r) :
    (s.auction r).getLastBidAmount = if id = some 0 then standing (s.auction r) else 0 := by
  rcases standing_cases h ha with hv | ⟨b, hv, hid⟩
  · simp [AuctionEntity.getLastBidAmount, AuctionEntity.getLastBid, KeyedMap.get, standing, hv]
  · have hstanding : standing (s.auction r) = b.amount := by simp [standing, hv]
    have hzero : Int64.ofInt (((s.auction r).bids.size : Int) - 1) = 0 := by
      simp [KeyedMap.size, hv]
    have hlast : (s.auction r).getLastBid = if b.id = 0 then some b else none := by
      simp only [AuctionEntity.getLastBid, hzero, KeyedMap.get, hv, List.find?_cons, List.find?_nil]
      by_cases e : b.id = 0 <;> simp [e]
    rw [AuctionEntity.getLastBidAmount, hlast, hstanding, hid]
    simp only [Option.some.injEq]
    split_ifs <;> rfl

end Bids

/-! ## What each operation does to the money -/

section Effects

variable {jvm : Jvm} {s : BankRepository}

/-- A new auction moves no money. -/
theorem wealth_openAuction (h : Indexed s) {id : JLong} {who : JString} {b : BankEntity}
    (user : s.findByUserName who = some b) (free : s.findByAuctionID id = none) :
    wealth (BankServiceHelper.createAuction id who s).2 = wealth s := by
  have hopened : s.openedAuctions.get id = none := by
    rcases h.auction_cases id with ⟨-, ho, -⟩ | ⟨r, ha, -⟩ | ⟨r, ha, -⟩
    · simpa [JavaMap.lookup] using ho
    · simp [BankRepository.findByAuctionID, ha] at free
    · simp [BankRepository.findByAuctionID, ha] at free
  have hbalance : totalBalance (BankServiceHelper.createAuction id who s).2 = totalBalance s := by
    rw [BankServiceHelper.createAuction_of_free user free,
      totalBalance_newUserBankEntity (b.addAuction id s.objects.length)
        (by simpa [BankRepository.userName_of_find user] using user)]
    show totalBalance s - b.amount.getD 0 + b.amount.getD 0 = totalBalance s
    abel
  have hescrow : escrow (BankServiceHelper.createAuction id who s).2 = escrow s := by
    rw [BankServiceHelper.createAuction_of_free user free]
    show ((s.openedAuctions.insert id s.objects.length).total fun e =>
      standing ((s.createAuction (AuctionEntity.new id who)).2.auction e.2)) = escrow s
    rw [JavaMap.insert, KeyedMap.total_put, hopened, s.createAuction_auction_length]
    -- The new auction has no bid, and the auctions that are listed are as before.
    show _ - 0 + 0 = _
    rw [sub_zero, add_zero]
    apply KeyedMap.total_congr
    rintro ⟨k, r⟩ hkr
    have hr := (h.object (h.opened (JavaMap.mem_values_iff.mp hkr)).1).1
    rw [s.createAuction_auction _ hr]
  rw [wealth, wealth, hbalance, hescrow]

/-- An update of one opened auction moves the escrow by the difference of its standing bids. -/
theorem escrow_updateAuction (h : Indexed s) {id : JLong} {r : AuctionRef}
    (opened : s.openedAuctions.lookup id = some r) (f : AuctionEntity → AuctionEntity) :
    escrow (s.updateAuction r f) =
      escrow s - standing (s.auction r) + standing (f (s.auction r)) := by
  have hobj := s.updateAuction_auction (h.object (h.opened opened).1).1 f
  have hget := JavaMap.get_of_lookup opened
  -- Other auctions are other objects.
  have hother : ∀ e ∈ s.openedAuctions.values, e.1 ≠ id →
      standing ((s.updateAuction r f).auction e.2) = standing (s.auction e.2) := by
    rintro ⟨k, q⟩ hkq hk
    have hkq := (h.opened (JavaMap.mem_values_iff.mp hkq)).1
    rw [hobj, if_neg (h.ref_ne hkq (h.opened opened).1 hk)]
  have htotal := KeyedMap.total_update (f := fun e : JLong × AuctionRef => standing (s.auction e.2))
    (g := fun e => standing ((s.updateAuction r f).auction e.2)) hget hother
  rw [hobj r, if_pos rfl] at htotal
  exact htotal

/-- The first bid of an auction moves its amount from the bidder's balance to the escrow. -/
theorem wealth_placeBid (h : Indexed s) {bid : BidEntity} {r : AuctionRef} {b : BankEntity} {v : Int64}
    (user : s.findByUserName bid.username = some b) (amount : b.amount = some v)
    (opened : s.openedAuctions.lookup (some bid.id) = some r)
    (free : (s.auction r).bids.get bid.id = none) :
    wealth (BankServiceHelper.acceptBid bid r s) = wealth s := by
  -- An auction takes a bid under its own id only, and so had none before.
  have hempty := h.bids_eq_empty (h.opened opened).1 free
  rw [h.acceptBid_eq user (h.opened opened).1 free]
  have hbalance : totalBalance (s.newUserBankEntity (b.freezeBid bid)) =
      totalBalance s - bid.amount := by
    rw [totalBalance_newUserBankEntity (b.freezeBid bid)
      (by simpa [BankRepository.userName_of_find user] using user)]
    show totalBalance s - b.amount.getD 0 + (b.amount.map (· - bid.amount)).getD 0 = _
    rw [amount]
    show totalBalance s - v + (v - bid.amount) = _
    abel
  have hescrow : escrow (s.updateAuction r fun a => a.addBid bid) = escrow s + bid.amount := by
    rw [escrow_updateAuction h opened]
    have hold : standing (s.auction r) = 0 := by
      rw [standing, hempty]
      rfl
    have hnew : standing ((s.auction r).addBid bid) = bid.amount := by
      rw [standing, AuctionEntity.addBid, hempty]
      rfl
    rw [hold, hnew, sub_zero]
  -- What leaves the balance of the bidder is what the auction holds.
  calc wealth _ = totalBalance (s.newUserBankEntity (b.freezeBid bid)) +
        escrow (s.updateAuction r fun a => a.addBid bid) := rfl
    _ = totalBalance s - bid.amount + (escrow s + bid.amount) := by rw [hbalance, hescrow]
    _ = wealth s := by
      rw [wealth]
      abel

/-- The user `who` may close the auction `r`, which is opened under `id`. -/
def Closes (jvm : Jvm) (id : JLong) (who : JString) (s : BankRepository) (r : AuctionRef) : Prop :=
  s.findByOpenedAuctionID id = some r ∧ ∃ b, s.findByUserName who = some b ∧
    BankServiceHelper.mayClose jvm b who (s.auction r) (s.auction r) = .ok true

/-- The result of `closeAution` for a user who may close the auction is that of the pay-out. -/
theorem closeAution_of_closes (h : Indexed s) {id : JLong} {who : JString} {r : AuctionRef}
    (closes : Closes jvm id who s r) :
    BankServiceHelper.closeAution jvm id who s =
      ((BankServiceHelper.payOwner (s.auction r).close
          ((s.updateAuction r AuctionEntity.close).closeAuction r)).1.map
          fun _ => JSONObject.success.put "id" (id.map .number),
        (BankServiceHelper.payOwner (s.auction r).close
          ((s.updateAuction r AuctionEntity.close).closeAuction r)).2) := by
  obtain ⟨ho, b, hu, hm⟩ := closes
  -- The maps and the flags pass the checks.
  obtain ⟨ha, hc, hopen⟩ := h.opened ho
  have hobj := s.updateAuction_auction (h.object ha).1 AuctionEntity.close r
  rw [if_pos rfl] at hobj
  have hauction : s.findByAuctionID id = some r := ha
  have hclosed : s.findByClosedAuctionID id = none := hc
  simp only [BankServiceHelper.closeAution, hu, hauction, ho, hclosed, hm, hopen, Bool.not_false,
    Bool.and_self, if_true]
  rw [← hobj]
  rfl

/-- What `closeAution` does: nothing, or it closes the auction and pays its owner. -/
theorem closeAution_cases (jvm : Jvm) (h : Indexed s) (id : JLong) (who : JString) :
    ((BankServiceHelper.closeAution jvm id who s).2 = s ∧ ∀ r, ¬ Closes jvm id who s r) ∨
    ∃ r, Closes jvm id who s r ∧ (BankServiceHelper.closeAution jvm id who s).2 =
      (BankServiceHelper.payOwner (s.auction r).close
        ((s.updateAuction r AuctionEntity.close).closeAuction r)).2 := by
  cases hu : s.findByUserName who with
  | none =>
    left
    simp [BankServiceHelper.closeAution, Closes, hu]
  | some b =>
    rcases h.auction_cases id with ⟨ha, ho, hc⟩ | ⟨r, ha, ho, hc⟩ | ⟨r, ha, ho, hc⟩
    · left
      simp [BankServiceHelper.closeAution, Closes, BankRepository.findByAuctionID,
        BankRepository.findByOpenedAuctionID, hu, ha, ho]
    · -- Opened: the permission decides.
      cases hm : BankServiceHelper.mayClose jvm b who (s.auction r) (s.auction r) with
      | error e =>
        left
        simp [BankServiceHelper.closeAution, Closes, BankRepository.findByAuctionID,
          BankRepository.findByOpenedAuctionID, BankRepository.findByClosedAuctionID, hu, ha, ho, hc,
          hm]
      | ok allowed =>
        cases allowed with
        | false =>
          left
          simp [BankServiceHelper.closeAution, Closes, BankRepository.findByAuctionID,
            BankRepository.findByOpenedAuctionID, BankRepository.findByClosedAuctionID, hu, ha, ho,
            hc, hm]
        | true =>
          right
          have hcloses : Closes jvm id who s r := ⟨ho, b, hu, hm⟩
          exact ⟨r, hcloses, congrArg Prod.snd (closeAution_of_closes h hcloses)⟩
    · left
      simp [BankServiceHelper.closeAution, Closes, BankRepository.findByAuctionID,
        BankRepository.findByOpenedAuctionID, hu, ha, ho]

/-- Closing takes the standing bid out of the escrow. -/
theorem escrow_closeAuction (h : Indexed s) {id : JLong} {r : AuctionRef}
    (opened : s.openedAuctions.lookup id = some r) :
    escrow ((s.updateAuction r AuctionEntity.close).closeAuction r) =
      escrow s - standing (s.auction r) := by
  have hobj := s.updateAuction_auction (h.object (h.opened opened).1).1 AuctionEntity.close r
  rw [if_pos rfl] at hobj
  -- Closing changes no bid of the auction; only its entry goes.
  have hremove : escrow ((s.updateAuction r AuctionEntity.close).closeAuction r) =
      escrow (s.updateAuction r AuctionEntity.close) - standing (s.auction r).close := by
    rw [h.closeAuction_eq (h.opened opened).1]
    show KeyedMap.total _ (KeyedMap.remove s.openedAuctions id) = _
    rw [KeyedMap.total_remove, JavaMap.get_of_lookup opened, ← hobj]
    rfl
  rw [hremove, escrow_updateAuction h opened]
  show escrow s - standing (s.auction r) + standing (s.auction r) - standing (s.auction r) = _
  abel

/-- The pay-out adds the last bid to the owner's balance, if there is one. -/
theorem balanceOf_payOwner (a : AuctionEntity) (s : BankRepository) (u : JString) :
    balanceOf (BankServiceHelper.payOwner a s).2 u =
      (balanceOf s u).map (· + if a.ownerUsername = u then a.getLastBidAmount else 0) := by
  -- Without an owner, or without a balance of it, nothing is paid.
  unfold BankServiceHelper.payOwner
  split
  · rename_i hu
    by_cases e : a.ownerUsername = u
    · simp [balanceOf, ← e, hu]
    · simp [e]
  · rename_i b hu
    split
    · rename_i hv
      by_cases e : a.ownerUsername = u
      · simp [balanceOf, ← e, hu, hv]
      · simp [e]
    · rename_i v hv
      simp only [BankServiceHelper.createMoney, hu, balanceOf_setAmount hu]
      by_cases e : a.ownerUsername = u
      · simp [balanceOf, ← e, hu, hv, add_comm]
      · simp [e]

/-- The pay-out adds the last bid to the sum of all balances, if the owner has a balance. -/
theorem wealth_payOwner (a : AuctionEntity) (s : BankRepository) :
    wealth (BankServiceHelper.payOwner a s).2 =
      wealth s + if (balanceOf s a.ownerUsername).isSome then a.getLastBidAmount else 0 := by
  -- Without an owner, or without a balance of it, nothing is paid.
  unfold BankServiceHelper.payOwner
  split
  · rename_i hu
    simp [balanceOf, hu]
  · rename_i b hu
    split
    · rename_i hv
      simp [balanceOf, hu, hv]
    · rename_i v hv
      have htotal := totalBalance_setAmount hu (a.getLastBidAmount + v)
      simp only [BankServiceHelper.createMoney, hu, balanceOf, Option.bind_some, hv,
        Option.isSome_some, if_true]
      show totalBalance _ + escrow s = totalBalance s + escrow s + _
      rw [htotal, hv, Option.getD_some]
      abel

/-- Closing an auction keeps all the money exactly when there is no money in the standing bid, or
the auction is the auction 0 and its owner has a balance. -/
theorem closeAution_conserves_iff (h : Indexed s) {id : JLong} {r : AuctionRef}
    (opened : s.openedAuctions.lookup id = some r) :
    wealth (BankServiceHelper.payOwner (s.auction r).close
        ((s.updateAuction r AuctionEntity.close).closeAuction r)).2 = wealth s ↔
      standing (s.auction r) = 0 ∨
        id = some 0 ∧ (balanceOf s (s.auction r).ownerUsername).isSome := by
  have hlast := getLastBidAmount_eq h (h.opened opened).1
  -- A bid is stored under the id of the auction, while the last one is looked up by its position.
  have hwealth : wealth (BankServiceHelper.payOwner (s.auction r).close
        ((s.updateAuction r AuctionEntity.close).closeAuction r)).2 = wealth s -
      standing (s.auction r) + if (balanceOf s (s.auction r).ownerUsername).isSome then
        if id = some 0 then standing (s.auction r) else 0 else 0 := by
    rw [wealth_payOwner, wealth, escrow_closeAuction h opened, ← hlast, wealth, add_sub_assoc]
    rfl
  rw [hwealth]
  by_cases hb : (balanceOf s (s.auction r).ownerUsername).isSome
  · by_cases hid : id = some 0
    · simp [hb, hid]
    · simp [hb, hid]
  · simp [hb]

end Effects

/-! ## The steps of a run -/

/-- A step on the auctions. -/
inductive Step where
  /-- An operation of the contract `i`, executed at the time `now` by a runner with any contracts. -/
  | operation (sR : SmartContractRunner) (now : Int64) (i : Int32) (op : String)
      (auction : (split " " op).head? ∈ [some "CREATE_AUCTION", some "BID", some "CLOSE_AUCTION"])
  /-- The ordered request `CLOSE_AUCTION`. -/
  | closeAuction (who : JString) (auctionID : JLong)

namespace Step

/-- The repository after a step. -/
def run (jvm : Jvm) (x : Step) (s : BankRepository) : BankRepository :=
  match x with
  | .operation sR now i op _ => (BankService.runOperation jvm now i op ⟨s, sR⟩).bankRepo
  | .closeAuction who auctionID =>
    (BankService.appExecuteOrdered jvm (Proxy.closeAuction who auctionID)
      ⟨s, SmartContractRunner.new⟩).2.bankRepo

/-- The operation of the ledger that a step asks for, if any. -/
def call (jvm : Jvm) (x : Step) (s : BankRepository) : Option LedgerOperation :=
  match x with
  | .operation sR _ i op _ =>
    let sR := sR.clearOperations i
    match sR.ownerOf i with
    | none => none
    | some www => ((sR.dispatch jvm s i www (split " " op)).toOption).getD none
  | .closeAuction who auctionID => some (.closeAution auctionID who)

/-- A step is funded when it does not close an auction, or the standing bid of that auction is of 0,
or the auction is the auction 0 and its owner has a balance. -/
def Funded (jvm : Jvm) (x : Step) (s : BankRepository) : Prop :=
  ∀ id who r, x.call jvm s = some (.closeAution id who) → Closes jvm id who s r →
    standing (s.auction r) = 0 ∨ id = some 0 ∧ (balanceOf s (s.auction r).ownerUsername).isSome

variable {jvm : Jvm} {s : BankRepository}

/-- The calls that an operation on auctions of the user `www` can ask for. A bid has the id of its
auction. -/
inductive AuctionCall (www : JString) : Option LedgerOperation → Prop where
  | nothing : AuctionCall www none
  | create (id : JLong) : AuctionCall www (some (.createAuction id www))
  | bid (id amount : Int64) : AuctionCall www (some (.createBid id id amount www))
  | close (id : JLong) : AuctionCall www (some (.closeAution id www))

/-- An operation on auctions asks for one of these calls. -/
theorem dispatch_auctionCall {sR : SmartContractRunner} {i : Int32} {www : JString}
    {ss : List String} {call : Option LedgerOperation}
    (auction : ss.head? ∈ [some "CREATE_AUCTION", some "BID", some "CLOSE_AUCTION"])
    (h : sR.dispatch jvm s i www ss = .ok call) : AuctionCall www call := by
  -- The operation's name decides the call, so transfers and deposits are excluded.
  have hhead : ∀ w, word ss 0 = .ok w → ss.head? = some w := by
    intro w hw
    rw [List.head?_eq_getElem?]
    unfold word at hw
    split at hw
    · cases hw
    · rename_i w' hw'
      rw [hw', Except.ok.inj hw]
  cases dispatched_of_dispatch h with
  | nothing => exact .nothing
  | createMoney old amount name => simp [hhead _ name] at auction
  | transferMoney old toOld amount receiver name => simp [hhead _ name] at auction
  | createAuction name => exact .create _
  | createBid id amount name => exact .bid id amount
  | closeAution id name => exact .close (some id)

/-- What a call does to the repository. -/
inductive Effect (jvm : Jvm) (s : BankRepository) : Option LedgerOperation → BankRepository → Prop where
  /-- Nothing, and no auction may be closed. -/
  | same (call : Option LedgerOperation)
      (kept : ∀ id who r, call = some (.closeAution id who) → ¬ Closes jvm id who s r) :
      Effect jvm s call s
  /-- A new auction. -/
  | opened (id : JLong) (who : JString) (b : BankEntity) (user : s.findByUserName who = some b)
      (free : s.findByAuctionID id = none) :
      Effect jvm s (some (.createAuction id who)) (BankServiceHelper.createAuction id who s).2
  /-- The first bid of an opened auction. -/
  | bid (bid : BidEntity) (r : AuctionRef) (b : BankEntity) (v : Int64)
      (user : s.findByUserName bid.username = some b) (amount : b.amount = some v)
      (opened : s.openedAuctions.lookup (some bid.id) = some r)
      (free : (s.auction r).bids.get bid.id = none) :
      Effect jvm s (some (.createBid bid.id bid.id bid.amount bid.username))
        (BankServiceHelper.acceptBid bid r s)
  /-- The end of an opened auction. -/
  | closed (id : JLong) (who : JString) (r : AuctionRef) (closes : Closes jvm id who s r) :
      Effect jvm s (some (.closeAution id who))
        (BankServiceHelper.payOwner (s.auction r).close
          ((s.updateAuction r AuctionEntity.close).closeAuction r)).2

/-- Every call that an operation on auctions asks for has one of the effects. -/
theorem effect_of_call (h : Indexed s) (now : Int64) (j : JSONObject) {www : JString}
    {call : Option LedgerOperation} (hcall : AuctionCall www call) :
    Effect jvm s call (BankService.callResult jvm now j call s).2 := by
  cases hcall with
  | nothing => exact .same none (by simp)
  | create id =>
    show Effect jvm s _ (BankServiceHelper.createAuction id www s).2
    cases hu : s.findByUserName www with
    | none =>
      simp only [BankServiceHelper.createAuction, hu]
      exact .same _ (by simp)
    | some b =>
      cases ha : s.findByAuctionID id with
      | none => exact .opened id www b hu ha
      | some r =>
        simp only [BankServiceHelper.createAuction, hu, ha]
        exact .same _ (by simp)
  | bid id amount =>
    show Effect jvm s _ (BankServiceHelper.createBid jvm now id id amount www s).2
    rcases createBid_cases jvm now id id amount www s with
      hs | ⟨r, q, b, v, hu, hv, -, ha, ho, hfree, hs⟩
    · rw [hs]
      exact .same _ (by simp)
    · rw [hs]
      -- The maps of all auctions and of the opened ones hold the same object.
      obtain rfl : r = q := Option.some.inj (ha.symm.trans (h.opened ho).1)
      exact .bid ⟨id, www, amount, now⟩ r b v hu hv ho hfree
  | close id =>
    show Effect jvm s _ (BankServiceHelper.closeAution jvm id www s).2
    rcases closeAution_cases jvm h id www with ⟨hs, hno⟩ | ⟨r, hc, hs⟩
    · rw [hs]
      refine .same _ fun id' who' r hcall => ?_
      cases hcall
      exact hno r
    · rw [hs]
      exact .closed id www r hc

/-- A step has one of the effects of its call, up to the version. -/
theorem run_effect (jvm : Jvm) (h : Indexed s) (x : Step) :
    ∃ t v, Effect jvm s (x.call jvm s) t ∧ x.run jvm s = { t with version := v } := by
  -- Without an owner or a call, nothing but the version changes.
  cases x with
  | operation sR now i op auction =>
    cases howner : (sR.clearOperations i).ownerOf i with
    | none =>
      simp only [run, call, BankService.runOperation, howner]
      exact ⟨s, s.version, .same none (by simp), rfl⟩
    | some www =>
      cases hd : (sR.clearOperations i).dispatch jvm s i www (split " " op) with
      | error e =>
        simp only [run, call, BankService.runOperation, howner, hd]
        exact ⟨s, s.version, .same none (by simp), rfl⟩
      | ok call =>
        obtain ⟨v, hv⟩ := afterCall_eq (sR.clearOperations i)
          (BankService.callResult jvm now (sR.clearOperations i).j call s)
        simp only [run, Step.call, BankService.runOperation, howner, hd]
        exact ⟨_, v, effect_of_call h now _ (dispatch_auctionCall auction hd), hv⟩
  | closeAuction who auctionID =>
    obtain ⟨v, hv⟩ := finish_eq (BankService.executeCloseAuction jvm who auctionID s)
    simp only [run, call, BankService.appExecuteOrdered, Proxy.decodeOrdered_closeAuction]
    exact ⟨_, v, effect_of_call h 0 JSONObject.empty (.close auctionID), hv⟩

/-- The maps of a repository still agree after a step. -/
theorem run_indexed (h : Indexed s) (x : Step) : Indexed (x.run jvm s) := by
  cases x with
  | operation sR now i op auction => exact h.updates (runOperation_updates now i op ⟨s, sR⟩)
  | closeAuction who auctionID => exact h.updates (appExecuteOrdered_updates _ ⟨s, _⟩)

/-- A step keeps all the money exactly when it is funded. -/
theorem run_conserves_iff (h : Indexed s) (x : Step) :
    wealth (x.run jvm s) = wealth s ↔ x.Funded jvm s := by
  obtain ⟨t, v, heffect, hrun⟩ := x.run_effect jvm h
  -- The version is not in the money.
  have hwealth : wealth (x.run jvm s) = wealth t := by
    rw [hrun]
    rfl
  rw [hwealth, Funded]
  generalize x.call jvm s = call at heffect
  cases heffect with
  | same _ kept => exact iff_of_true rfl fun id who r hcall hc => (kept id who r hcall hc).elim
  | opened id who b user free => exact iff_of_true (wealth_openAuction h user free) (by simp)
  | bid bid r b v user amount opened free =>
    exact iff_of_true (wealth_placeBid h user amount opened free) (by simp)
  | closed id who r closes =>
    rw [closeAution_conserves_iff h closes.1]
    -- The call and the auction that `Funded` speaks about are this one.
    constructor
    · intro hpaid id' who' r' hcall hc
      cases hcall
      obtain rfl : r = r' := Option.some.inj (closes.1.symm.trans hc.1)
      exact hpaid
    · intro hf
      exact hf id who r rfl closes

end Step

/-! ## What the parties get -/

/-- Between two states, the owner of an auction that was closed got its standing bid, and the
bidders of an auction that got a new bid got back what they had frozen. -/
structure Settles (s s' : BankRepository) : Prop where
  owner : ∀ k r, s.openedAuctions.lookup k = some r → s'.openedAuctions.lookup k = none →
    balanceOf s' (s.auction r).ownerUsername =
      (balanceOf s (s.auction r).ownerUsername).map (· + standing (s.auction r))
  outbid : ∀ k r new old, s.auctions.lookup k = some r → new ∈ (s'.auction r).bids.values →
    new ∉ (s.auction r).bids.values → old ∈ (s.auction r).bids.values →
      balanceOf s' old.username = (balanceOf s old.username).map (· + old.amount)

section Settles

variable {jvm : Jvm} {s : BankRepository}

/-- When no auction is closed and no bid is added to one that has a bid, there is nothing to pay. -/
theorem Settles.of_kept {s' : BankRepository}
    (opened : ∀ k r, s.openedAuctions.lookup k = some r → s'.openedAuctions.lookup k ≠ none)
    (bids : ∀ k r, s.auctions.lookup k = some r → (s'.auction r).bids = (s.auction r).bids ∨
      (s.auction r).bids.values = []) : Settles s s' := by
  refine ⟨fun k r ho hn => (opened k r ho hn).elim, ?_⟩
  intro k r new old hk hnew hnot hold
  rcases bids k r hk with e | e
  · rw [e] at hnew
    exact (hnot hnew).elim
  · rw [e] at hold
    cases hold

/-- Opening an auction settles. -/
theorem settles_openAuction (h : Indexed s) {id : JLong} {who : JString} {b : BankEntity}
    (user : s.findByUserName who = some b) (free : s.findByAuctionID id = none) :
    Settles s (BankServiceHelper.createAuction id who s).2 := by
  rw [BankServiceHelper.createAuction_of_free user free]
  apply Settles.of_kept
  · intro k r ho
    rw [BankRepository.newUserBankEntity_openedAuctions,
      BankRepository.createAuction_openedAuctions, JavaMap.lookup_insert]
    split_ifs <;> simp [ho]
  · intro k r hk
    left
    rw [BankRepository.newUserBankEntity_auction, s.createAuction_auction _ (h.object hk).1]

/-- A first bid for an id settles: it goes from the balance of the bidder into the escrow. -/
theorem settles_placeBid (h : Indexed s) {bid : BidEntity} {r : AuctionRef} {b : BankEntity}
    (user : s.findByUserName bid.username = some b)
    (opened : s.openedAuctions.lookup (some bid.id) = some r)
    (free : (s.auction r).bids.get bid.id = none) :
    Settles s (BankServiceHelper.acceptBid bid r s) := by
  have ha := (h.opened opened).1
  have hempty := h.bids_eq_empty ha free
  rw [h.acceptBid_eq user ha free]
  apply Settles.of_kept
  · intro k q ho
    show s.openedAuctions.lookup k ≠ none
    simp [ho]
  -- The auction that gets the bid had none, and so none of its bids is lost.
  · intro k q hk
    have hobj := s.updateAuction_auction (h.object ha).1 (fun a => a.addBid bid) q
    by_cases e : q = r
    · right
      rw [e, hempty, KeyedMap.empty_values]
    · left
      rw [if_neg e] at hobj
      exact congrArg AuctionEntity.bids hobj

/-- A deposit touches accounts only. -/
theorem createMoney_eq (who : JString) (amount : Int64) (s : BankRepository) :
    ∃ us, (BankServiceHelper.createMoney who amount s).2 = { s with users := us } := by
  unfold BankServiceHelper.createMoney
  split
  · exact ⟨_, rfl⟩
  · exact ⟨s.users, rfl⟩

/-- So does a transfer. -/
theorem transferMoney_eq (sender : JString) (fromAmount : Int64) (receiver : JString) (toAmount : Int64)
    (s : BankRepository) :
    ∃ us, (BankServiceHelper.transferMoney sender fromAmount receiver toAmount s).2 =
      { s with users := us } := by
  unfold BankServiceHelper.transferMoney BankRepository.updateUser
  split
  · exact ⟨s.users, rfl⟩
  · exact ⟨_, rfl⟩
  · dsimp only
    split <;> exact ⟨_, rfl⟩

/-- And the pay-out. -/
theorem payOwner_eq (a : AuctionEntity) (s : BankRepository) :
    ∃ us, (BankServiceHelper.payOwner a s).2 = { s with users := us } := by
  unfold BankServiceHelper.payOwner
  split
  · exact ⟨s.users, rfl⟩
  · split
    · exact ⟨s.users, rfl⟩
    · exact createMoney_eq _ _ s

/-- Closing settles when nothing stands in the auction, or when it is the auction 0 and its owner can be
paid. -/
theorem settles_closeAuction (h : Indexed s) {id : JLong} {r : AuctionRef}
    (opened : s.openedAuctions.lookup id = some r)
    (funded : standing (s.auction r) = 0 ∨
      id = some 0 ∧ (balanceOf s (s.auction r).ownerUsername).isSome) :
    Settles s (BankServiceHelper.payOwner (s.auction r).close
      ((s.updateAuction r AuctionEntity.close).closeAuction r)).2 := by
  have ha := (h.opened opened).1
  have hobj := s.updateAuction_auction (h.object ha).1 AuctionEntity.close
  -- What is paid out is the standing bid, also when that is nothing.
  have hpaid : (s.auction r).getLastBidAmount = standing (s.auction r) := by
    rw [getLastBidAmount_eq h ha]
    rcases funded with h0 | ⟨e, -⟩
    · simp [h0]
    · rw [if_pos e]
  have hbalance := balanceOf_payOwner (s.auction r).close
    ((s.updateAuction r AuctionEntity.close).closeAuction r) (s.auction r).ownerUsername
  obtain ⟨us, hus⟩ := payOwner_eq (s.auction r).close
    ((s.updateAuction r AuctionEntity.close).closeAuction r)
  constructor
  · intro k q ho hn
    -- The auction that is no longer opened is the one that was closed.
    have hk : id = k := by
      by_contra e
      rw [hus] at hn
      have hopened := h.openedAuctions_closeAuction ha k
      rw [if_neg e, ho] at hopened
      cases hopened.symm.trans hn
    obtain rfl : r = q := Option.some.inj (opened.symm.trans (hk ▸ ho))
    rw [hbalance, ← hpaid]
    simp only [AuctionEntity.close]
    rfl
  · intro k q new old hk hnew hnot
    rw [hus] at hnew
    change new ∈ ((s.updateAuction r AuctionEntity.close).auction q).bids.values at hnew
    rw [hobj] at hnew
    split_ifs at hnew with e
    · exact (hnot (e ▸ hnew)).elim
    · exact (hnot hnew).elim

/-- A funded step settles. -/
theorem Step.run_settles (h : Indexed s) {x : Step} (hf : x.Funded jvm s) :
    Settles s (x.run jvm s) := by
  obtain ⟨t, v, heffect, hrun⟩ := x.run_effect jvm h
  have hsettles : Settles s t := by
    rw [Step.Funded] at hf
    generalize x.call jvm s = call at heffect hf
    cases heffect with
    | same => exact .of_kept (fun k r ho => by simp [ho]) fun k r hk => .inl rfl
    | opened id who b user free => exact settles_openAuction h user free
    | bid bid r b v user amount opened free => exact settles_placeBid h user opened free
    | closed id who r closes => exact settles_closeAuction h closes.1 (hf id who r rfl closes)
  rw [hrun]
  exact ⟨hsettles.owner, hsettles.outbid⟩

end Settles

/-! ## Every run -/

/-- The repository after some steps. -/
def afterSteps (jvm : Jvm) (xs : List Step) (s : BankRepository) : BankRepository :=
  xs.foldl (fun s x => x.run jvm s) s

/-- **Auctions conserve money:** from any state of a replica, at every point of a run of steps on
auctions the balances and the standing bids of the opened auctions have the sum that they had, and
every step pays the owner and the outbid users what they should get, exactly when every step of the
run is funded in the state that it meets. -/
theorem auctions_conserve_iff (jvm : Jvm) (st : BankService) (h : Reachable jvm st) (xs : List Step) :
    ((∀ ys, ys <+: xs → wealth (afterSteps jvm ys st.bankRepo) = wealth st.bankRepo) ∧
      ∀ ys x, ys ++ [x] <+: xs →
        Settles (afterSteps jvm ys st.bankRepo) (x.run jvm (afterSteps jvm ys st.bankRepo))) ↔
      ∀ ys x, ys ++ [x] <+: xs → x.Funded jvm (afterSteps jvm ys st.bankRepo) := by
  have hindexed : ∀ ys, Indexed (afterSteps jvm ys st.bankRepo) := fun ys =>
    Run.foldl_invariant (fun s x hs => x.run_indexed hs) ys h.indexed
  -- Settling follows from the condition, while the sum is equivalent to it.
  have hwealth : (∀ ys, ys <+: xs → wealth (afterSteps jvm ys st.bankRepo) = wealth st.bankRepo) ↔
      ∀ ys x, ys ++ [x] <+: xs → x.Funded jvm (afterSteps jvm ys st.bankRepo) := by
    refine Run.forall_prefix_iff
      (P := fun ys => wealth (afterSteps jvm ys st.bankRepo) = wealth st.bankRepo) rfl ?_ xs
    intro ys x hys
    rw [← Step.run_conserves_iff (hindexed ys), hys]
    simp [afterSteps]
  rw [hwealth]
  exact ⟨And.left, fun hf => ⟨hf, fun ys x hx => Step.run_settles (hindexed ys) (hf ys x hx)⟩⟩

/-- A machine on which an uploaded contract queues a bid of 5 on the auction `id`. -/
def bidJvm (id : Int64) : Jvm := Jvm.plain (ContractClass.queueing ["BID 5 " ++ Long.toText id])

/-- A replica on which `alice` opened the auction `id` and `bob` uploaded a contract that bids. -/
def withAuction (id : Int64) : BankService :=
  let st := (BankService.new.appExecuteOrdered (bidJvm id)
    (Proxy.registerUser (some "alice") (some "secret") (some 10) none)).2
  let st := (st.appExecuteOrdered (bidJvm id)
    (Proxy.registerUser (some "bob") (some "secret") (some 20) none)).2
  let st := (st.appExecuteOrdered (bidJvm id) (Proxy.createAuction (some "alice") (some id))).2
  (st.appExecuteOrdered (bidJvm id) (Proxy.createSmartContract (some "bob") [])).2

/-- The replica with the auction is reachable. -/
theorem withAuction_reachable (id : Int64) : Reachable (bidJvm id) (withAuction id) :=
  (((Reachable.new.ordered _).ordered _).ordered _).ordered _

/-- The bid of `bob` on the auction 7. -/
def bidOnSeven : Step := .operation (withAuction 7).sR 0 0 "BID 5 7" (by decide)

/-- **Closing loses the bid:** `bob` bids 5 on the auction 7 of `alice`, who then closes it. The
owner is paid nothing, and the money drops from 30 to 25. -/
theorem closing_loses_bid :
    wealth (withAuction 7).bankRepo = 30 ∧
      balanceOf (afterSteps (bidJvm 7) [bidOnSeven] (withAuction 7).bankRepo) (some "bob") = some 15 ∧
      wealth (afterSteps (bidJvm 7) [bidOnSeven] (withAuction 7).bankRepo) = 30 ∧
      wealth (afterSteps (bidJvm 7) [bidOnSeven, .closeAuction (some "alice") (some 7)]
        (withAuction 7).bankRepo) = 25 ∧
      balanceOf (afterSteps (bidJvm 7) [bidOnSeven, .closeAuction (some "alice") (some 7)]
        (withAuction 7).bankRepo) (some "alice") = some 10 := by
  decide

/-- After the bid of 5 on the auction 0, closing it pays `alice` and keeps all the money. -/
theorem auctions_conserve_auction_zero :
    let st := (withAuction 0).pass (bidJvm 0) fun _ _ => 0
    balanceOf st.bankRepo (some "bob") = some 15 ∧
      wealth (afterSteps (bidJvm 0) [.closeAuction (some "alice") (some 0)] st.bankRepo) =
        wealth st.bankRepo ∧
      balanceOf (afterSteps (bidJvm 0) [.closeAuction (some "alice") (some 0)] st.bankRepo)
        (some "alice") = some 15 := by
  have h := auctions_conserve_iff (bidJvm 0) _ ((withAuction_reachable 0).pass fun _ _ => 0)
    [.closeAuction (some "alice") (some 0)]
  refine ⟨by decide, (h.mpr ?_).1 _ (List.prefix_refl _), by decide⟩
  intro ys x hx id who r hcall hc
  -- The run has one step only.
  obtain ⟨rfl, rfl⟩ : ys = [] ∧ x = .closeAuction (some "alice") (some 0) := by
    have hlen := hx.length_le
    simp only [List.length_append, List.length_singleton] at hlen
    obtain rfl : ys = [] := List.eq_nil_of_length_eq_zero (by omega)
    exact ⟨rfl, by simpa using hx⟩
  obtain ⟨rfl, rfl⟩ : some 0 = id ∧ some "alice" = who := by
    cases hcall
    exact ⟨rfl, rfl⟩
  obtain rfl : r = 0 := Option.some.inj (hc.1.symm.trans (by decide))
  exact .inr ⟨rfl, by decide⟩

end NovaBank.Money
