import NovaBank.Money.Moves

/-!
# Where the money comes from

`wealth` is all the money of a replica: the balances and the standing bids of the opened auctions.
`issued` says what an action adds to it, for each of the things that an action can ask for: the amount
of a new account, the difference that a deposit or a transfer makes, and what is lost with the bid of
an auction at its end. Auctions and bids themselves move money and issue none. `wealth_accounted` is
the balance sheet of a whole run: all the money after it is what its actions have issued.
-/

namespace NovaBank.Money

open Java Replica

/-! ## What is issued -/

/-- What an operation of the ledger adds to the money of a repository in which its users have
balances. A transfer to oneself sets one balance twice. -/
def issuedBy (jvm : Jvm) (s : BankRepository) : LedgerOperation → Int64
  | .createMoney who amount => amount - (balanceOf s who).getD 0
  | .transferMoney sender fromAmount receiver toAmount =>
    toAmount - (balanceOf s receiver).getD 0 +
      if sender = receiver then 0 else fromAmount - (balanceOf s sender).getD 0
  | .createAuction _ _ | .createBid _ _ _ _ => 0
  -- The bid is taken out of the escrow. It is paid to an owner with a balance, and for the auction 0.
  | .closeAution id who =>
    match s.findByUserName who, s.findByOpenedAuctionID id with
    | some b, some r =>
      match BankServiceHelper.mayClose jvm b who (s.auction r) (s.auction r) with
      | .ok true =>
        if id = some 0 ∧ (balanceOf s (s.auction r).ownerUsername).isSome then 0
        else -standing (s.auction r)
      | _ => 0
    | _, _ => 0

/-- What an action adds to the money of a replica. -/
def issued (jvm : Jvm) (st : BankService) (x : Action) : Int64 :=
  match x.asks jvm st with
  | none => 0
  | some (.register b) => b.amount.getD 0
  | some (.call op) => issuedBy jvm st.bankRepo op

/-- What the actions of a run add together. -/
def accounted (jvm : Jvm) : List Action → BankService → Int64
  | [], _ => 0
  | x :: xs, st => issued jvm st x + accounted jvm xs (x.run jvm st)

section Issues

variable {jvm : Jvm} {s : BankRepository}

/-- A new account brings its amount. -/
theorem wealth_register {b : BankEntity} (free : s.findByUserName b.userName = none) :
    wealth (s.newUserBankEntity b) = wealth s + b.amount.getD 0 := by
  have hget : s.users.get b.userName = none := free
  have htotal : totalBalance (s.newUserBankEntity b) = totalBalance s + b.amount.getD 0 := by
    rw [totalBalance, BankRepository.newUserBankEntity, KeyedMap.total_put, hget]
    show totalBalance s - 0 + b.amount.getD 0 = _
    rw [sub_zero]
  show totalBalance _ + escrow s = totalBalance s + escrow s + _
  rw [htotal]
  abel

/-- Setting a balance replaces it. -/
theorem wealth_createMoney {who : JString} {v : Int64} (hv : balanceOf s who = some v) (amount : Int64) :
    wealth (BankServiceHelper.createMoney who amount s).2 = wealth s + (amount - v) := by
  obtain ⟨b, hb, hamount⟩ := find_of_balanceOf hv
  have htotal := totalBalance_setAmount hb amount
  simp only [BankServiceHelper.createMoney, hb]
  show totalBalance _ + escrow s = totalBalance s + escrow s + _
  rw [htotal, hamount, Option.getD_some]
  abel

/-- A transfer replaces two balances, or one twice. -/
theorem wealth_transferMoney {sender receiver : JString} {v w : Int64}
    (hv : balanceOf s sender = some v) (hw : balanceOf s receiver = some w)
    (fromAmount toAmount : Int64) :
    wealth (BankServiceHelper.transferMoney sender fromAmount receiver toAmount s).2 =
      wealth s + (toAmount - w + if sender = receiver then 0 else fromAmount - v) := by
  obtain ⟨b, hb, hbv⟩ := find_of_balanceOf hv
  obtain ⟨c, hc, hcw⟩ := find_of_balanceOf hw
  have htotal := totalBalance_setTwo hb hc fromAmount toAmount
  simp only [BankServiceHelper.transferMoney, hb, hc]
  show totalBalance _ + escrow _ = totalBalance s + escrow s + _
  have hescrow : escrow ((s.newUserBankEntity (b.updateAmount fromAmount)).updateUser receiver
      fun b => b.updateAmount toAmount) = escrow s := by
    unfold BankRepository.updateUser
    split <;> rfl
  rw [htotal, hescrow, hbv, hcw, Option.getD_some, Option.getD_some]
  by_cases e : sender = receiver
  · -- The two balances are one.
    have hvw : v = w := Option.some.inj (by rw [← hv, ← hw, e])
    rw [if_pos e, if_pos e, hvw]
    abel
  · rw [if_neg e, if_neg e]
    abel

/-- Closing an auction. -/
theorem wealth_closeAution (h : Indexed s) (id : JLong) (who : JString) :
    wealth (BankServiceHelper.closeAution jvm id who s).2 =
      wealth s + issuedBy jvm s (.closeAution id who) := by
  rcases closeAution_cases jvm h id who with ⟨hs, hno⟩ | ⟨r, hc, hs⟩
  -- A closing that changes nothing issues nothing: its conditions are those of `issuedBy`.
  · have hzero : issuedBy jvm s (.closeAution id who) = 0 := by
      simp only [issuedBy]
      split
      · rename_i b r hb ho
        split
        · rename_i hm
          exact absurd ⟨ho, b, hb, hm⟩ (hno r)
        · rfl
      · rfl
    rw [hs, hzero, add_zero]
  · obtain ⟨ho, b, hb, hm⟩ := hc
    have hlast := getLastBidAmount_eq h (h.opened ho).1
    have hclose : ((s.auction r).close.getLastBidAmount) = (s.auction r).getLastBidAmount := rfl
    rw [hs, wealth_payOwner, hclose, hlast, wealth, escrow_closeAuction h ho]
    simp only [issuedBy, hb, ho, hm]
    show totalBalance s + (escrow s - standing (s.auction r)) +
      (if (balanceOf s (s.auction r).ownerUsername).isSome then _ else 0) = _
    rw [wealth]
    -- The owner gets the standing bid back only in the auction with the id zero.
    by_cases hzero : id = some 0
    · by_cases hsome : (balanceOf s (s.auction r).ownerUsername).isSome
      · rw [if_pos hsome, if_pos hzero, if_pos ⟨hzero, hsome⟩]
        abel
      · rw [if_neg hsome, if_neg fun e => hsome e.2]
        abel
    · rw [if_neg hzero, ite_self, if_neg fun e => hzero e.1]
      abel

/-- A bid moves money from a balance to the escrow. -/
theorem wealth_createBid (h : Indexed s) (now id auctionId amount : Int64) (who : JString) :
    wealth (BankServiceHelper.createBid jvm now id auctionId amount who s).2 = wealth s := by
  rcases createBid_iff_cases jvm h now id auctionId amount who with ⟨hs, -⟩ | ⟨r, v, hbid, hs, -⟩
  · rw [hs]
  · obtain ⟨ho, hfree, hv, -⟩ := hbid
    obtain ⟨b, hb, hamount⟩ := find_of_balanceOf hv
    have hwealth : wealth (BankServiceHelper.acceptBid ⟨id, who, amount, now⟩ r s) = wealth s :=
      wealth_placeBid h hb hamount ho hfree
    rw [hs, hwealth]

/-- A new auction moves no money. -/
theorem wealth_createAuction (h : Indexed s) (id : JLong) (who : JString) :
    wealth (BankServiceHelper.createAuction id who s).2 = wealth s := by
  cases hb : s.findByUserName who with
  | none => simp only [BankServiceHelper.createAuction, hb]
  | some b =>
    cases ha : s.findByAuctionID id with
    | some r => simp only [BankServiceHelper.createAuction, hb, ha]
    | none => exact wealth_openAuction h hb ha

/-- The users whose balances an operation sets have balances. -/
def Settable (s : BankRepository) : LedgerOperation → Prop
  | .createMoney who _ => ∃ v, balanceOf s who = some v
  | .transferMoney sender _ receiver _ =>
    (∃ v, balanceOf s sender = some v) ∧ ∃ w, balanceOf s receiver = some w
  | _ => True

/-- An operation adds what it issues. -/
theorem wealth_run (h : Indexed s) (now : Int64) {op : LedgerOperation} (hop : Settable s op) :
    wealth (op.run jvm now s).2 = wealth s + issuedBy jvm s op := by
  -- Only deposits, transfers and closings can change the sum.
  cases op with
  | createMoney who amount =>
    obtain ⟨v, hv⟩ := hop
    simp only [issuedBy, hv, Option.getD_some]
    exact wealth_createMoney hv amount
  | transferMoney sender fromAmount receiver toAmount =>
    obtain ⟨⟨v, hv⟩, w, hw⟩ := hop
    simp only [issuedBy, hv, hw, Option.getD_some]
    exact wealth_transferMoney hv hw fromAmount toAmount
  | createAuction id who => exact (wealth_createAuction h id who).trans (add_zero _).symm
  | createBid id auctionId amount who =>
    exact (wealth_createBid h now id auctionId amount who).trans (add_zero _).symm
  | closeAution id who => exact wealth_closeAution h id who

end Issues

/-! ## Runs -/

section Runs

variable {jvm : Jvm} {st : BankService}

/-- A request that sets balances has compared them. -/
theorem settable_of_request {s : BankRepository} {r : LedgerRequest} {op : LedgerOperation}
    (h : r.asks jvm s = some (.call op)) : Settable s op := by
  cases r with
  | registerUser username rest =>
    cases LedgerRequest.requested_of_asks h
  | createMoney who rest =>
    -- The comparison needs a balance, since `null` cannot be unboxed.
    simp only [LedgerRequest.asks] at h
    split at h
    · rename_i b original amount hb
      cases hv : b.amount with
      | none => simp [BankRepository.compareAmount, hb, hv] at h
      | some v =>
        have hbalance : balanceOf s who = some v := by rw [balanceOf, hb, Option.bind_some, hv]
        rw [compareAmount_eq hbalance] at h
        dsimp only at h
        split_ifs at h
        all_goals
          cases h
          exact ⟨v, hbalance⟩
    · cases h
  | transferMoney sender fromSaldo receiver toSaldo fromAmount toAmount =>
    simp only [LedgerRequest.asks] at h
    split at h
    · rename_i b c hb hc
      split at h
      · rename_i hsame
        obtain ⟨hv, hw⟩ := amountsAre_true hsame
        cases h
        exact ⟨⟨fromSaldo, by rw [balanceOf, hb, Option.bind_some, hv]⟩,
          toSaldo, by rw [balanceOf, hc, Option.bind_some, hw]⟩
      · cases h
    · cases h
  | createAuction who auctionID =>
    cases LedgerRequest.requested_of_asks h
    trivial
  | closeAuction who auctionID =>
    cases h
    trivial

/-- What sets balances has read them. -/
theorem settable_of_asks {x : Action} {op : LedgerOperation} (h : x.asks jvm st = some (.call op)) :
    Settable st.bankRepo op := by
  cases x with
  | ordered command =>
    simp only [Action.asks] at h
    split at h
    · exact settable_of_request h
    · cases h
  | unordered command => cases h
  -- An operation of a contract reads the balances before it asks for the call.
  | operation now i op' =>
    obtain ⟨www, call, hcall, -, hd⟩ := Action.asks_operation h
    obtain rfl := Ask.call.inj hcall
    cases hd with
    | createMoney old amount name balance asked => exact ⟨old, balance_eq_ok_iff.mp balance⟩
    | transferMoney old toOld amount receiver name balance asked enough target toBalance =>
      exact ⟨⟨old, balance_eq_ok_iff.mp balance⟩, toOld, balance_eq_ok_iff.mp toBalance⟩
    | createAuction name => trivial
    | createBid id amount name auction asked => trivial
    | closeAution id name auction => trivial

/-- An action adds what it issues. -/
theorem wealth_action (h : Indexed st.bankRepo) (x : Action) :
    wealth (x.run jvm st).bankRepo = wealth st.bankRepo + issued jvm st x := by
  obtain ⟨version, hrun⟩ := x.run_eq jvm st
  have hversion : ∀ s : BankRepository, wealth { s with version := version } = wealth s :=
    fun _ => rfl
  rw [hrun, hversion]
  unfold issued
  cases hasks : x.asks jvm st with
  | none => exact (add_zero _).symm
  | some a =>
    cases a with
    | register b => exact wealth_register (Action.free_of_register hasks)
    | call op => exact wealth_run h x.time (settable_of_asks hasks)

/-- The actions of a run add what they issue together. -/
theorem wealth_runAll (h : Indexed st.bankRepo) (xs : List Action) :
    wealth (st.runAll jvm xs).bankRepo = wealth st.bankRepo + accounted jvm xs st := by
  induction xs generalizing st with
  | nil => exact (add_zero _).symm
  | cons x xs ih =>
    have hx : Indexed (x.run jvm st).bankRepo := h.updates (x.run_updates st)
    calc wealth ((x.run jvm st).runAll jvm xs).bankRepo
        = wealth (x.run jvm st).bankRepo + accounted jvm xs (x.run jvm st) := ih hx
      _ = wealth st.bankRepo + issued jvm st x + accounted jvm xs (x.run jvm st) := by
          rw [wealth_action h x]
      _ = wealth st.bankRepo + accounted jvm (x :: xs) st := add_assoc _ _ _

/-- **Where the money comes from:** after every run from the empty replica, all the money, in balances
and in the standing bids of the opened auctions, is what the actions of the run have issued. -/
theorem wealth_accounted (jvm : Jvm) (xs : List Action) :
    wealth (reached jvm xs) = accounted jvm xs BankService.new := by
  have hempty : wealth BankService.new.bankRepo = 0 := rfl
  have hrun := @wealth_runAll jvm BankService.new Indexed.new xs
  rwa [hempty, zero_add] at hrun

end Runs

end NovaBank.Money
