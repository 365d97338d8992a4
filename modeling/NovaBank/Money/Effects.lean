import NovaBank.Money.Escrow
import NovaBank.Replica.Runs

/-!
# What an operation does to a balance

The five operations of the ledger, each with the balances that it leaves: a bid takes its amount
from the bidder when it is accepted (`createBid_iff_cases`, `balanceOf_acceptBid`), closing adds the
last bid to the balance of the owner (`balanceOf_closed`), and an operation leaves the balance of a
user whom it does not concern alone (`balanceOf_of_not_concerns`). What an operation does to the rest
of the repository is said once, by `leaves_run`.
-/

namespace NovaBank.Money

open Java Replica

section Effects

variable {jvm : Jvm} {s : BankRepository}

/-- The user `who` has the balance `v` and may bid `amount` of it on the auction `r`, which is opened
under `id` and has no bid yet. -/
def AcceptsBid (jvm : Jvm) (id amount : Int64) (who : JString) (s : BankRepository) (r : AuctionRef)
    (v : Int64) : Prop :=
  s.findByOpenedAuctionID (some id) = some r ∧ (s.auction r).bids.get id = none ∧
    balanceOf s who = some v ∧ amount ≤ v ∧
    BankServiceHelper.mayBid jvm who (s.auction r) (s.auction r) = .ok true

/-- An operation succeeds when it returns an object without an error. -/
def succeeded : Except JavaException JSONObject → Bool
  | .ok j => !j.has "error"
  | .error _ => false

/-- What `createBid` does: nothing, or it accepts the bid. -/
theorem createBid_iff_cases (jvm : Jvm) (h : Indexed s) (now id auctionId amount : Int64)
    (who : JString) :
    ((BankServiceHelper.createBid jvm now id auctionId amount who s).2 = s ∧
      (∀ r v, ¬ AcceptsBid jvm id amount who s r v) ∧
      succeeded (BankServiceHelper.createBid jvm now id auctionId amount who s).1 = false) ∨
    ∃ r v, AcceptsBid jvm id amount who s r v ∧
      (BankServiceHelper.createBid jvm now id auctionId amount who s).2 =
        BankServiceHelper.acceptBid ⟨id, who, amount, now⟩ r s ∧
      succeeded (BankServiceHelper.createBid jvm now id auctionId amount who s).1 = true := by
  have herror : ∀ message, succeeded (.ok (JSONObject.error message)) = false := fun _ => rfl
  cases hu : s.findByUserName who with
  | none =>
    left
    simp [BankServiceHelper.createBid, AcceptsBid, balanceOf, hu, herror]
  | some b =>
    rcases h.auction_cases (some id) with ⟨ha, ho, hc⟩ | ⟨r, ha, ho, hc⟩ | ⟨r, ha, ho, hc⟩
    · left
      simp [BankServiceHelper.createBid, AcceptsBid, BankRepository.findByAuctionID,
        BankRepository.findByOpenedAuctionID, hu, ha, ho, herror]
    · -- Opened: the maps and the flags pass the checks.
      have hopen := (h.opened ho).2.2
      simp only [BankServiceHelper.createBid, AcceptsBid, balanceOf, BankRepository.findByAuctionID,
        BankRepository.findByOpenedAuctionID, BankRepository.findByClosedAuctionID, hu, ha, ho, hc,
        Option.bind_some, Option.some.injEq]
      cases hm : BankServiceHelper.mayBid jvm who (s.auction r) (s.auction r) with
      | error e =>
        left
        refine ⟨rfl, ?_, rfl⟩
        rintro r' v ⟨rfl, -, -, -, hm'⟩
        simp [hm] at hm'
      | ok allowed =>
        cases allowed with
        | false =>
          left
          refine ⟨rfl, ?_, herror _⟩
          rintro r' v ⟨rfl, -, -, -, hm'⟩
          simp [hm] at hm'
        | true =>
          simp only [hopen, Bool.not_false, Bool.and_self, if_true]
          cases hfree : (s.auction r).bids.get id with
          | some old =>
            left
            refine ⟨rfl, ?_, herror _⟩
            rintro r' v ⟨rfl, hfree', -⟩
            simp [hfree] at hfree'
          | none =>
            cases hv : b.amount with
            | none =>
              left
              simp [succeeded]
            | some v =>
              simp only [Option.isNone_none, if_true]
              by_cases henough : amount ≤ v
              · right
                refine ⟨r, v, ⟨rfl, hfree, rfl, henough, hm⟩, by simp [henough], ?_⟩
                rw [if_pos henough]
                rfl
              · left
                simp only [henough, if_false, true_and, herror, and_true]
                rintro r' v' ⟨-, -, hv', henough', -⟩
                exact henough (Option.some.inj hv' ▸ henough')
    · left
      simp [BankServiceHelper.createBid, AcceptsBid, BankRepository.findByAuctionID,
        BankRepository.findByOpenedAuctionID, hu, ha, ho, herror]

/-- What an operation leaves: other accounts only, a new auction, an auction with a bid, or one that is
closed. -/
inductive Leaves (jvm : Jvm) (now : Int64) (s : BankRepository) :
    LedgerOperation → BankRepository → Prop where
  | accounts (op : LedgerOperation) (users : Users) : Leaves jvm now s op { s with users := users }
  | opened {id : JLong} {who : JString} {b : BankEntity} (user : s.findByUserName who = some b)
      (free : s.findByAuctionID id = none) :
      Leaves jvm now s (.createAuction id who) (BankServiceHelper.createAuction id who s).2
  | placed {id auctionId amount : Int64} {who : JString} {r : AuctionRef} (b : BankEntity)
      (auction : s.findByAuctionID (some id) = some r) :
      Leaves jvm now s (.createBid id auctionId amount who)
        (((s.newUserBankEntity b).updateAuction r fun a =>
          a.addBid ⟨id, who, amount, now⟩).createBid ⟨id, who, amount, now⟩)
  | closed {id : JLong} {who : JString} {r : AuctionRef} (closes : Closes jvm id who s r)
      (users : Users) :
      Leaves jvm now s (.closeAution id who)
        { (s.updateAuction r AuctionEntity.close).closeAuction r with users := users }

/-- Every operation leaves what its kind says. -/
theorem leaves_run (jvm : Jvm) (h : Indexed s) (now : Int64) (op : LedgerOperation) :
    Leaves jvm now s op (op.run jvm now s).2 := by
  -- A call that is refused leaves the state as it is, which is a change of no account.
  cases op with
  | createMoney who amount =>
    obtain ⟨us, hs⟩ := createMoney_eq who amount s
    show Leaves jvm now s _ (BankServiceHelper.createMoney who amount s).2
    rw [hs]
    exact .accounts _ us
  | transferMoney sender fromAmount receiver toAmount =>
    obtain ⟨us, hs⟩ := transferMoney_eq sender fromAmount receiver toAmount s
    show Leaves jvm now s _ (BankServiceHelper.transferMoney sender fromAmount receiver toAmount s).2
    rw [hs]
    exact .accounts _ us
  | createAuction id who =>
    show Leaves jvm now s _ (BankServiceHelper.createAuction id who s).2
    cases hu : s.findByUserName who with
    | none =>
      simp only [BankServiceHelper.createAuction, hu]
      exact .accounts _ s.users
    | some b =>
      cases ha : s.findByAuctionID id with
      | none => exact .opened hu ha
      | some r =>
        simp only [BankServiceHelper.createAuction, hu, ha]
        exact .accounts _ s.users
  | createBid id auctionId amount who =>
    show Leaves jvm now s _ (BankServiceHelper.createBid jvm now id auctionId amount who s).2
    rcases createBid_iff_cases jvm h now id auctionId amount who with ⟨hs, -⟩ | ⟨r, v, hbid, hs, -⟩
    · rw [hs]
      exact .accounts _ s.users
    · obtain ⟨ho, hfree, hv, -⟩ := hbid
      obtain ⟨b, hb, -⟩ := find_of_balanceOf hv
      have heq : BankServiceHelper.acceptBid ⟨id, who, amount, now⟩ r s = _ :=
        h.acceptBid_eq hb (h.opened ho).1 hfree
      rw [hs, heq]
      exact .placed _ (h.opened ho).1
  | closeAution id who =>
    show Leaves jvm now s _ (BankServiceHelper.closeAution jvm id who s).2
    rcases closeAution_cases jvm h id who with ⟨hs, -⟩ | ⟨r, hc, hs⟩
    · rw [hs]
      exact .accounts _ s.users
    · obtain ⟨us, hus⟩ := payOwner_eq (s.auction r).close
        ((s.updateAuction r AuctionEntity.close).closeAuction r)
      rw [hs, hus]
      exact .closed hc us

/-- An accepted bid takes its amount from the bidder. -/
theorem balanceOf_acceptBid (h : Indexed s) {id amount : Int64} {who : JString} {r : AuctionRef}
    {v : Int64} (hbid : AcceptsBid jvm id amount who s r v) (now : Int64) (u : JString) :
    balanceOf (BankServiceHelper.acceptBid ⟨id, who, amount, now⟩ r s) u =
      if who = u then some (v - amount) else balanceOf s u := by
  obtain ⟨ho, hfree, hv, -⟩ := hbid
  obtain ⟨b, hb, hamount⟩ := find_of_balanceOf hv
  have heq : BankServiceHelper.acceptBid ⟨id, who, amount, now⟩ r s = _ :=
    h.acceptBid_eq hb (h.opened ho).1 hfree
  rw [heq]
  show balanceOf (s.newUserBankEntity (b.freezeBid ⟨id, who, amount, now⟩)) u = _
  rw [balanceOf_newUserBankEntity, BankEntity.freezeBid_userName, BankRepository.userName_of_find hb]
  simp [BankEntity.freezeBid, hamount]

/-- Closing an auction adds its last bid to the balance of the owner, if there is one. -/
theorem balanceOf_closed (r : AuctionRef) (u : JString) :
    balanceOf (BankServiceHelper.payOwner (s.auction r).close
        ((s.updateAuction r AuctionEntity.close).closeAuction r)).2 u =
      (balanceOf s u).map
        (· + if (s.auction r).ownerUsername = u then (s.auction r).getLastBidAmount else 0) :=
  balanceOf_payOwner (s.auction r).close _ u

/-- A new auction touches no balance. -/
theorem balanceOf_createAuction (id : JLong) (who : JString) (s : BankRepository) (u : JString) :
    balanceOf (BankServiceHelper.createAuction id who s).2 u = balanceOf s u := by
  cases hu : s.findByUserName who with
  | none => simp only [BankServiceHelper.createAuction, hu]
  | some b =>
    cases ha : s.findByAuctionID id with
    | some r => simp only [BankServiceHelper.createAuction, hu, ha]
    | none =>
      rw [BankServiceHelper.createAuction_of_free hu ha, balanceOf_newUserBankEntity,
        BankEntity.addAuction_userName, BankRepository.userName_of_find hu]
      split_ifs with e
      · simp [balanceOf, ← e, hu, BankEntity.addAuction]
      · rfl

/-- Setting the balance of a user. -/
theorem balanceOf_createMoney {who : JString} {b : BankEntity} (hb : s.findByUserName who = some b)
    (amount : Int64) (u : JString) :
    balanceOf (BankServiceHelper.createMoney who amount s).2 u =
      if who = u then some amount else balanceOf s u := by
  simp only [BankServiceHelper.createMoney, hb]
  exact balanceOf_setAmount hb amount u

/-- A transfer sets both balances, and a user who is both gets that of the receiver. -/
theorem balanceOf_transferMoney {sender receiver : JString} {b c : BankEntity}
    (hb : s.findByUserName sender = some b) (hc : s.findByUserName receiver = some c)
    (fromAmount toAmount : Int64) (u : JString) :
    balanceOf (BankServiceHelper.transferMoney sender fromAmount receiver toAmount s).2 u =
      if receiver = u then some toAmount else if sender = u then some fromAmount
      else balanceOf s u := by
  simp only [BankServiceHelper.transferMoney, hb, hc]
  exact balanceOf_setTwo hb hc fromAmount toAmount u

/-- The balances after an action are those after what it asks for. -/
theorem balanceOf_run (x : Action) (st : BankService) (u : JString) :
    balanceOf (x.run jvm st).bankRepo u =
      (x.asks jvm st).elim (balanceOf st.bankRepo u) fun a =>
        balanceOf (a.run jvm x.time st.bankRepo) u := by
  obtain ⟨v, hrun⟩ := x.run_eq jvm st
  rw [hrun]
  cases x.asks jvm st <;> rfl

/-- An operation concerns the users whose balances it may change. -/
def Concerns (jvm : Jvm) (s : BankRepository) (u : JString) : LedgerOperation → Prop
  | .createMoney who _ => who = u
  | .transferMoney sender _ receiver _ => sender = u ∨ receiver = u
  | .createAuction _ _ => False
  -- The bid that is given back is that of the last bidder.
  | .createBid id _ _ who => who = u ∨ ∃ r last, s.findByAuctionID (some id) = some r ∧
      (s.auction r).getLastBid = some last ∧ last.username = u
  | .closeAution id who => ∃ r, Closes jvm id who s r ∧ (s.auction r).ownerUsername = u

/-- An operation leaves the balance of a user whom it does not concern alone. -/
theorem balanceOf_of_not_concerns (h : Indexed s) {u : JString} {op : LedgerOperation}
    (hu : ¬ Concerns jvm s u op) (now : Int64) : balanceOf (op.run jvm now s).2 u = balanceOf s u := by
  -- Each call writes only the accounts that it names, or those of the auction.
  cases op with
  | createMoney who amount =>
    show balanceOf (BankServiceHelper.createMoney who amount s).2 u = _
    unfold BankServiceHelper.createMoney
    split
    · rename_i b hb
      exact (balanceOf_setAmount hb amount u).trans (if_neg hu)
    · rfl
  | transferMoney sender fromAmount receiver toAmount =>
    obtain ⟨hsender, hreceiver⟩ := not_or.mp hu
    show balanceOf (BankServiceHelper.transferMoney sender fromAmount receiver toAmount s).2 u = _
    unfold BankServiceHelper.transferMoney
    split
    · rfl
    · rename_i b hb _
      exact (balanceOf_setAmount hb fromAmount u).trans (if_neg hsender)
    · rename_i b c hb hc
      refine (balanceOf_setTwo hb hc fromAmount toAmount u).trans ?_
      rw [if_neg hreceiver, if_neg hsender]
  | createAuction id who => exact balanceOf_createAuction id who s u
  | createBid id auctionId amount who =>
    show balanceOf (BankServiceHelper.createBid jvm now id auctionId amount who s).2 u = _
    rcases createBid_iff_cases jvm h now id auctionId amount who with ⟨hs, -⟩ | ⟨r, v, hbid, hs, -⟩
    · rw [hs]
    · rw [hs, balanceOf_acceptBid h hbid, if_neg fun e => hu (.inl e)]
  | closeAution id who =>
    show balanceOf (BankServiceHelper.closeAution jvm id who s).2 u = _
    rcases closeAution_cases jvm h id who with ⟨hs, -⟩ | ⟨r, hc, hs⟩
    · rw [hs]
    · rw [hs, balanceOf_closed, if_neg fun e => hu ⟨r, hc, e⟩]
      simp

section Actions

variable {st : BankService} {a : Action} {u : JString}

/-- A balance that changes is one that what is asked for concerns. -/
theorem concerns_of_ne (h : Indexed st.bankRepo) {op : LedgerOperation}
    (asks : a.asks jvm st = some (.call op))
    (hne : balanceOf (a.run jvm st).bankRepo u ≠ balanceOf st.bankRepo u) :
    Concerns jvm st.bankRepo u op := by
  by_contra hnot
  rw [balanceOf_run, asks] at hne
  exact hne (balanceOf_of_not_concerns h hnot a.time)

/-- The balance of a user after an action that closes an auction. -/
theorem balanceOf_closeAution (h : Indexed st.bankRepo) {id : JLong} {who : JString}
    {r : AuctionRef} (asks : a.asks jvm st = some (.call (.closeAution id who)))
    (closes : Closes jvm id who st.bankRepo r) (u : JString) :
    balanceOf (a.run jvm st).bankRepo u = (balanceOf st.bankRepo u).map
      (· + if (st.bankRepo.auction r).ownerUsername = u then (st.bankRepo.auction r).getLastBidAmount
        else 0) := by
  rw [balanceOf_run, asks]
  show balanceOf (BankServiceHelper.closeAution jvm id who st.bankRepo).2 u = _
  rw [closeAution_of_closes h closes]
  exact balanceOf_closed r u

end Actions

end Effects

end NovaBank.Money
