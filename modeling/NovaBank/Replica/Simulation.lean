import NovaBank.Replica.Book

/-!
# Two repositories with one book

`Sim f s t`: the maps of both repositories agree, and their books are the same up to `f` on the
times of bids. A look-up finds on one side what it finds on the other (`user_cases`,
`auction_cases`), so every operation of the ledger takes the same branch on both sides, returns the
same object, and leaves repositories that are again related. `Agrees` is that statement for one
operation.
-/

namespace NovaBank.Replica

open Java

/-- Two repositories whose maps agree keep the same book, up to the times of bids. -/
structure Sim (f : Int64 → Int64) (s t : BankRepository) : Prop where
  left : Indexed s
  right : Indexed t
  view : view f s = view f t

/-- Two outcomes with the same value and with related repositories. -/
def Agrees {α : Type} (f : Int64 → Int64) (x y : α × BankRepository) : Prop :=
  x.1 = y.1 ∧ Sim f x.2 y.2

namespace Sim

variable {f : Int64 → Int64} {s t : BankRepository}

/-- A user exists on both sides, with the same account, or on none. -/
theorem user_cases (h : Sim f s t) (u : JString) :
    (s.findByUserName u = none ∧ t.findByUserName u = none) ∨
    ∃ b b', s.findByUserName u = some b ∧ t.findByUserName u = some b' ∧
      b.account f = b'.account f := by
  -- The accounts of the view are those of the state, up to times.
  have hu : (s.findByUserName u).map (BankEntity.account f) =
      (t.findByUserName u).map (BankEntity.account f) := by
    have := congrArg (fun B : Book => B.accounts.get u) h.view
    simp only [Replica.view, KeyedMap.get_map] at this
    exact this
  cases hs : s.findByUserName u with
  | none =>
    rw [hs] at hu
    exact .inl ⟨rfl, Option.map_eq_none_iff.mp hu.symm⟩
  | some b =>
    rw [hs] at hu
    obtain ⟨b', hb', e⟩ := Option.map_eq_some_iff.mp hu.symm
    exact .inr ⟨b, b', rfl, hb', e.symm⟩

/-- An opened auction is opened on both sides, with the same content. -/
theorem opened_of_opened (h : Sim f s t) {k : JLong} {r : AuctionRef}
    (hr : s.openedAuctions.lookup k = some r) :
    ∃ r', t.openedAuctions.lookup k = some r' ∧ (s.auction r).retime f = (t.auction r').retime f := by
  have hk := congrArg (fun B : Book => B.opened.lookup k) h.view
  simp only [Replica.view, JavaMap.lookup_mapValues, hr, Option.map_some] at hk
  obtain ⟨r', hr', e⟩ := Option.map_eq_some_iff.mp hk.symm
  exact ⟨r', hr', e.symm⟩

/-- A closed auction is closed on both sides, with the same content. -/
theorem closed_of_closed (h : Sim f s t) {k : JLong} {r : AuctionRef}
    (hr : s.closedAuctions.lookup k = some r) :
    ∃ r', t.closedAuctions.lookup k = some r' ∧ (s.auction r).retime f = (t.auction r').retime f := by
  have hk := congrArg (fun B : Book => B.closed.lookup k) h.view
  simp only [Replica.view, JavaMap.lookup_mapValues, hr, Option.map_some] at hk
  obtain ⟨r', hr', e⟩ := Option.map_eq_some_iff.mp hk.symm
  exact ⟨r', hr', e.symm⟩

/-- Being the same book does not depend on the order. -/
theorem symm (h : Sim f s t) : Sim f t s := ⟨h.right, h.left, h.view.symm⟩

/-- An id has no auction on either side, or an opened one on both, or a closed one on both. -/
theorem auction_cases (h : Sim f s t) (k : JLong) :
    ((s.findByAuctionID k = none ∧ s.findByOpenedAuctionID k = none ∧
        s.findByClosedAuctionID k = none) ∧
      t.findByAuctionID k = none ∧ t.findByOpenedAuctionID k = none ∧
        t.findByClosedAuctionID k = none) ∨
    (∃ r r', (s.findByAuctionID k = some r ∧ s.findByOpenedAuctionID k = some r ∧
        s.findByClosedAuctionID k = none) ∧
      (t.findByAuctionID k = some r' ∧ t.findByOpenedAuctionID k = some r' ∧
        t.findByClosedAuctionID k = none) ∧
      (s.auction r).retime f = (t.auction r').retime f) ∨
    (∃ r r', (s.findByAuctionID k = some r ∧ s.findByOpenedAuctionID k = none ∧
        s.findByClosedAuctionID k = some r) ∧
      (t.findByAuctionID k = some r' ∧ t.findByOpenedAuctionID k = none ∧
        t.findByClosedAuctionID k = some r') ∧
      (s.auction r).retime f = (t.auction r').retime f) := by
  -- The left side decides, and the right side has the same entry in the same map.
  rcases h.left.auction_cases k with hs | ⟨r, hs⟩ | ⟨r, hs⟩
  · left
    rcases h.right.auction_cases k with ht | ⟨r', ht⟩ | ⟨r', ht⟩
    · exact ⟨hs, ht⟩
    · obtain ⟨r, hr, -⟩ := h.symm.opened_of_opened ht.2.1
      rw [hs.2.1] at hr
      cases hr
    · obtain ⟨r, hr, -⟩ := h.symm.closed_of_closed ht.2.2
      rw [hs.2.2] at hr
      cases hr
  · obtain ⟨r', hr', e⟩ := h.opened_of_opened hs.2.1
    exact .inr (.inl ⟨r, r', hs, ⟨(h.right.opened hr').1, hr', (h.right.opened hr').2.1⟩, e⟩)
  · obtain ⟨r', hr', e⟩ := h.closed_of_closed hs.2.2
    exact .inr (.inr ⟨r, r', hs, ⟨(h.right.closed hr').1, (h.right.closed hr').2.1, hr'⟩, e⟩)

/-! ## The updates -/

/-- The version is not in the book. -/
theorem save (h : Sim f s t) : Sim f s.save t.save :=
  ⟨h.left.version _, h.right.version _, h.view⟩

/-- Two puts of entities with the same account. -/
theorem newUserBankEntity (h : Sim f s t) {b b' : BankEntity} (hb : b.account f = b'.account f)
    (hs : Indexed (s.newUserBankEntity b)) (ht : Indexed (t.newUserBankEntity b')) :
    Sim f (s.newUserBankEntity b) (t.newUserBankEntity b') := by
  refine ⟨hs, ht, ?_⟩
  rw [view_newUserBankEntity, view_newUserBankEntity, h.view, hb]

/-- Accounts that are the same stay so with a new amount. -/
theorem account_updateAmount {b b' : BankEntity} (hb : b.account f = b'.account f) (v : Int64) :
    (b.updateAmount v).account f = (b'.updateAmount v).account f := by
  have := congrArg (fun a : Account => { a with amount := some v }) hb
  exact this

/-- The same amount on both sides keeps the book. -/
theorem setAmount (h : Sim f s t) {u : JString} {b b' : BankEntity}
    (hs : s.findByUserName u = some b) (ht : t.findByUserName u = some b')
    (hb : b.account f = b'.account f) (v : Int64) :
    Sim f (s.newUserBankEntity (b.updateAmount v)) (t.newUserBankEntity (b'.updateAmount v)) :=
  h.newUserBankEntity (account_updateAmount hb v) (h.left.setAmount hs v) (h.right.setAmount ht v)

/-- Accounts that are the same stay so with a bid. -/
theorem account_freezeBid {b b' : BankEntity} (hb : b.account f = b'.account f) {x x' : BidEntity}
    (hx : x.retime f = x'.retime f) : (b.freezeBid x).account f = (b'.freezeBid x').account f := by
  have ha : ∀ (b : BankEntity) (x : BidEntity), (b.freezeBid x).account f =
      { b.account f with
        bids := KeyedMap.put (b.account f).bids (x.retime f)
        amount := (b.account f).amount.map (· - (x.retime f).amount) } := by
    intro b x
    simp only [BankEntity.freezeBid, BankEntity.account, Bids.retime_put]
    rfl
  rw [ha, ha, hb, hx]

end Sim

/-! ## The operations -/

section Operations

open BankServiceHelper

variable {jvm : Jvm} {f : Int64 → Int64} {s t : BankRepository}

/-- `createMoney` has the same effect on both sides. -/
theorem createMoney_agrees (h : Sim f s t) (who : JString) (v : Int64) :
    Agrees f (createMoney who v s) (createMoney who v t) := by
  rcases h.user_cases who with ⟨hs, ht⟩ | ⟨b, b', hs, ht, hb⟩
  · simp only [createMoney, hs, ht]
    exact ⟨rfl, h⟩
  · simp only [createMoney, hs, ht]
    exact ⟨rfl, h.setAmount hs ht hb v⟩

/-- So has `registerUser` for a free name. -/
theorem registerUser_agrees (jvm : Jvm) (h : Sim f s t) {username : JString}
    (free : s.findByUserName username = none) (password : JString) (amount : JLong)
    (roles : Option (List JString)) :
    Agrees f (registerUser jvm username password amount roles s)
      (registerUser jvm username password amount roles t) := by
  -- The name is free in both.
  have free' : t.findByUserName username = none := by
    rcases h.user_cases username with ⟨-, ht⟩ | ⟨b, b', hs, -⟩
    · exact ht
    · rw [free] at hs
      cases hs
  have hs := h.left.updates (registerUser_changes jvm free password amount roles).updates
  have ht := h.right.updates (registerUser_changes jvm free' password amount roles).updates
  cases hn : BankEntity.new jvm username password amount roles with
  | error e =>
    simp only [registerUser, hn]
    exact ⟨rfl, h⟩
  | ok b =>
    simp only [registerUser, hn] at hs ht ⊢
    exact ⟨rfl, h.newUserBankEntity rfl hs ht⟩

/-- So has an amount that is set. -/
theorem updateAmount_sim (h : Sim f s t) (who : JString) (v : Int64) :
    Sim f (s.updateUser who fun b => b.updateAmount v) (t.updateUser who fun b => b.updateAmount v) := by
  rcases h.user_cases who with ⟨hs, ht⟩ | ⟨b, b', hs, ht, hb⟩
  · simpa only [BankRepository.updateUser, hs, ht] using h
  · rw [s.updateUser_of_find hs, t.updateUser_of_find ht]
    exact h.setAmount hs ht hb v

/-- So has `transferMoney`. -/
theorem transferMoney_agrees (h : Sim f s t) (sender : JString) (a : Int64) (receiver : JString)
    (c : Int64) : Agrees f (transferMoney sender a receiver c s) (transferMoney sender a receiver c t) := by
  rcases h.user_cases sender with ⟨hs, ht⟩ | ⟨b, b', hs, ht, hb⟩
  · simp only [transferMoney, hs, ht]
    exact ⟨rfl, h⟩
  · have h' := h.setAmount hs ht hb a
    rcases h.user_cases receiver with ⟨hs', ht'⟩ | ⟨d, d', hs', ht', -⟩
    · simp only [transferMoney, hs, ht, hs', ht']
      exact ⟨rfl, h'⟩
    · simp only [transferMoney, hs, ht, hs', ht']
      exact ⟨rfl, updateAmount_sim h' receiver c⟩

/-- So has `createAuction`. -/
theorem createAuction_agrees (h : Sim f s t) (id : JLong) (who : JString) :
    Agrees f (createAuction id who s) (createAuction id who t) := by
  rcases h.user_cases who with ⟨hs, ht⟩ | ⟨b, b', hs, ht, hb⟩
  · simp only [createAuction, hs, ht]
    exact ⟨rfl, h⟩
  rcases h.auction_cases id with ⟨⟨ha, -⟩, ha', -⟩ | ⟨r, r', ⟨ha, -⟩, ⟨ha', -⟩, -⟩ |
    ⟨r, r', ⟨ha, -⟩, ⟨ha', -⟩, -⟩
  -- The new auction has the same content, although its object may have another index.
  · refine ⟨by simp only [createAuction, hs, ht, ha, ha'], h.left.openAuction hs ha,
      h.right.openAuction ht ha', ?_⟩
    rw [createAuction_of_free hs ha, createAuction_of_free ht ha', view_newUserBankEntity,
      view_newUserBankEntity, view_createAuction h.left, view_createAuction h.right, h.view]
    have hacc : (b.addAuction id s.objects.length).account f =
        (b'.addAuction id t.objects.length).account f := hb
    rw [hacc]
  · simp only [createAuction, hs, ht, ha, ha']
    exact ⟨rfl, h⟩
  · simp only [createAuction, hs, ht, ha, ha']
    exact ⟨rfl, h⟩

/-- So has the pay-out. -/
theorem payOwner_agrees (h : Sim f s t) {a a' : AuctionEntity} (ha : a.retime f = a'.retime f) :
    Agrees f (payOwner a s) (payOwner a' t) := by
  have howner := AuctionEntity.ownerUsername_congr ha
  have hlast := AuctionEntity.getLastBidAmount_congr ha
  unfold payOwner
  -- The owner and the amount are those of the auction, and its times are not read.
  rw [← howner, ← hlast]
  rcases h.user_cases a.ownerUsername with ⟨hs, ht⟩ | ⟨b, b', hs, ht, hb⟩
  · simp only [hs, ht]
    exact ⟨rfl, h⟩
  · have hamount : b.amount = b'.amount := congrArg Account.amount hb
    simp only [hs, ht, ← hamount]
    cases b.amount with
    | none => exact ⟨rfl, h⟩
    | some v => exact ⟨rfl, (createMoney_agrees h _ _).2⟩

/-- Two auctions with the same content are owned by the same user. -/
theorem isOwner_congr {a a' : AuctionEntity} (ha : a.retime f = a'.retime f) (who : JString) :
    isOwner jvm a who = isOwner jvm a' who := by
  unfold isOwner
  rw [AuctionEntity.ownerUsername_congr ha]

/-- So has `closeAution`. -/
theorem closeAution_agrees (jvm : Jvm) (h : Sim f s t) (id : JLong) (who : JString) :
    Agrees f (closeAution jvm id who s) (closeAution jvm id who t) := by
  rcases h.user_cases who with ⟨hs, ht⟩ | ⟨b, b', hs, ht, hb⟩
  · simp only [closeAution, hs, ht]
    exact ⟨rfl, h⟩
  rcases h.auction_cases id with ⟨⟨ha, ho, hc⟩, ha', ho', hc'⟩ |
    ⟨r, r', ⟨ha, ho, hc⟩, ⟨ha', ho', hc'⟩, e⟩ | ⟨r, r', ⟨ha, ho, hc⟩, ⟨ha', ho', hc'⟩, -⟩
  · simp only [closeAution, hs, ht, ha, ha']
    exact ⟨rfl, h⟩
  · have hmay : mayClose jvm b who (s.auction r) (s.auction r) =
        mayClose jvm b' who (t.auction r') (t.auction r') := by
      have hroles : b.roles = b'.roles := congrArg Account.roles hb
      simp only [mayClose, isOwner_congr e, BankEntity.getRoles, hroles]
    have hclosed := AuctionEntity.isClosed_congr e
    -- All conditions are now the same term on both sides.
    simp only [closeAution, hs, ht, ha, ha', ho, ho', hc, hc', hmay, hclosed]
    split
    · exact ⟨rfl, h⟩
    · split
      · have hsim : Sim f ((s.updateAuction r AuctionEntity.close).closeAuction r)
            ((t.updateAuction r' AuctionEntity.close).closeAuction r') := by
          refine ⟨h.left.closeAuction ha, h.right.closeAuction ha', ?_⟩
          rw [view_closeAuction h.left ha ho, view_closeAuction h.right ha' ho', h.view,
            AuctionEntity.close_congr e]
        have hobj : (((s.updateAuction r AuctionEntity.close).closeAuction r).auction r).retime f =
            (((t.updateAuction r' AuctionEntity.close).closeAuction r').auction r').retime f := by
          have hs' := s.updateAuction_auction (h.left.object ha).1 AuctionEntity.close r
          have ht' := t.updateAuction_auction (h.right.object ha').1 AuctionEntity.close r'
          rw [if_pos rfl] at hs' ht'
          exact (congrArg (AuctionEntity.retime f) hs').trans
            ((AuctionEntity.close_congr e).trans (congrArg (AuctionEntity.retime f) ht').symm)
        obtain ⟨hpay, hsim'⟩ := payOwner_agrees hsim hobj
        exact ⟨congrArg (Except.map _) hpay, hsim'⟩
      · exact ⟨rfl, h⟩
    · exact ⟨rfl, h⟩
  · simp only [closeAution, hs, ht, ha, ha', ho, ho']
    exact ⟨rfl, h⟩

/-- An accepted bid on both sides, at times that agree. -/
theorem acceptBid_sim (h : Sim f s t) {bid bid' : BidEntity} (hbid : bid.retime f = bid'.retime f)
    {r r' : AuctionRef} {b b' : BankEntity} (hs : s.findByUserName bid.username = some b)
    (ht : t.findByUserName bid'.username = some b') (hb : b.account f = b'.account f)
    (ha : s.findByAuctionID (some bid.id) = some r ∧ s.findByOpenedAuctionID (some bid.id) = some r)
    (ha' : t.findByAuctionID (some bid'.id) = some r' ∧
      t.findByOpenedAuctionID (some bid'.id) = some r')
    (e : (s.auction r).retime f = (t.auction r').retime f)
    (free : (s.auction r).bids.get bid.id = none) (free' : (t.auction r').bids.get bid'.id = none) :
    Sim f (acceptBid bid r s) (acceptBid bid' r' t) := by
  have hi := h.left.placeBid hs ha.1 free
  have hi' := h.right.placeBid ht ha'.1 free'
  rw [h.left.acceptBid_eq hs ha.1 free] at hi ⊢
  rw [h.right.acceptBid_eq ht ha'.1 free'] at hi' ⊢
  refine ⟨hi, hi', ?_⟩
  have hid : bid.id = bid'.id := by
    have := congrArg BidEntity.id hbid
    exact this
  -- The view of the auctions does not depend on the accounts, so the two parts are separate.
  have hput : ∀ (u : BankRepository) (x : BankEntity) (p : AuctionRef) (y : BidEntity),
      ((u.newUserBankEntity x).updateAuction p fun a => a.addBid y).createBid y =
        ((u.updateAuction p fun a => a.addBid y).createBid y).newUserBankEntity x :=
    fun _ _ _ _ => rfl
  rw [hput, hput, view_newUserBankEntity, view_newUserBankEntity,
    view_addBid h.left ha.1 ha.2, view_addBid h.right ha'.1 ha'.2, h.view,
    Sim.account_freezeBid hb hbid, AuctionEntity.addBid_congr e hbid, hid]

/-- So has `createBid` at corresponding times. -/
theorem createBid_agrees (h : Sim f s t) {now now' : Int64} (hnow : f now = f now')
    (id auctionId amount : Int64) (who : JString) :
    Agrees f (createBid jvm now id auctionId amount who s)
      (createBid jvm now' id auctionId amount who t) := by
  rcases h.user_cases who with ⟨hs, ht⟩ | ⟨b, b', hs, ht, hb⟩
  · simp only [createBid, hs, ht]
    exact ⟨rfl, h⟩
  rcases h.auction_cases (some id) with ⟨⟨ha, ho, hc⟩, ha', ho', hc'⟩ |
    ⟨r, r', ⟨ha, ho, hc⟩, ⟨ha', ho', hc'⟩, e⟩ | ⟨r, r', ⟨ha, ho, hc⟩, ⟨ha', ho', hc'⟩, -⟩
  · simp only [createBid, hs, ht, ha, ha']
    exact ⟨rfl, h⟩
  · have hmay : mayBid jvm who (s.auction r) (s.auction r) =
        mayBid jvm who (t.auction r') (t.auction r') := by
      simp only [mayBid, isOwner_congr e]
    have hclosed := AuctionEntity.isClosed_congr e
    have hamount : b.amount = b'.amount := congrArg Account.amount hb
    have hfree : ((s.auction r).bids.get id).isNone = ((t.auction r').bids.get id).isNone := by
      have := congrArg Option.isNone (AuctionEntity.get_congr e id)
      simpa only [Option.isNone_map] using this
    -- As for closing, the conditions are the same. Only the accepted bids differ, in their times.
    simp only [createBid, hs, ht, ha, ha', ho, ho', hc, hc', hmay, hclosed, hamount, hfree]
    split
    · exact ⟨rfl, h⟩
    · split
      · split
        · rename_i free'
          split
          · exact ⟨rfl, h⟩
          · split
            · have free : ((s.auction r).bids.get id).isNone := hfree.trans free'
              have hbid : (⟨id, who, amount, now⟩ : BidEntity).retime f =
                  (⟨id, who, amount, now'⟩ : BidEntity).retime f := by
                simp only [BidEntity.retime, hnow]
              exact ⟨rfl, acceptBid_sim h hbid hs ht hb ⟨ha, ho⟩ ⟨ha', ho'⟩ e
                (Option.isNone_iff_eq_none.mp free) (Option.isNone_iff_eq_none.mp free')⟩
            · exact ⟨rfl, h⟩
        · exact ⟨rfl, h⟩
      · exact ⟨rfl, h⟩
    · exact ⟨rfl, h⟩
  · simp only [createBid, hs, ht, ha, ha', ho, ho']
    exact ⟨rfl, h⟩

/-- A call of the runner, at times that agree. -/
theorem LedgerOperation.run_agrees (h : Sim f s t) {now now' : Int64} (hnow : f now = f now')
    (op : LedgerOperation) : Agrees f (op.run jvm now s) (op.run jvm now' t) := by
  cases op with
  | createMoney who amount =>
    exact ⟨congrArg Except.ok (createMoney_agrees h who amount).1, (createMoney_agrees h who amount).2⟩
  | transferMoney sender a receiver c => exact transferMoney_agrees h sender a receiver c
  | createAuction id who =>
    exact ⟨congrArg Except.ok (createAuction_agrees h id who).1, (createAuction_agrees h id who).2⟩
  | createBid bidId auctionId amount who => exact createBid_agrees h hnow bidId auctionId amount who
  | closeAution id who => exact closeAution_agrees jvm h id who

end Operations

end NovaBank.Replica
