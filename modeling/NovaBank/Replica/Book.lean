import NovaBank.Replica.Index

/-!
# The book: what requests observe of a repository

A request sees the accounts, with their bids, and the opened and the closed auctions. It does not
see the version, the objects' places, the map of all auctions beside the other two, the repository's
own map of bids, nor the auctions that a user lists. `Book` is that part of the state, and `view` is
the book that a repository keeps.

The times of bids are taken from a local clock, so `view` takes a function on times: the identity
for the book itself, a constant function for the book without times.

`Sim f s t` says that two repositories in agreement with themselves keep the same book. The
operations of the ledger preserve it and answer the same on both sides (`Agrees`), because what they
check is in the book, and because each update of a repository is an update of its book.
-/

namespace NovaBank.Replica

open Java

/-! ## Times -/

/-- A bid with its time replaced. -/
def BidEntity.retime (f : Int64 → Int64) (b : BidEntity) : BidEntity :=
  { b with timestamp := f b.timestamp }

/-- A bid keeps its id with another time. -/
theorem BidEntity.id_retime (f : Int64 → Int64) (b : BidEntity) : (b.retime f).id = b.id := rfl

/-- Bids with their times replaced. -/
def Bids.retime (f : Int64 → Int64) (m : Bids) : Bids :=
  m.map (BidEntity.retime f) (BidEntity.id_retime f)

/-- An auction with the times of its bids replaced. -/
def AuctionEntity.retime (f : Int64 → Int64) (a : AuctionEntity) : AuctionEntity :=
  { a with bids := Bids.retime f a.bids }

/-- Keeping the times keeps a bid. -/
@[simp] theorem BidEntity.retime_same (b : BidEntity) : b.retime (fun t => t) = b := rfl

/-- Keeping the times keeps bids. -/
@[simp] theorem Bids.retime_same (m : Bids) : Bids.retime (fun t => t) m = m := by
  apply KeyedMap.ext
  rw [Bids.retime, KeyedMap.map_values]
  exact List.map_id m.values

/-- Keeping the times keeps an auction. -/
@[simp] theorem AuctionEntity.retime_same (a : AuctionEntity) : a.retime (fun t => t) = a := by
  simp [AuctionEntity.retime]

/-- The bid under an id, with another time. -/
@[simp] theorem Bids.get_retime (f : Int64 → Int64) (m : Bids) (i : Int64) :
    KeyedMap.get (Bids.retime f m) i = (m.get i).map (BidEntity.retime f) :=
  KeyedMap.get_map m i

/-- A bid that is put among others, with other times. -/
theorem Bids.retime_put (f : Int64 → Int64) (m : Bids) (b : BidEntity) :
    Bids.retime f (m.put b) = KeyedMap.put (Bids.retime f m) (b.retime f) :=
  KeyedMap.map_put m b

namespace AuctionEntity

variable {f : Int64 → Int64} {a a' : AuctionEntity}

/-- The last bid, with another time. -/
theorem getLastBid_retime (f : Int64 → Int64) (a : AuctionEntity) :
    (a.retime f).getLastBid = a.getLastBid.map (BidEntity.retime f) := by
  have h : (Bids.retime f a.bids).size = a.bids.size := by
    simp [Bids.retime, KeyedMap.size]
  simp only [getLastBid, retime, h, Bids.get_retime]

/-- Auctions that are the same up to their times have the same owner. -/
theorem ownerUsername_congr (h : a.retime f = a'.retime f) : a.ownerUsername = a'.ownerUsername := by
  have := congrArg AuctionEntity.ownerUsername h
  exact this

/-- They are both closed, or both opened. -/
theorem isClosed_congr (h : a.retime f = a'.retime f) : a.isClosed = a'.isClosed := by
  have := congrArg AuctionEntity.isClosed h
  exact this

/-- They have the same bid under an id, up to its time. -/
theorem get_congr (h : a.retime f = a'.retime f) (i : Int64) :
    (a.bids.get i).map (BidEntity.retime f) = (a'.bids.get i).map (BidEntity.retime f) := by
  rw [← Bids.get_retime, ← Bids.get_retime]
  exact congrArg (fun a : AuctionEntity => a.bids.get i) h

/-- They have the same last bid, up to its time. -/
theorem getLastBid_congr (h : a.retime f = a'.retime f) :
    a.getLastBid.map (BidEntity.retime f) = a'.getLastBid.map (BidEntity.retime f) := by
  rw [← getLastBid_retime, ← getLastBid_retime, h]

/-- They have the same last amount. -/
theorem getLastBidAmount_congr (h : a.retime f = a'.retime f) :
    a.getLastBidAmount = a'.getLastBidAmount := by
  have hb := congrArg (Option.map BidEntity.amount) (getLastBid_congr h)
  simp only [Option.map_map] at hb
  exact congrArg (fun o : Option Int64 => o.getD 0) hb

/-- They are the same after they were closed. -/
theorem close_congr (h : a.retime f = a'.retime f) : a.close.retime f = a'.close.retime f :=
  congrArg AuctionEntity.close h

/-- They are the same after a bid was added to both. -/
theorem addBid_congr (h : a.retime f = a'.retime f) {b b' : BidEntity}
    (hb : b.retime f = b'.retime f) : (a.addBid b).retime f = (a'.addBid b').retime f := by
  have ha : ∀ (a : AuctionEntity) (b : BidEntity),
      (a.addBid b).retime f = (a.retime f).addBid (b.retime f) := by
    intro a b
    simp only [addBid, retime, Bids.retime_put]
  rw [ha, ha, h, hb]

end AuctionEntity

/-! ## The book -/

/-- An account as requests see it. -/
structure Account where
  userName : JString
  password : JString
  amount : JLong
  bids : Bids
  roles : String
  deriving DecidableEq

/-- What requests see of a repository. -/
structure Book where
  accounts : KeyedMap Account.userName
  opened : JavaMap JLong AuctionEntity
  closed : JavaMap JLong AuctionEntity
  deriving DecidableEq

/-- The account of an entity. -/
def BankEntity.account (f : Int64 → Int64) (b : BankEntity) : Account :=
  ⟨b.userName, b.password, b.amount, Bids.retime f b.bids, b.roles⟩

/-- The account of the book has the name of the user. -/
theorem BankEntity.userName_account (f : Int64 → Int64) (b : BankEntity) :
    (b.account f).userName = b.userName := rfl

/-- The book that a repository keeps, with the times of bids replaced. -/
def view (f : Int64 → Int64) (s : BankRepository) : Book where
  accounts := s.users.map (BankEntity.account f) (BankEntity.userName_account f)
  opened := s.openedAuctions.mapValues fun r => (s.auction r).retime f
  closed := s.closedAuctions.mapValues fun r => (s.auction r).retime f

section View

variable {f : Int64 → Int64} {s : BankRepository}

/-- A put of an entity is a put of its account. -/
theorem view_newUserBankEntity (b : BankEntity) :
    view f (s.newUserBankEntity b) =
      { view f s with accounts := (view f s).accounts.put (b.account f) } := by
  simp only [view, BankRepository.newUserBankEntity, KeyedMap.map_put]
  rfl

/-- A new auction is a new opened one. -/
theorem view_createAuction (h : Indexed s) (a : AuctionEntity) :
    view f (s.createAuction a).2 =
      { view f s with opened := (view f s).opened.insert a.id (a.retime f) } := by
  have hold : ∀ {k r}, s.auctions.lookup k = some r →
      (s.createAuction a).2.auction r = s.auction r :=
    fun hk => s.createAuction_auction _ (h.object hk).1
  simp only [view, Book.mk.injEq]
  refine ⟨rfl, ?_, ?_⟩
  · rw [BankRepository.createAuction_openedAuctions, JavaMap.mapValues_insert,
      BankRepository.createAuction_auction_length]
    congr 1
    exact JavaMap.mapValues_congr fun k r hk => by rw [hold (h.opened hk).1]
  · exact JavaMap.mapValues_congr fun k r hk => by rw [hold (h.closed hk).1]

/-- The end of an auction moves it from the opened to the closed ones. -/
theorem view_closeAuction (h : Indexed s) {id : JLong} {r : AuctionRef}
    (ha : s.auctions.lookup id = some r) (ho : s.openedAuctions.lookup id = some r) :
    view f ((s.updateAuction r AuctionEntity.close).closeAuction r) =
      { view f s with
        opened := KeyedMap.remove (view f s).opened id
        closed := (view f s).closed.insert id ((s.auction r).close.retime f) } := by
  simp only [view, Book.mk.injEq, h.auction_closeAuction ha]
  refine ⟨rfl, ?_, ?_⟩
  -- The other opened auctions are other objects.
  · rw [h.closeAuction_eq ha, ← JavaMap.mapValues_remove]
    apply JavaMap.mapValues_congr
    intro k q hk
    rw [JavaMap.lookup_remove] at hk
    split_ifs at hk with e
    rw [if_neg (h.ref_ne (h.opened hk).1 ha (Ne.symm e))]
  -- A closed auction is not the one that is closed now.
  · rw [h.closeAuction_eq ha, JavaMap.mapValues_insert, if_pos rfl]
    congr 1
    apply JavaMap.mapValues_congr
    intro k q hk
    rw [if_neg (h.closed_ne_opened hk ho)]

/-- A bid changes one opened auction. -/
theorem view_addBid (h : Indexed s) {id : JLong} {r : AuctionRef}
    (ha : s.auctions.lookup id = some r) (ho : s.openedAuctions.lookup id = some r)
    (bid : BidEntity) :
    view f ((s.updateAuction r fun a => a.addBid bid).createBid bid) =
      { view f s with
        opened := (view f s).opened.insert id (((s.auction r).addBid bid).retime f) } := by
  have hobj : ∀ q, ((s.updateAuction r fun a => a.addBid bid).createBid bid).auction q =
      if q = r then (s.auction r).addBid bid else s.auction q :=
    fun q => s.updateAuction_auction (h.object ha).1 _ q
  have hopened : ((s.updateAuction r fun a => a.addBid bid).createBid bid).openedAuctions =
    s.openedAuctions := rfl
  have hclosed : ((s.updateAuction r fun a => a.addBid bid).createBid bid).closedAuctions =
    s.closedAuctions := rfl
  simp only [view, Book.mk.injEq, hobj, hopened, hclosed]
  refine ⟨rfl, ?_, ?_⟩
  -- The auction is replaced in its place, and the others are other objects.
  · rw [JavaMap.mapValues_eq_insert ho (g := fun q => (s.auction q).retime f), if_pos rfl]
    intro k q hk hq
    rw [if_neg (h.ref_ne (h.opened hq).1 ha hk)]
  · apply JavaMap.mapValues_congr
    intro k q hk
    rw [if_neg (h.closed_ne_opened hk ho)]

end View

end NovaBank.Replica
