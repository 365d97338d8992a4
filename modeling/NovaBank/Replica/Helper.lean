import NovaBank.Replica.Repository

/-!
# The operations on the ledger

`BankServiceHelper` of `CSDBftServer/src/main/java/bftProxyServer/BankServiceHelper.java`: the
operations that ordered requests and smart contracts share. An operation returns its JSON object, or
the exception that it throws, with the repository that it leaves; an operation that throws after its
first update leaves that update in place.
-/

namespace NovaBank.Replica

open Java

/-- What an operation returns, with the repository that it leaves. -/
abbrev Outcome (α : Type) := Except JavaException α × BankRepository

namespace BankServiceHelper

/-- `registerUser(username, password, amount, roles, bankRepo)`. -/
def registerUser (jvm : Jvm) (username password : JString) (amount : JLong)
    (roles : Option (List JString)) (s : BankRepository) : Outcome BankEntity :=
  match BankEntity.new jvm username password amount roles with
  | .error e => (.error e, s)
  | .ok b => (.ok b, s.newUserBankEntity b)

/-- `transferMoney(from, fromAmount, to, toAmount, bankRepo)`. Both entities are looked up before
either is updated, but an entity is one object, so the second update sees the first one. -/
def transferMoney (sender : JString) (fromAmount : Int64) (receiver : JString) (toAmount : Int64)
    (s : BankRepository) : Outcome JSONObject :=
  match s.findByUserName sender, s.findByUserName receiver with
  | none, _ => (.error .noSuchElement, s)
  -- `beTo.get()` throws after the sender has been written.
  | some b, none => (.error .noSuchElement, s.newUserBankEntity (b.updateAmount fromAmount))
  | some b, some _ =>
    let s := s.newUserBankEntity (b.updateAmount fromAmount)
    (.ok JSONObject.success, s.updateUser receiver fun b => b.updateAmount toAmount)

/-- `createMoney(who, amount, bankRepo)`, which sets the balance. -/
def createMoney (who : JString) (amount : Int64) (s : BankRepository) : JSONObject × BankRepository :=
  match s.findByUserName who with
  | some b =>
    (JSONObject.success.put "amount" (some (.number amount)),
      s.newUserBankEntity (b.updateAmount amount))
  | none => (JSONObject.error ("User not found " ++ JString.toText who), s)

/-- `createAuction(id, who, bankRepo)`. -/
def createAuction (id : JLong) (who : JString) (s : BankRepository) : JSONObject × BankRepository :=
  match s.findByUserName who with
  | some _ =>
    match s.findByAuctionID id with
    | none =>
      let (r, s) := s.createAuction (AuctionEntity.new id who)
      (JSONObject.success.put "id" (id.map .number), s.updateUser who fun b => b.addAuction id r)
    | some _ => (JSONObject.error ("Auction already exist " ++ JLong.toText id), s)
  | none => (JSONObject.error ("User not found " ++ JString.toText who), s)

/-- `auction.getOwnerUsername().equalsIgnoreCase(who)`. -/
def isOwner (jvm : Jvm) (a : AuctionEntity) (who : JString) : Except JavaException Bool :=
  match a.ownerUsername with
  | none => .error .nullPointer
  | some owner => .ok (jvm.equalsIgnoreCase owner who)

/-- The condition under which `closeAution` lets a user close: being the owner of both entries, or
having `ROLE_AUCTION_MAKER`. -/
def mayClose (jvm : Jvm) (be : BankEntity) (who : JString) (auction openedAuction : AuctionEntity) :
    Except JavaException Bool :=
  match isOwner jvm auction who with
  | .error e => .error e
  | .ok false => .ok (be.getRoles.contains "ROLE_AUCTION_MAKER")
  | .ok true => (isOwner jvm openedAuction who).map (· || be.getRoles.contains "ROLE_AUCTION_MAKER")

/-- The condition under which `createBid` lets a user bid: being the owner of neither entry. -/
def mayBid (jvm : Jvm) (who : JString) (auction openedAuction : AuctionEntity) :
    Except JavaException Bool :=
  match isOwner jvm auction who with
  | .error e => .error e
  | .ok true => .ok false
  | .ok false => (isOwner jvm openedAuction who).map not

/-- The pay-out of `closeAution`, after the auction has been closed: the last bid is added to the
balance of the owner. -/
def payOwner (a : AuctionEntity) (s : BankRepository) : Outcome Unit :=
  match s.findByUserName a.ownerUsername with
  | none => (.error .noSuchElement, s)
  | some owner =>
    match owner.amount with
    | none => (.error .nullPointer, s)
    | some balance => (.ok (), (createMoney a.ownerUsername (a.getLastBidAmount + balance) s).2)

/-- `closeAution(id, who, bankRepo)`. -/
def closeAution (jvm : Jvm) (id : JLong) (who : JString) (s : BankRepository) :
    Outcome JSONObject :=
  match s.findByUserName who with
  | some be =>
    match s.findByAuctionID id, s.findByOpenedAuctionID id, s.findByClosedAuctionID id with
    | some auction, some openedAuction, none =>
      match mayClose jvm be who (s.auction auction) (s.auction openedAuction) with
      | .error e => (.error e, s)
      | .ok true =>
        if !(s.auction auction).isClosed && !(s.auction openedAuction).isClosed then
          let s := (s.updateAuction auction AuctionEntity.close).closeAuction auction
          -- The auction stays closed when the pay-out throws.
          let (paid, s) := payOwner (s.auction auction) s
          (paid.map fun _ => JSONObject.success.put "id" (id.map .number), s)
        else (.ok (JSONObject.error ("Auction it's already closed " ++ JLong.toText id)), s)
      | .ok false =>
        (.ok (JSONObject.error ("User " ++ JString.toText who ++ " doesn't own this auction " ++
          JLong.toText id)), s)
    | _, _, _ => (.ok (JSONObject.error ("Auction don't exist " ++ JLong.toText id)), s)
  | none => (.ok (JSONObject.error ("User not found " ++ JString.toText who)), s)

/-- The updates of `createBid` once the bid is accepted: the last bid is given back, the new one is
recorded in the auction and by the bidder, whose money is frozen, and then in the repository. -/
def acceptBid (bid : BidEntity) (auction : AuctionRef) (s : BankRepository) : BankRepository :=
  let s := match (s.auction auction).getLastBid with
    | none => s
    -- `createMoney` sets the balance, so a refund replaces what the bidder had.
    | some lastBid => (createMoney lastBid.username lastBid.amount s).2
  let s := s.updateAuction auction fun a => a.addBid bid
  (s.updateUser bid.username fun b => b.freezeBid bid).createBid bid

/-- `createBid(bidId, auctionId, amount, who, bankRepo)` at the time `now`. -/
def createBid (jvm : Jvm) (now bidId auctionId amount : Int64) (who : JString) (s : BankRepository) :
    Outcome JSONObject :=
  match s.findByUserName who with
  | some be =>
    -- The auction is looked up under the id of the bid.
    match s.findByAuctionID bidId with
    | some auction =>
      match s.findByOpenedAuctionID bidId, s.findByClosedAuctionID bidId with
      | some openedAuction, none =>
        match mayBid jvm who (s.auction auction) (s.auction openedAuction) with
        | .error e => (.error e, s)
        | .ok true =>
          if !(s.auction auction).isClosed && !(s.auction openedAuction).isClosed then
            if ((s.auction auction).bids.get bidId).isNone then
              match be.amount with
              | none => (.error .nullPointer, s)
              | some balance =>
                if amount ≤ balance then
                  (.ok (JSONObject.success.put "id" (some (.number bidId))),
                    acceptBid ⟨bidId, who, amount, now⟩ auction s)
                else
                  (.ok (JSONObject.error ("User " ++ JString.toText who ++
                    " don't have the necessary amount of money to make this bid")), s)
            else
              (.ok (JSONObject.error ("Auction " ++ Long.toText auctionId ++
                " already contains a Bid with the id " ++ Long.toText bidId)), s)
          else (.ok (JSONObject.error ("Auction it's already closed " ++ Long.toText auctionId)), s)
        | .ok false =>
          (.ok (JSONObject.error ("User " ++ JString.toText who ++
            " can't make bids for its own auction " ++ Long.toText auctionId)), s)
      | _, _ =>
        (.ok (JSONObject.error ("Auction it's already closed " ++ Long.toText auctionId)), s)
    | none => (.ok (JSONObject.error ("Auction don't exist " ++ Long.toText auctionId)), s)
  | none => (.ok (JSONObject.error ("User not found " ++ JString.toText who)), s)

/-- `currentAmount(who, bankRepo)`. -/
def currentAmount (who : JString) (s : BankRepository) : Except JavaException Int64 :=
  match s.findByUserName who with
  | none => .ok (-1)
  | some b =>
    match b.amount with
    | none => .error .nullPointer
    | some amount => .ok amount

/-! ## The updates that are accepted -/

/-- The repository after `createAuction` with a free id. -/
theorem createAuction_of_free {s : BankRepository} {id : JLong} {who : JString} {b : BankEntity}
    (user : s.findByUserName who = some b) (free : s.findByAuctionID id = none) :
    (createAuction id who s).2 = (s.createAuction (AuctionEntity.new id who)).2.newUserBankEntity
      (b.addAuction id s.objects.length) := by
  simp only [createAuction, user, free]
  exact BankRepository.updateUser_of_find _ (by simpa using user) _

/-- The repository after the first bid of an auction, with the bidder's side first. -/
theorem acceptBid_of_no_last {s : BankRepository} {bid : BidEntity} {r : AuctionRef} {b : BankEntity}
    (user : s.findByUserName bid.username = some b) (first : (s.auction r).getLastBid = none) :
    acceptBid bid r s = ((s.newUserBankEntity (b.freezeBid bid)).updateAuction r
      fun a => a.addBid bid).createBid bid := by
  simp only [acceptBid, first]
  rw [BankRepository.updateUser_of_find _ (b := b) (by simpa using user)]
  rfl

end BankServiceHelper

end NovaBank.Replica
