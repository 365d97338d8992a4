import NovaBank.Replica.Contracts

/-!
# The auctions of the proxy

`BidEntity` and `AuctionEntity` of `csd/src/main/java/fct/unl/pt/csd/Entities`, which are not the
classes of the replicas: a bid is stored as a text and is read from it, and the state of an auction is
a text, too.
-/

namespace NovaBank.Proxy.Entities

open Java Replica

/-- `Long.parseLong(s)`. -/
def readLong (s : JString) : Except JavaException Int64 :=
  match s.bind parseLong with
  | none => .error .numberFormat
  | some v => .ok v

/-- `s.split(sep)[n]`. -/
def part (sep s : String) (n : ℕ) : Except JavaException String := word (split sep s) n

/-- `BidEntity`. -/
structure BidEntity where
  id : JLong
  username : JString
  amount : JLong
  timestamp : JLong
  deriving DecidableEq

namespace BidEntity

/-- `toString()`. There is nothing between the name and the amount, and no timestamp. -/
def toString (b : BidEntity) : String :=
  "bid#" ++ JLong.toText b.id ++ "[" ++ "username: " ++ JString.toText b.username ++
    "amount: " ++ JLong.toText b.amount ++ "]"

/-- `new BidEntity(bidString)`, which leaves the timestamp `null`. -/
def ofString (bidString : String) : Except JavaException BidEntity := do
  let id ← readLong (← part "#" (← part "[" bidString 0) 1)
  let username ← part "username: " (← part " , " (← part "[" bidString 1) 0) 1
  let amount ← readLong
    (← part "amount: " (← part "]" (← part " , " (← part "[" bidString 1) 1) 0) 1)
  return ⟨some id, some username, some amount, none⟩

end BidEntity

/-- `AuctionEntity`. -/
structure AuctionEntity where
  id : JLong
  ownerUsername : JString
  state : JString
  bids : KeyedMap BidEntity.id

namespace AuctionEntity

/-- `new AuctionEntity(id, ownerUsername)`. -/
def new (id : JLong) (ownerUsername : JString) : AuctionEntity :=
  ⟨id, ownerUsername, some "opened", KeyedMap.empty⟩

/-- `new AuctionEntity(id, ownerUsername, state, bidsString)`. -/
def ofStrings (id ownerUsername state : JString) (bidsString : String) :
    Except JavaException AuctionEntity := do
  let id ← readLong id
  let bids ← (split " | " bidsString).foldlM
    (fun (bids : KeyedMap BidEntity.id) bidFromAuction => do
      return bids.put (← BidEntity.ofString bidFromAuction)) KeyedMap.empty
  return ⟨some id, ownerUsername, state, bids⟩

/-- `getLastBidAmount()` as a number: that of the bid whose id is the number of bids minus one. -/
def getLastBidAmount (a : AuctionEntity) : Except JavaException Int64 :=
  match (a.bids.get (some (Int64.ofInt (a.bids.size - 1)))).bind BidEntity.amount with
  | none => .error .nullPointer
  | some amount => .ok amount

/-- `validBidAmount(amount)`. -/
def validBidAmount (a : AuctionEntity) (amount : JLong) : Except JavaException Bool :=
  match amount with
  | none => .error .nullPointer
  | some amount => a.getLastBidAmount.map fun last => decide (last < amount)

end AuctionEntity

end NovaBank.Proxy.Entities
