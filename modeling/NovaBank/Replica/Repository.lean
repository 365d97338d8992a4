import NovaBank.Replica.Entities

/-!
# The repository of a replica

`BankRepository` of `CSDBftServer/src/main/java/bftProxyServer/BankRepository.java`. The three maps
of auctions hold references, and `objects` holds the auctions that they refer to. An update of an
entity in place is `updateUser` or `updateAuction`; a put of an entity that the code has just
updated is kept where the code has it.

`save` counts the version and writes the users to a file, and `load` reads such a file. The file is
an object stream whose objects are whole maps of users with the auctions that they reach.
-/

namespace NovaBank.Replica

open Java

/-- The users under their names. -/
abbrev Users := KeyedMap BankEntity.userName

/-- `BankRepository`, with the auction objects that its references point to. -/
structure BankRepository where
  users : Users
  auctions : JavaMap JLong AuctionRef
  openedAuctions : JavaMap JLong AuctionRef
  closedAuctions : JavaMap JLong AuctionRef
  bids : Bids
  version : Int32
  objects : List AuctionEntity
  deriving DecidableEq

/-- What `save` writes for the users: the map, with the auctions that its references point to. -/
structure SavedUsers where
  users : Users
  objects : List AuctionEntity

/-- The content of the file `/users<id>.ser`. -/
abbrev SavedFile := ObjectStream SavedUsers

/-- An iteration over a map visits every value once. -/
theorem inOrder_perm {κ ν : Type} [DecidableEq κ] {key : ν → κ} (jvm : Jvm) (m : KeyedMap key) :
    (m.inOrder jvm.order).Perm m.values := by
  have hperm : (m.inOrder jvm.order).Perm (m.inOrder id) := (jvm.order_perm m.keys).filterMap m.get
  rwa [KeyedMap.inOrder_id] at hperm

namespace BankRepository

/-- `new BankRepository()`. -/
def new : BankRepository :=
  ⟨KeyedMap.empty, KeyedMap.empty, KeyedMap.empty, KeyedMap.empty, KeyedMap.empty, 0, []⟩

/-- The auction that a reference points to. The references of a repository are places of `objects`,
so the default is never read. -/
def auction (s : BankRepository) (r : AuctionRef) : AuctionEntity := s.objects.getD r default

/-- `findByUserName(userName)`. -/
def findByUserName (s : BankRepository) (userName : JString) : Option BankEntity :=
  s.users.get userName

/-- `findByAuctionID(id)`. -/
def findByAuctionID (s : BankRepository) (id : JLong) : Option AuctionRef := s.auctions.lookup id

/-- `findByOpenedAuctionID(id)`. -/
def findByOpenedAuctionID (s : BankRepository) (id : JLong) : Option AuctionRef :=
  s.openedAuctions.lookup id

/-- `findByClosedAuctionID(id)`. -/
def findByClosedAuctionID (s : BankRepository) (id : JLong) : Option AuctionRef :=
  s.closedAuctions.lookup id

/-- `newUserBankEntity(b)`. -/
def newUserBankEntity (s : BankRepository) (b : BankEntity) : BankRepository :=
  { s with users := s.users.put b }

/-- An update in place of the entity that `findByUserName` returns, if there is one. -/
def updateUser (s : BankRepository) (userName : JString) (f : BankEntity → BankEntity) :
    BankRepository :=
  match s.findByUserName userName with
  | none => s
  | some b => s.newUserBankEntity (f b)

/-- An update in place of an auction. -/
def updateAuction (s : BankRepository) (r : AuctionRef) (f : AuctionEntity → AuctionEntity) :
    BankRepository :=
  { s with objects := s.objects.modify r f }

/-- `compareAmount(user, amnt)`: the balance of the user when its text is that of `amnt`, else the
negated balance. The texts of two values are equal exactly when the values are. -/
def compareAmount (s : BankRepository) (user : JString) (amnt : Int64) :
    Except JavaException Int64 :=
  match s.findByUserName user with
  | none => .error .nullPointer
  | some b =>
    match b.amount with
    | none => .error .nullPointer
    | some orig => .ok (if Long.toText orig ≠ Long.toText amnt then -orig else orig)

/-- `createAuction(a)` on a new object: it is put into both maps. The reference is that of
`auctions.get(a.getID())`. -/
def createAuction (s : BankRepository) (a : AuctionEntity) : AuctionRef × BankRepository :=
  let r := s.objects.length
  (r, { s with
    objects := s.objects ++ [a]
    auctions := s.auctions.insert a.id r
    openedAuctions := s.openedAuctions.insert a.id r })

/-- `closeAuction(a)`. -/
def closeAuction (s : BankRepository) (r : AuctionRef) : BankRepository :=
  let id := (s.auction r).id
  { s with
    auctions := s.auctions.insert id r
    openedAuctions := s.openedAuctions.remove id
    closedAuctions := s.closedAuctions.insert id r }

/-- `createBid(bid)`. -/
def createBid (s : BankRepository) (bid : BidEntity) : BankRepository :=
  { s with bids := s.bids.put bid }

/-- `findAllBidsFromAuction(id)` of an auction that is present. -/
def findAllBidsFromAuction (jvm : Jvm) (s : BankRepository) (r : AuctionRef) : List BidEntity :=
  (s.auction r).bids.inOrder jvm.order

/-- `findAllBidsFromUser(who)` of a user that is present. -/
def findAllBidsFromUser (jvm : Jvm) (b : BankEntity) : List BidEntity := b.bids.inOrder jvm.order

/-- `checkWinnerBidFromAuction(id)` of an auction that is present. -/
def checkWinnerBidFromAuction (s : BankRepository) (r : AuctionRef) : Option BidEntity :=
  (s.auction r).getLastBid

/-- `usersIterator()`. -/
def usersIterator (jvm : Jvm) (s : BankRepository) : List BankEntity := s.users.inOrder jvm.order

/-- `openedAuctionsIterator()`. -/
def openedAuctionsIterator (jvm : Jvm) (s : BankRepository) : List AuctionEntity :=
  (s.openedAuctions.inOrder jvm.order).map fun e => s.auction e.2

/-- `closedAuctionsIterator()`. -/
def closedAuctionsIterator (jvm : Jvm) (s : BankRepository) : List AuctionEntity :=
  (s.closedAuctions.inOrder jvm.order).map fun e => s.auction e.2

/-- `getNumOpenedAuctions()`. -/
def getNumOpenedAuctions (s : BankRepository) : Int32 := Int32.ofNat s.openedAuctions.size

/-- `save(id)` as the state sees it: the version is counted, whatever happens to the file. -/
def save (s : BankRepository) : BankRepository := { s with version := s.version + 1 }

/-- The file that `save(id)` leaves when no I/O error occurs: the version with `write(int)`, then
the map of users. It is written after the version has been counted. -/
def savedFile (s : BankRepository) : SavedFile :=
  write s.save.version ++ [.object ⟨s.users, s.objects⟩]

/-- An entity whose references are moved by `n` places. -/
def moveAuctions (n : ℕ) (b : BankEntity) : BankEntity :=
  { b with auctions := b.auctions.mapValues (· + n) }

/-- Other references keep the name. -/
theorem userName_moveAuctions (n : ℕ) (b : BankEntity) :
    (moveAuctions n b).userName = b.userName := rfl

/-- `load(id)`: the version with `readInt`, then the users. A failed read leaves what has been
assigned before it. The users that are read reach new auction objects, which are placed after the
ones that exist. -/
def load (s : BankRepository) (file : SavedFile) : BankRepository :=
  match readInt file with
  | .error _ => s
  | .ok (version, rest) =>
    match readObject rest with
    -- The version has been assigned when the users cannot be read.
    | .error _ => { s with version := version }
    | .ok (saved, _) =>
      { s with
        version := version
        users := saved.users.map (moveAuctions s.objects.length) (userName_moveAuctions _)
        objects := s.objects ++ saved.objects }

/-! ## What the updates leave unchanged -/

section Frame

variable (s : BankRepository)

/-- An account leaves the auctions. -/
@[simp] theorem newUserBankEntity_auctions (b : BankEntity) :
    (s.newUserBankEntity b).auctions = s.auctions := rfl

/-- It leaves the opened auctions. -/
@[simp] theorem newUserBankEntity_openedAuctions (b : BankEntity) :
    (s.newUserBankEntity b).openedAuctions = s.openedAuctions := rfl

/-- It leaves the closed auctions. -/
@[simp] theorem newUserBankEntity_closedAuctions (b : BankEntity) :
    (s.newUserBankEntity b).closedAuctions = s.closedAuctions := rfl

/-- It leaves the bids. -/
@[simp] theorem newUserBankEntity_bids (b : BankEntity) :
    (s.newUserBankEntity b).bids = s.bids := rfl

/-- It leaves the objects of the auctions. -/
@[simp] theorem newUserBankEntity_objects (b : BankEntity) :
    (s.newUserBankEntity b).objects = s.objects := rfl

/-- Every reference is to the same auction. -/
@[simp] theorem newUserBankEntity_auction (b : BankEntity) (r : AuctionRef) :
    (s.newUserBankEntity b).auction r = s.auction r := rfl

/-- A stored entity is found under its name, and the other users are found as before. -/
@[simp] theorem newUserBankEntity_findByUserName (b : BankEntity) (u : JString) :
    (s.newUserBankEntity b).findByUserName u =
      if b.userName = u then some b else s.findByUserName u := by
  simp [newUserBankEntity, findByUserName]

/-- An auction that is updated leaves the users. -/
@[simp] theorem updateAuction_users (r : AuctionRef) (f : AuctionEntity → AuctionEntity) :
    (s.updateAuction r f).users = s.users := rfl

/-- So the same users are found. -/
@[simp] theorem updateAuction_findByUserName (r : AuctionRef) (f : AuctionEntity → AuctionEntity)
    (u : JString) : (s.updateAuction r f).findByUserName u = s.findByUserName u := rfl

/-- There are as many objects as before. -/
@[simp] theorem updateAuction_length (r : AuctionRef) (f : AuctionEntity → AuctionEntity) :
    (s.updateAuction r f).objects.length = s.objects.length := by
  simp [updateAuction]

/-- An update of an auction changes that auction only. -/
theorem updateAuction_auction {r : AuctionRef} (hr : r < s.objects.length)
    (f : AuctionEntity → AuctionEntity) (q : AuctionRef) :
    (s.updateAuction r f).auction q = if q = r then f (s.auction r) else s.auction q := by
  by_cases h : q = r
  · subst h
    simp [updateAuction, auction, List.getD_eq_getElem?_getD, hr]
  · have h' : r ≠ q := fun e => h e.symm
    simp [updateAuction, auction, List.getD_eq_getElem?_getD, h, h']

/-- The update of a user that exists. -/
theorem updateUser_of_find {u : JString} {b : BankEntity} (h : s.findByUserName u = some b)
    (f : BankEntity → BankEntity) : s.updateUser u f = s.newUserBankEntity (f b) := by
  simp [updateUser, h]

/-- A user who is updated leaves the version. -/
@[simp] theorem updateUser_version (u : JString) (f : BankEntity → BankEntity) :
    (s.updateUser u f).version = s.version := by
  unfold updateUser
  split <;> rfl

/-- So does an auction. -/
@[simp] theorem updateAuction_version (r : AuctionRef) (f : AuctionEntity → AuctionEntity) :
    (s.updateAuction r f).version = s.version := rfl

/-- An entity is stored under its own name. -/
theorem userName_of_find {s : BankRepository} {u : JString} {b : BankEntity}
    (h : s.findByUserName u = some b) : b.userName = u :=
  KeyedMap.key_of_get h

/-- The account of a user with another amount is still theirs. -/
theorem userName_updateAmount {s : BankRepository} {u : JString} {b : BankEntity}
    (h : s.findByUserName u = some b) (v : Int64) : (b.updateAmount v).userName = u := by
  rw [BankEntity.updateAmount_userName, userName_of_find h]

/-- A new auction leaves the users. -/
@[simp] theorem createAuction_findByUserName (a : AuctionEntity) (u : JString) :
    (s.createAuction a).2.findByUserName u = s.findByUserName u := rfl

/-- It is found under its id. -/
@[simp] theorem createAuction_auctions (a : AuctionEntity) :
    (s.createAuction a).2.auctions = s.auctions.insert a.id s.objects.length := rfl

/-- It is one of the opened ones. -/
@[simp] theorem createAuction_openedAuctions (a : AuctionEntity) :
    (s.createAuction a).2.openedAuctions = s.openedAuctions.insert a.id s.objects.length := rfl

/-- It is none of the closed ones. -/
@[simp] theorem createAuction_closedAuctions (a : AuctionEntity) :
    (s.createAuction a).2.closedAuctions = s.closedAuctions := rfl

/-- It leaves the bids. -/
@[simp] theorem createAuction_bids (a : AuctionEntity) :
    (s.createAuction a).2.bids = s.bids := rfl

/-- Its object is the last one. -/
@[simp] theorem createAuction_objects (a : AuctionEntity) :
    (s.createAuction a).2.objects = s.objects ++ [a] := rfl

/-- A new object does not move the ones that exist. -/
theorem createAuction_auction (a : AuctionEntity) {q : AuctionRef} (hq : q < s.objects.length) :
    (s.createAuction a).2.auction q = s.auction q := by
  simp [createAuction, auction, List.getD_eq_getElem?_getD, List.getElem?_append_left hq]

/-- The reference of a new auction points to it. -/
@[simp] theorem createAuction_auction_length (a : AuctionEntity) :
    (s.createAuction a).2.auction s.objects.length = a := by
  simp [createAuction, auction, List.getD_eq_getElem?_getD]

end Frame

end BankRepository

end NovaBank.Replica
