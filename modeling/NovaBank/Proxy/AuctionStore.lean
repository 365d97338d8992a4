import NovaBank.Common.Run
import NovaBank.Proxy.Cache
import NovaBank.Proxy.Entities

/-!
# The auctions in the cache

`getnextID`, `createAuction`, `closeAuction`, `addBidToAuction` and `checkWinnerBidFromClosedAuction` of
`BankServiceReplicationJedisCluster`. An auction is the hash `auction#<id>`, and its id is in the set
`auctions` and in one of `opened-auctions` and `closed-auctions`. But `closeAuction` and
`addBidToAuction` ask for the hash `auctions#<id>` first, which nothing writes.

`auction_lifecycle_iff`: in every sequence of calls from a store without auctions, the store keeps the
law of its auctions exactly when nobody closes an own auction, and nobody makes a higher bid for the
auction of somebody else. Whatever is asked, no auction is closed and no bid is stored
(`Calm.close`, `Calm.bid`).
-/

namespace NovaBank.Proxy

open Java

open Replica hiding BidEntity AuctionEntity

open Entities (BidEntity AuctionEntity)

namespace BankServiceReplicationJedisCluster

/-- The key that the auctions are written under. -/
def auctionKey (id : JLong) : String := "auction#" ++ JLong.toText id

/-- The key that most methods ask for. -/
def auctionsKey (id : JLong) : String := "auctions#" ++ JLong.toText id

/-- `getnextID()`. -/
def getnextID (r : Redis) : Int32 := Int32.ofNat (r.keysWith "auction#").length

/-- `createAuction(username)`. -/
def createAuction (username : String) (r : Redis) : Int64 × Redis :=
  let id := (getnextID r).toInt64
  if isRegistered r username then
    let auction := r.hgetAll (auctionsKey (some id))
    if auction.values.isEmpty && !r.sismember "auctions" (Long.toText id) then
      let r := r.hset (auctionKey (some id)) "ownerUsername" username
      let r := r.hset (auctionKey (some id)) "state" "opened"
      let r := r.sadd "auctions" (Long.toText id)
      let r := r.sadd "opened-auctions" (Long.toText id)
      (id, r)
    else (-1, r)
  else (-1, r)

/-- Whether the auction with the id is one, and an opened one. -/
def isOpened (r : Redis) (id : JLong) : Bool :=
  r.sismember "opened-auctions" (JLong.toText id) && !r.sismember "closed-auctions" (JLong.toText id)

/-- `ownerUsername.equalsIgnoreCase(username)` with the owner that is stored. -/
def ownerIs (jvm : Jvm) (r : Redis) (id : JLong) (username : String) : Except JavaException Bool :=
  match r.hget (auctionKey id) "ownerUsername" with
  | none => .error .nullPointer
  | some ownerUsername => .ok (jvm.equalsIgnoreCase ownerUsername (some username))

/-- `closeAuction(username, id)`. -/
def closeAuction (jvm : Jvm) (username : String) (id : JLong) (r : Redis) :
    Except JavaException Bool × Redis :=
  if isRegistered r username then
    let auction := r.hgetAll (auctionsKey id)
    if !auction.values.isEmpty && r.sismember "auctions" (JLong.toText id) then
      if isOpened r id then
        match ownerIs jvm r id username with
        | .error e => (.error e, r)
        | .ok true =>
          let r := r.hset (auctionKey id) "state" "closed"
          let r := r.srem "opened-auctions" (JLong.toText id)
          (.ok true, r.sadd "closed-auctions" (JLong.toText id))
        | .ok false => (.ok false, r)
      else (.ok false, r)
    else (.ok false, r)
  else (.ok false, r)

/-- The last bid in a text of bids: `parts[parts.length - 1]` of `bids.split(" \\| ")`, read as a bid. -/
def lastBid (bids : String) : Except JavaException BidEntity :=
  match (split " | " bids).getLast? with
  | none => .error .indexOutOfBounds
  | some lastBidString => BidEntity.ofString lastBidString

/-- `hget(key, "bids") == null ? bid : hget(key, "bids") + " | " + bid`. -/
def appendBid (bids : Option String) (bid : BidEntity) : String :=
  match bids with
  | none => bid.toString
  | some bids => bids ++ " | " ++ bid.toString

/-- The two tests of `addBidToAuction` on the amount: it is more than that of the last bid that is
stored, and than that of the last bid of the given auction. -/
def isHigher (auction : AuctionEntity) (bids : Option String) (bid : BidEntity) :
    Except JavaException Bool := do
  match bids with
  -- `oldBidsFromAuction.split(…)`.
  | none => throw .nullPointer
  | some bids =>
    let lastBidEntity ← lastBid bids
    match lastBidEntity.amount, bid.amount with
    | some last, some amount => if last < amount then auction.validBidAmount bid.amount else return false
    | _, _ => throw .nullPointer

/-- `addBidToAuction(username, auctionEntity, bidEntity)`. -/
def addBidToAuction (jvm : Jvm) (username : String) (auctionEntity : AuctionEntity)
    (bidEntity : BidEntity) (r : Redis) : Except JavaException Bool × Redis :=
  if isRegistered r username then
    let id := auctionEntity.id
    let auction := r.hgetAll (auctionsKey id)
    if !auction.values.isEmpty && r.sismember "auctions" (JLong.toText id) then
      if isOpened r id then
        match ownerIs jvm r id username with
        | .error e => (.error e, r)
        | .ok true => (.ok false, r)
        | .ok false =>
          let oldBidsFromAuction := r.hget (auctionKey id) "bids"
          match isHigher auctionEntity oldBidsFromAuction bidEntity with
          | .error e => (.error e, r)
          | .ok false => (.ok false, r)
          | .ok true =>
            let r := r.sadd "bids" (JLong.toText bidEntity.id)
            let r := r.hset (auctionKey id) "bids" (appendBid oldBidsFromAuction bidEntity)
            let oldBidsFromUser := r.hget (userKey username) "bids"
            (.ok true, r.hset (userKey username) "bids" (appendBid oldBidsFromUser bidEntity))
      else (.ok false, r)
    else (.ok false, r)
  else (.ok false, r)

/-- `checkWinnerBidFromClosedAuction(auctionEntity)`, which is `null` when there is no such bid. -/
def checkWinnerBidFromClosedAuction (jvm : Jvm) (auctionEntity : AuctionEntity) (r : Redis) :
    Except JavaException (Option BidEntity) :=
  let id := auctionEntity.id
  if r.sismember "auctions" (JLong.toText id) then
    if r.sismember "closed-auctions" (JLong.toText id) then
      match auctionEntity.state with
      | none => .error .nullPointer
      | some state =>
        if jvm.equalsIgnoreCase state (some "closed") then
          match r.hget (auctionsKey id) "state" with
          | none => .error .nullPointer
          | some stored =>
            if jvm.equalsIgnoreCase stored (some "closed") then
              match r.hget (auctionsKey id) "bids" with
              | none => .ok none
              | some bids => (lastBid bids).map some
            else .ok none
        else .ok none
    else .ok none
  else .ok none

end BankServiceReplicationJedisCluster

/-! ## Sequences of calls -/

open BankServiceReplicationJedisCluster

/-- A call of the store. -/
inductive StoreCall where
  | createAuction (username : String)
  | addBidToAuction (username : String) (auctionEntity : AuctionEntity) (bidEntity : BidEntity)
  | closeAuction (username : String) (id : JLong)

/-- The store, with the ids that `createAuction` has returned, and the bids for which `addBidToAuction`
has returned `true`, each with its auction. -/
structure AuctionStore where
  redis : Redis
  created : List Int64
  bids : List (JLong × BidEntity)

namespace AuctionStore

/-- The last bid that was added to an auction. -/
def last (t : AuctionStore) (id : JLong) : Option BidEntity :=
  ((t.bids.filter fun b => b.1 = id).getLast?).map Prod.snd

/-- One call. The id `-1` is that of no auction. -/
def step (jvm : Jvm) (t : AuctionStore) : StoreCall → AuctionStore
  | .createAuction username =>
    let (id, redis) := createAuction username t.redis
    { t with redis := redis, created := if id = -1 then t.created else t.created ++ [id] }
  | .addBidToAuction username auctionEntity bidEntity =>
    match addBidToAuction jvm username auctionEntity bidEntity t.redis with
    | (.ok true, redis) =>
      { t with redis := redis, bids := t.bids ++ [(auctionEntity.id, bidEntity)] }
    | (_, redis) => { t with redis := redis }
  | .closeAuction username id => { t with redis := (closeAuction jvm username id t.redis).2 }

/-- The store after some calls. -/
def run (jvm : Jvm) (r : Redis) (xs : List StoreCall) : AuctionStore :=
  xs.foldl (step jvm) ⟨r, [], []⟩

/-- The auction is opened, and its state says so. -/
structure Opened (r : Redis) (id : JLong) : Prop where
  opened : r.sismember "opened-auctions" (JLong.toText id) = true
  notClosed : r.sismember "closed-auctions" (JLong.toText id) = false
  state : r.hget (auctionKey id) "state" = some "opened"

/-- The auction is closed, and its state says so. -/
structure Closed (r : Redis) (id : JLong) : Prop where
  notOpened : r.sismember "opened-auctions" (JLong.toText id) = false
  closed : r.sismember "closed-auctions" (JLong.toText id) = true
  state : r.hget (auctionKey id) "state" = some "closed"

/-- What holds of the auctions of the store: one that was created is known, and it is opened or closed;
and the last bid of a closed one is found. -/
structure Kept (jvm : Jvm) (t : AuctionStore) : Prop where
  created : ∀ id ∈ t.created, t.redis.sismember "auctions" (Long.toText id) = true ∧
    (Opened t.redis (some id) ∨ Closed t.redis (some id))
  winner : ∀ a : AuctionEntity, a.state = some "closed" →
    t.redis.sismember "closed-auctions" (JLong.toText a.id) = true → ∀ bid, t.last a.id = some bid →
      ∃ b, checkWinnerBidFromClosedAuction jvm a t.redis = .ok (some b) ∧ b.id = bid.id ∧
        b.username = bid.username ∧ b.amount = bid.amount

/-- The calls that a store has to follow: the owner closes an opened auction, and a registered user
who is not the owner bids more than the last bid of an opened auction, or more than nothing. -/
def Due (t : AuctionStore) : StoreCall → Prop
  | .createAuction _ => False
  | .addBidToAuction username auctionEntity bidEntity =>
    isRegistered t.redis username = true ∧ isOpened t.redis auctionEntity.id = true ∧
      (∃ owner, t.redis.hget (auctionKey auctionEntity.id) "ownerUsername" = some owner ∧
        owner ≠ username) ∧
      ∃ amount, bidEntity.amount = some amount ∧
        ((t.last auctionEntity.id).bind BidEntity.amount).getD 0 < amount
  | .closeAuction username id =>
    isRegistered t.redis username = true ∧ isOpened t.redis id = true ∧
      t.redis.hget (auctionKey id) "ownerUsername" = some username

/-- The store follows a call: it returns `true`, and the auction is closed, or has the bid. -/
def Done (jvm : Jvm) (t : AuctionStore) : StoreCall → Prop
  | .createAuction _ => True
  | .addBidToAuction username auctionEntity bidEntity =>
    (addBidToAuction jvm username auctionEntity bidEntity t.redis).1 = .ok true ∧
      (addBidToAuction jvm username auctionEntity bidEntity t.redis).2.hget
          (auctionKey auctionEntity.id) "bids" =
        some (appendBid (t.redis.hget (auctionKey auctionEntity.id) "bids") bidEntity)
  | .closeAuction username id =>
    (closeAuction jvm username id t.redis).1 = .ok true ∧
      Closed (closeAuction jvm username id t.redis).2 id

end AuctionStore

/-! ## What the store does -/

section Calm

variable {jvm : Jvm} {r : Redis}

/-- Nothing is stored under the keys that the methods ask for, and no auction is closed. -/
structure Calm (r : Redis) : Prop where
  unwritten : ∀ id, (r.hgetAll (auctionsKey id)).values = []
  noneClosed : ∀ member, r.sismember "closed-auctions" member = false

/-- The two kinds of keys differ in their eighth character. -/
theorem auctionKey_ne_auctionsKey (id id' : JLong) : auctionKey id ≠ auctionsKey id' := by
  intro h
  have hlist := congrArg (fun s => s.toList[7]?) h
  simp [auctionKey, auctionsKey, String.toList_append] at hlist

/-- A closing is refused. -/
theorem Calm.close (h : Calm r) (username : String) (id : JLong) :
    closeAuction jvm username id r = (.ok false, r) := by
  simp [closeAuction, h.unwritten]

/-- A bid is refused. -/
theorem Calm.bid (h : Calm r) (username : String) (auctionEntity : AuctionEntity)
    (bidEntity : BidEntity) :
    addBidToAuction jvm username auctionEntity bidEntity r = (.ok false, r) := by
  simp [addBidToAuction, h.unwritten]

/-- The store after an auction has been created. -/
def withAuction (id : Int64) (username : String) (r : Redis) : Redis :=
  (((r.hset (auctionKey (some id)) "ownerUsername" username).hset (auctionKey (some id))
    "state" "opened").sadd "auctions" (Long.toText id)).sadd "opened-auctions" (Long.toText id)

/-- `createAuction` refuses, or stores a new auction. -/
theorem createAuction_cases (username : String) (r : Redis) :
    createAuction username r = (-1, r) ∨
      ∃ id, createAuction username r = (id, withAuction id username r) := by
  unfold createAuction
  dsimp only
  split_ifs
  · exact .inr ⟨_, rfl⟩
  · exact .inl rfl
  · exact .inl rfl

/-- A new auction leaves a store calm. -/
theorem Calm.withAuction (h : Calm r) (id : Int64) (username : String) :
    Calm (withAuction id username r) where
  unwritten id' := by
    rw [Proxy.withAuction, Redis.hgetAll_sadd, Redis.hgetAll_sadd, Redis.hgetAll_hset,
      if_neg (auctionKey_ne_auctionsKey _ _), Redis.hgetAll_hset,
      if_neg (auctionKey_ne_auctionsKey _ _)]
    exact h.unwritten id'
  noneClosed member := by
    simpa [Proxy.withAuction, Redis.sismember_sadd] using h.noneClosed member

/-- The members of the sets stay. -/
theorem sismember_withAuction (id : Int64) (username : String) {key member : String}
    (h : r.sismember key member = true) : (withAuction id username r).sismember key member = true := by
  simp only [withAuction, Redis.sismember_sadd, Redis.sismember_hset, h]
  split_ifs <;> rfl

namespace AuctionStore

variable {t : AuctionStore}

/-- No auction is closed and no bid is stored, and every auction that was created is opened. -/
structure Inert (t : AuctionStore) : Prop where
  calm : Calm t.redis
  noBids : t.bids = []
  created : ∀ id ∈ t.created, t.redis.sismember "auctions" (Long.toText id) = true ∧
    Opened t.redis (some id)

/-- An opened auction stays opened when another one is created. -/
theorem Opened.withAuction {r : Redis} {id : JLong} (calm : Calm r) (h : Opened r id) (id' : Int64)
    (username : String) : Opened (withAuction id' username r) id where
  opened := sismember_withAuction id' username h.opened
  notClosed := (calm.withAuction id' username).noneClosed _
  state := by
    have hfield : "ownerUsername" ≠ "state" := by decide
    rw [Proxy.withAuction, Redis.hget_sadd, Redis.hget_sadd, Redis.hget_hset, Redis.hget_hset,
      if_neg fun e : _ ∧ "ownerUsername" = "state" => hfield e.2]
    split_ifs
    · rfl
    · exact h.state

/-- A new auction is opened. -/
theorem opened_withAuction {r : Redis} (calm : Calm r) (id : Int64) (username : String) :
    (withAuction id username r).sismember "auctions" (Long.toText id) = true ∧
      Opened (withAuction id username r) (some id) := by
  refine ⟨by simp [withAuction, Redis.sismember_sadd], ?_, (calm.withAuction id username).noneClosed _,
    ?_⟩
  · simp [withAuction, Redis.sismember_sadd, JLong.toText]
  · simp [withAuction, Redis.hget_hset]

/-- Every call leaves the store inert. -/
theorem Inert.step (h : t.Inert) (x : StoreCall) : (t.step jvm x).Inert := by
  -- Only the creation of an auction gets past its checks.
  cases x with
  | createAuction username =>
    rcases createAuction_cases username t.redis with hnone | ⟨id, hid⟩
    · simp only [AuctionStore.step, hnone]
      exact h
    · simp only [AuctionStore.step, hid]
      refine ⟨h.calm.withAuction id username, h.noBids, fun id' hid' => ?_⟩
      have hcases : id' ∈ t.created ∨ id' = id := by
        split_ifs at hid'
        · exact .inl hid'
        · simpa using hid'
      rcases hcases with hold | rfl
      · obtain ⟨hmember, hopened⟩ := h.created id' hold
        exact ⟨sismember_withAuction id username hmember, hopened.withAuction h.calm id username⟩
      · exact opened_withAuction h.calm id' username
  | addBidToAuction username auctionEntity bidEntity =>
    simp only [AuctionStore.step, h.calm.bid]
    exact h
  | closeAuction username id =>
    simp only [AuctionStore.step, h.calm.close]
    exact h

/-- A store that starts calm is inert after all calls. -/
theorem run_inert (calm : Calm r) (xs : List StoreCall) : (run jvm r xs).Inert :=
  Run.foldl_invariant (I := Inert) (fun _ x h => h.step x) xs ⟨calm, rfl, by simp⟩

/-- An inert store keeps its auctions. -/
theorem Inert.kept (h : t.Inert) : t.Kept jvm where
  created id hid := by
    obtain ⟨hmember, hopened⟩ := h.created id hid
    exact ⟨hmember, .inl hopened⟩
  winner a _ hclosed := by
    rw [h.calm.noneClosed] at hclosed
    cases hclosed

/-- No call that is due is followed. -/
theorem Inert.not_done (h : t.Inert) {x : StoreCall} (hdue : t.Due x) : ¬ t.Done jvm x := by
  cases x with
  | createAuction username => exact hdue.elim
  | addBidToAuction username auctionEntity bidEntity =>
    rw [Done, h.calm.bid]
    rintro ⟨hfalse, -⟩
    cases hfalse
  | closeAuction username id =>
    rw [Done, h.calm.close]
    rintro ⟨hfalse, -⟩
    cases hfalse

end AuctionStore

end Calm

/-- A store without auctions. -/
structure WithoutAuctions (r : Redis) : Prop where
  hashes : ∀ id, (r.hgetAll (auctionKey id)).values = [] ∧ (r.hgetAll (auctionsKey id)).values = []
  sets : ∀ member, r.sismember "auctions" member = false ∧
    r.sismember "opened-auctions" member = false ∧ r.sismember "closed-auctions" member = false

/-- To register a user creates no auction. -/
theorem WithoutAuctions.addNewUser {r : Redis} (h : WithoutAuctions r) (username password : String)
    (amount : JLong) : WithoutAuctions (addNewUser username password amount r).2 := by
  have hkey : ∀ id, userKey username ≠ auctionKey id ∧ userKey username ≠ auctionsKey id := by
    refine fun id => ⟨fun e => ?_, fun e => ?_⟩ <;>
      simpa [userKey, auctionKey, auctionsKey] using congrArg (fun s => s.toList.head?) e
  unfold BankServiceReplicationJedisCluster.addNewUser
  split_ifs
  · refine ⟨fun id => ?_, fun member => ?_⟩
    · simpa [Redis.hgetAll_hset, hkey id] using h.hashes id
    · simpa [Redis.sismember_sadd] using h.sets member
  · exact h

/-- **The lifecycle of auctions in the cache:** for every sequence of calls on a store without auctions,
its auctions are kept and each call that is due is followed exactly when no call of the sequence is
due. The auctions are kept in any case. -/
theorem auction_lifecycle_iff (jvm : Jvm) {r : Redis} (h : WithoutAuctions r) (xs : List StoreCall) :
    ((∀ ys, ys <+: xs → (AuctionStore.run jvm r ys).Kept jvm) ∧
      ∀ ys x, ys ++ [x] <+: xs → (AuctionStore.run jvm r ys).Due x →
        (AuctionStore.run jvm r ys).Done jvm x) ↔
    ∀ ys x, ys ++ [x] <+: xs → ¬ (AuctionStore.run jvm r ys).Due x := by
  have hinert : ∀ ys, (AuctionStore.run jvm r ys).Inert :=
    AuctionStore.run_inert ⟨fun id => (h.hashes id).2, fun member => (h.sets member).2.2⟩
  constructor
  · rintro ⟨-, hdone⟩ ys x hx hdue
    exact (hinert ys).not_done hdue (hdone ys x hx hdue)
  · intro hnone
    exact ⟨fun ys _ => (hinert ys).kept, fun ys x hx hdue => absurd hdue (hnone ys x hx)⟩

/-- An empty store has no auctions. -/
theorem withoutAuctions_empty : WithoutAuctions Redis.empty :=
  ⟨fun _ => ⟨rfl, rfl⟩, fun _ => ⟨rfl, rfl, rfl⟩⟩

/-- A store with the users `alice` and `bob`. -/
def twoUsers : Redis :=
  (addNewUser "bob" "secret" (some 20) (addNewUser "alice" "secret" (some 0) Redis.empty).2).2

/-- `alice` creates an auction and bids for it, `bob` bids nothing for it and closes it, and `alice` closes
an auction that does not exist. -/
def refusedCalls : List StoreCall :=
  [.createAuction "alice",
    .addBidToAuction "alice" (AuctionEntity.new (some 0) (some "alice"))
      ⟨some 0, some "alice", some 10, some 1⟩,
    .addBidToAuction "bob" (AuctionEntity.new (some 0) (some "alice"))
      ⟨some 1, some "bob", some 0, some 2⟩,
    .closeAuction "bob" (some 0),
    .closeAuction "alice" (some 5)]

/-- The store is right to refuse the bids and the closings, and keeps the auction. -/
theorem auction_lifecycle_alice :
    let jvm := Jvm.plain (ContractClass.queueing [])
    WithoutAuctions twoUsers ∧
      (∀ ys, ys <+: refusedCalls → (AuctionStore.run jvm twoUsers ys).Kept jvm) ∧
      (∀ ys x, ys ++ [x] <+: refusedCalls → (AuctionStore.run jvm twoUsers ys).Due x →
        (AuctionStore.run jvm twoUsers ys).Done jvm x) ∧
      (AuctionStore.run jvm twoUsers refusedCalls).created = [0] := by
  intro jvm
  have hr : WithoutAuctions twoUsers :=
    (withoutAuctions_empty.addNewUser "alice" "secret" (some 0)).addNewUser "bob" "secret" (some 20)
  have hdue : ∀ ys x, ys ++ [x] <+: refusedCalls → ¬ (AuctionStore.run jvm twoUsers ys).Due x := by
    refine Run.forall_concat_prefix_cons ?_ (Run.forall_concat_prefix_cons ?_
      (Run.forall_concat_prefix_cons ?_ (Run.forall_concat_prefix_cons ?_
        (Run.forall_concat_prefix_cons ?_ Run.forall_concat_prefix_nil))))
    · exact id
    · -- The bid of the owner.
      rintro ⟨-, -, ⟨owner, howner, hother⟩, -⟩
      have halice : (AuctionStore.run jvm twoUsers [.createAuction "alice"]).redis.hget
          (auctionKey (some 0)) "ownerUsername" = some "alice" := by decide
      exact hother (Option.some.inj (howner.symm.trans halice))
    · -- No more than nothing.
      rintro ⟨-, -, -, amount, hamount, hhigher⟩
      cases hamount
      exact absurd hhigher (by decide)
    · rintro ⟨-, -, howner⟩
      exact absurd howner (by decide)
    · rintro ⟨-, hopened, -⟩
      exact absurd hopened (by decide)
  obtain ⟨hkept, hdone⟩ := (auction_lifecycle_iff jvm hr refusedCalls).mpr hdue
  exact ⟨hr, hkept, hdone, by decide⟩

/-- **An auction that stays open:** `alice` creates an auction and closes it, and `bob` bids 10 for it.
The store refuses both. -/
theorem closing_refused :
    let jvm := Jvm.plain (ContractClass.queueing [])
    let r := (addNewUser "bob" "secret" (some 20)
      (addNewUser "alice" "secret" (some 0) Redis.empty).2).2
    let t := AuctionStore.run jvm r [.createAuction "alice"]
    t.created = [0] ∧ isOpened t.redis (some 0) = true ∧
      t.redis.hget (auctionKey (some 0)) "ownerUsername" = some "alice" ∧
      closeAuction jvm "alice" (some 0) t.redis = (.ok false, t.redis) ∧
      isRegistered t.redis "bob" = true ∧
      addBidToAuction jvm "bob" (AuctionEntity.new (some 0) (some "alice"))
        ⟨some 0, some "bob", some 10, some 1⟩ t.redis = (.ok false, t.redis) := by
  decide

end NovaBank.Proxy
