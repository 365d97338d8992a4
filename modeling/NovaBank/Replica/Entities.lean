import NovaBank.Java.Long
import NovaBank.Java.Map
import NovaBank.Java.Stream
import NovaBank.Java.Text

/-!
# The entities of a replica

`BidEntity`, `AuctionEntity` and `BankEntity` of `CSDBftServer/src/main/java/bftProxyServer`, with
the JSON that they are listed as. A Java `String` or `Long` that the code may hold as `null` is an
`Option`. A bid is immutable and is modelled by its value, and a user's account is reached only
through the map of users, so it is a value of that map. An auction is mutable and is shared by
several maps, so the maps hold references to it (`AuctionRef`) and the repository holds the objects.

`Jvm` collects what the replica uses from outside its sources: the order in which a hash map is
iterated, Unicode's case folding, the text that `org.json` prints, and the classes that uploaded
byte code defines.
-/

namespace NovaBank.Replica

open Java

/-- A Java `String`, `none` for `null`. -/
abbrev JString := Option String

/-- A Java `Long`, `none` for `null`. -/
abbrev JLong := Option Int64

/-- `"" + s` for a string. -/
def JString.toText (s : JString) : String := s.getD "null"

/-- `"" + v` for a `Long`. -/
def JLong.toText (v : JLong) : String := (v.map Long.toText).getD "null"

/-! ## JSON -/

/-- A value in a JSON object. -/
inductive Scalar where
  | text (s : String)
  | number (v : Int64)
  | bool (b : Bool)
  deriving DecidableEq

/-- A `JSONObject` with plain values, as its fields in the order in which they were put. -/
structure JSONObject where
  fields : List (String × Scalar)
  deriving DecidableEq

namespace JSONObject

/-- `new JSONObject()`. -/
def empty : JSONObject := ⟨[]⟩

/-- `put(key, value)` with a value that may be `null`, which leaves the key out. The keys that the
program puts into one object are distinct. -/
def put (o : JSONObject) (key : String) (v : Option Scalar) : JSONObject :=
  match v with
  | none => o
  | some v => ⟨o.fields ++ [(key, v)]⟩

/-- `new JSONObject().put("error", message)`. -/
def error (message : String) : JSONObject := empty.put "error" (some (.text message))

/-- `new JSONObject().put("Success", "True")`. -/
def success : JSONObject := empty.put "Success" (some (.text "True"))

/-- `has(key)`. -/
def has (o : JSONObject) (key : String) : Bool := o.fields.any fun f => f.1 == key

/-- The value of a key. -/
def get (o : JSONObject) (key : String) : Option Scalar := o.fields.lookup key

/-- `getLong(key)`. A key without a value, and a value that is not a number, are a `JSONException`.
-/
def getLong (o : JSONObject) (key : String) : Except JavaException Int64 :=
  match o.get key with
  | some (.number v) => .ok v
  | some (.text s) =>
    match parseLong s with
    | some v => .ok v
    | none => .error .other
  | _ => .error .other

end JSONObject

/-! ## Bids -/

/-- `BidEntity`. Both constructors that the replica uses take the three values from parsed numbers,
so none of them is `null`. -/
structure BidEntity where
  id : Int64
  username : JString
  amount : Int64
  timestamp : Int64
  deriving DecidableEq

/-- `getJSON()` of a bid. -/
def BidEntity.getJSON (b : BidEntity) : JSONObject :=
  (((JSONObject.empty.put "id" (some (.number b.id))).put "username" (b.username.map .text)).put
    "amount" (some (.number b.amount))).put "timestamp" (some (.number b.timestamp))

/-- Bids under their ids. -/
abbrev Bids := KeyedMap BidEntity.id

/-! ## Auctions -/

/-- `AuctionEntity`. -/
structure AuctionEntity where
  id : JLong
  ownerUsername : JString
  isClosed : Bool
  bids : Bids
  deriving DecidableEq, Inhabited

/-- A reference to an `AuctionEntity`: its place among the objects of the repository. -/
abbrev AuctionRef := ℕ

namespace AuctionEntity

/-- `new AuctionEntity(id, ownerUsername)`. -/
def new (id : JLong) (ownerUsername : JString) : AuctionEntity :=
  ⟨id, ownerUsername, false, KeyedMap.empty⟩

/-- `close()`. -/
def close (a : AuctionEntity) : AuctionEntity := { a with isClosed := true }

/-- `addBid(username, bid)`, which ignores the name. -/
def addBid (a : AuctionEntity) (bid : BidEntity) : AuctionEntity := { a with bids := a.bids.put bid }

/-- `getLastBid()`: the bid whose id is the number of bids minus one. -/
def getLastBid (a : AuctionEntity) : Option BidEntity := a.bids.get (Int64.ofInt (a.bids.size - 1))

/-- `getLastBidAmount()`. -/
def getLastBidAmount (a : AuctionEntity) : Int64 := (a.getLastBid.map BidEntity.amount).getD 0

end AuctionEntity

/-! ## Accounts -/

/-- `BankEntity`. Its field `id` is never assigned nor read and is left out. -/
structure BankEntity where
  userName : JString
  password : JString
  amount : JLong
  auctions : JavaMap JLong AuctionRef
  bids : Bids
  roles : String
  deriving DecidableEq

/-- The JSON values that the replica prints: an object with plain values, an array of them, and the
object of an auction, whose field `bids` is an object itself and which is determined by the
entity. -/
inductive Json where
  | object (o : JSONObject)
  | array (os : List JSONObject)
  | auction (a : AuctionEntity)

/-- A class that uploaded byte code defines, as far as the replica looks at it or runs it. Its code may
do anything else in the same virtual machine. Left out are methods `getOperations` and `clearOperations`
of its own that throw, return a list that something else changes, or do not clear it; and that the code
calls the public constructor of `AuctionSmartContract` by itself, which sets the static owner, except
where it is a step of its own (`Attributed.Step.construct`). -/
structure ContractClass where
  /-- Whether it has a constructor that takes a `String`. -/
  hasStringConstructor : Bool
  /-- Whether that constructor throws. -/
  constructorThrows : Bool
  /-- Whether it implements `SmartContract`, itself or through its superclass. -/
  isSmartContract : Bool
  /-- Whether it extends `AuctionSmartContract`, which keeps the owner in a static field. -/
  extendsAuction : Bool
  /-- Whether it overrides `getOperations` and `clearOperations` with a list of its own, or has no
  superclass to inherit them from. If not, the list is the static one of `AuctionSmartContract`. -/
  ownOperations : Bool
  /-- The owner that the constructor sets when it is not the very string that it is given. -/
  otherOwner : Option JString
  /-- The names of its interfaces. -/
  interfaces : List String
  /-- The public constructors, each as the names of its parameter types. -/
  constructors : List (List String)
  /-- The names of its public fields. -/
  fields : List String
  /-- The operations that its `run` method queues. -/
  operations : List String

/-- What the replica uses from outside its sources. -/
structure Jvm where
  /-- The order in which an iteration over a hash map visits its keys, from the order in which they
  were inserted. -/
  order : {κ : Type} → List κ → List κ
  /-- An iteration visits every key once. -/
  order_perm : ∀ {κ : Type} (l : List κ), (order l).Perm l
  /-- `Character.toLowerCase(Character.toUpperCase(c))`. -/
  foldCase : Char → Char
  /-- The text that `org.json` prints. -/
  text : Json → String
  /-- `defineClass`: the class of uploaded byte code, or the error that it is refused with. -/
  defineClass : List UInt8 → Except JavaException ContractClass

/-- A machine that iterates in the order of insertion, keeps the case of letters apart, prints
nothing and finds the class `cl` in every upload. Concrete runs are evaluated on it. -/
def Jvm.plain (cl : ContractClass) : Jvm where
  order := id
  order_perm := List.Perm.refl
  foldCase := id
  text := fun _ => ""
  defineClass := fun _ => .ok cl

/-- A contract class that extends `AuctionSmartContract` and whose `run` method queues `operations`.
-/
def ContractClass.queueing (operations : List String) : ContractClass :=
  ⟨true, false, true, true, false, none, [], [], [], operations⟩

/-- `a.equalsIgnoreCase(b)`, where `b` may be `null`. -/
def Jvm.equalsIgnoreCase (jvm : Jvm) (a : String) (b : JString) : Bool :=
  match b with
  | none => false
  | some b => Java.equalsIgnoreCase jvm.foldCase a b

/-- The separator of the roles in their one string. -/
def roleSeparator : String := "@/&@"

namespace BankEntity

/-- The loop of the constructor over the roles: every role but `ROLE_USER` is appended, and a `null`
role fails. -/
def appendRoles (jvm : Jvm) : String → List JString → Except JavaException String
  | acc, [] => .ok acc
  | _, none :: _ => .error .nullPointer
  | acc, some r :: rs =>
    if Java.equalsIgnoreCase jvm.foldCase r "ROLE_USER" then appendRoles jvm acc rs
    else appendRoles jvm (acc ++ roleSeparator ++ r) rs

/-- `new BankEntity(userName, password, amount, roles)`. -/
def new (jvm : Jvm) (userName password : JString) (amount : JLong) (roles : Option (List JString)) :
    Except JavaException BankEntity :=
  let build (r : String) : BankEntity :=
    ⟨userName, password, amount, KeyedMap.empty, KeyedMap.empty, r⟩
  match roles with
  | none => .ok (build ("ROLE_USER" ++ roleSeparator))
  | some rs => (appendRoles jvm "ROLE_USER" rs).map build

/-- `getRoles()`. The constructor begins the roles with `ROLE_USER`, so there is always a piece and
the code never returns `null`. -/
def getRoles (b : BankEntity) : List String := split roleSeparator b.roles

/-- `updateAmount(amount)`. -/
def updateAmount (b : BankEntity) (amount : Int64) : BankEntity := { b with amount := some amount }

/-- `addAuction(auction)`. -/
def addAuction (b : BankEntity) (id : JLong) (r : AuctionRef) : BankEntity :=
  { b with auctions := b.auctions.insert id r }

/-- The bidder's side of `makeBidForAuction(auction, bid)`: the bid is recorded and its amount is
frozen. -/
def freezeBid (b : BankEntity) (bid : BidEntity) : BankEntity :=
  { b with bids := b.bids.put bid, amount := b.amount.map (· - bid.amount) }

/-- `getJSON()`. -/
def getJSON (b : BankEntity) : JSONObject :=
  (((JSONObject.empty.put "username" (b.userName.map .text)).put "password"
    (b.password.map .text)).put "amount" (b.amount.map .number)).put "roles" (some (.text b.roles))

/-- `getJSONSecure()`. -/
def getJSONSecure (b : BankEntity) : JSONObject :=
  (JSONObject.empty.put "username" (b.userName.map .text)).put "amount" (b.amount.map .number)

/-- A new amount keeps the name. -/
@[simp] theorem updateAmount_userName (b : BankEntity) (v : Int64) :
    (b.updateAmount v).userName = b.userName := rfl

/-- A new auction keeps the name. -/
@[simp] theorem addAuction_userName (b : BankEntity) (id : JLong) (r : AuctionRef) :
    (b.addAuction id r).userName = b.userName := rfl

/-- A bid keeps the name. -/
@[simp] theorem freezeBid_userName (b : BankEntity) (bid : BidEntity) :
    (b.freezeBid bid).userName = b.userName := rfl

/-- The constructor keeps the name and the amount that it is given. -/
theorem fields_of_new {jvm : Jvm} {u p : JString} {a : JLong} {rs : Option (List JString)}
    {b : BankEntity} (h : new jvm u p a rs = .ok b) : b.userName = u ∧ b.amount = a := by
  unfold new at h
  -- The roles are joined before the fields are set, and only they can throw.
  cases rs with
  | none =>
    cases h
    exact ⟨rfl, rfl⟩
  | some rs =>
    cases hr : appendRoles jvm "ROLE_USER" rs with
    | error e => simp [hr, Except.map] at h
    | ok r =>
      simp only [hr, Except.map, Except.ok.injEq] at h
      rw [← h]
      exact ⟨rfl, rfl⟩

/-- A new account has the name that it is made with. -/
theorem userName_of_new {jvm : Jvm} {u p : JString} {a : JLong} {rs : Option (List JString)}
    {b : BankEntity} (h : new jvm u p a rs = .ok b) : b.userName = u := (fields_of_new h).1

/-- A new account has the amount that it is made with. -/
theorem amount_of_new {jvm : Jvm} {u p : JString} {a : JLong} {rs : Option (List JString)}
    {b : BankEntity} (h : new jvm u p a rs = .ok b) : b.amount = a := (fields_of_new h).2

end BankEntity

end NovaBank.Replica
