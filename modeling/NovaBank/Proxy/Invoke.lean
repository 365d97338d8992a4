import NovaBank.Proxy.Controller
import NovaBank.Proxy.Requests

/-!
# What the proxy makes of a reply

The second half of the `invoke` methods of
`csd/src/main/java/fct/unl/pt/csd/Controller/ClientRequestHandler.java`, on the bytes that the library
returns. Every method asks for the length of the reply and returns its refused value, `null` or the
empty string, for an empty reply and after an exception of the stream. Only five of them ask whether
there is a reply before they ask for its length.

The `JSONObject` and the `JSONArray` are values of a type `J`, of which `JsonLibrary` has what the
methods use. `loadUserByUsername` makes the `MyUserDetails` of `csd/.../Security` out of an account. The
class of the authorities is a `SimpleGrantedAuthority`, of which it is known which roles it takes.
-/

namespace NovaBank.Replica

open Java

/-- `getString(key)`. A key without a value, and a value that is not a text, are a `JSONException`. -/
def JSONObject.getString (o : JSONObject) (key : String) : Except JavaException String :=
  match o.get key with
  | some (.text s) => .ok s
  | _ => .error .other

end NovaBank.Replica

namespace NovaBank.Proxy

open Java Replica

/-- What the methods use of `org.json`. -/
structure JsonLibrary (J : Type) extends JsonParser J where
  /-- `getString(key)`. -/
  getString : J → String → Except JavaException String
  /-- `getLong(key)`. -/
  getLong : J → String → Except JavaException Int64

/-- The `BankEntity` of the proxy, which is built from the account of a user. -/
structure FoundUser where
  userName : String
  password : String
  amount : Int64
  roles : String
  deriving DecidableEq

/-- `getRoles()`. -/
def FoundUser.getRoles (u : FoundUser) : List String := split roleSeparator u.roles

/-- What the proxy uses of the class of the authorities. -/
structure SimpleGrantedAuthority where
  /-- `Character.isWhitespace`. -/
  isWhitespace : Char → Bool
  /-- The text of `new SimpleGrantedAuthority(role)`, and `none` for an `IllegalArgumentException`. -/
  new : JString → Option String
  /-- A letter is not white space. -/
  isWhitespace_letter : isWhitespace 'R' = false
  /-- A role with a character that is not white space is kept as it is. -/
  new_visible : ∀ role : String, role.toList.all isWhitespace = false → new (some role) = some role
  /-- A blank role is refused. -/
  new_blank : ∀ role : String, role.toList.all isWhitespace = true → new (some role) = none

namespace SimpleGrantedAuthority

variable (authority : SimpleGrantedAuthority)

/-- The constructor for the roles of an account, whose exception nobody catches. -/
def grant (role : String) : Except JavaException String :=
  match authority.new (some role) with
  | some text => .ok text
  | none => .error .other

/-- `ROLE_USER` is not blank. -/
theorem visible_roleUser : "ROLE_USER".toList.all authority.isWhitespace = false := by
  have htext : "ROLE_USER".toList = 'R' :: "OLE_USER".toList := rfl
  rw [htext, List.all_cons, authority.isWhitespace_letter, Bool.false_and]

/-- The authorities are the roles, unless one of them is blank. -/
theorem mapM_grant (rs : List String) :
    rs.mapM authority.grant =
      if ∀ r ∈ rs, r.toList.all authority.isWhitespace = false then .ok rs else .error .other := by
  -- On the roles: the first blank one throws.
  induction rs with
  | nil => rfl
  | cons r rs ih =>
    rw [List.mapM_cons, ih]
    cases hr : r.toList.all authority.isWhitespace with
    | true =>
      have hgrant : authority.grant r = .error .other := by rw [grant, authority.new_blank r hr]
      have hblank : ¬ ∀ q ∈ r :: rs, q.toList.all authority.isWhitespace = false := by
        intro h
        have hhead := h r (by simp)
        rw [hr] at hhead
        cases hhead
      rw [hgrant, if_neg hblank]
      rfl
    | false =>
      have hgrant : authority.grant r = .ok r := by rw [grant, authority.new_visible r hr]
      simp only [hgrant, List.forall_mem_cons, hr, true_and]
      split_ifs <;> rfl

end SimpleGrantedAuthority

/-- `MyUserDetails`, with the texts of the authorities. -/
structure MyUserDetails where
  userName : JString
  passWord : JString
  roles : List String
  deriving DecidableEq

namespace MyUserDetails

/-- `new MyUserDetails(userName, e1)`. Without a user, `e1.get()` throws. -/
def new (authority : SimpleGrantedAuthority) (userName : JString) :
    Option FoundUser → Except JavaException MyUserDetails
  | none => .error .noSuchElement
  | some e => do
    return ⟨userName, some e.password, ← e.getRoles.mapM authority.grant⟩

/-- `getAuthorities()`. -/
def getAuthorities (d : MyUserDetails) : List String := d.roles

end MyUserDetails

/-- What an `invoke` method returns. -/
inductive Invoked (J : Type) where
  | null
  | text (s : String)
  | object (j : J)
  | user (u : FoundUser)
  | amount (v : Int64)
  /-- The empty object, for accounts that the caller has already. -/
  | unchanged
  | list (l : List J)
  | bid (id : Int64) (username : String) (amount timestamp : Int64)
  deriving DecidableEq

/-- The result of a listing. -/
def Decoded.toInvoked {J : Type} : Decoded J → Invoked J
  | null => .null
  | unchanged => .unchanged
  | list l => .list l

/-- `(long) o`. -/
def asLongValue : JObject → Except JavaException Int64
  | .null => .error .nullPointer
  | .long v => .ok v
  | _ => .error .classCast

namespace Wire

variable {J : Type} (w : Wire) (p : JsonLibrary J) (jvm : Jvm)

/-! ## The methods -/

/-- How a method goes on with a reply: with `decode`, unless there is none or it is empty. -/
def decodeReply (testsNull : Bool) (refused : Invoked J)
    (decode : Bytes → Except JavaException (Invoked J)) :
    Content → Except JavaException (Invoked J)
  -- `requestReply.length` throws without a test for `null` before it.
  | none => if testsNull then .ok refused else .error .nullPointer
  | some requestReply =>
    if requestReply.length = 0 then .ok refused
    else
      match (do w.openStream requestReply; decode requestReply) with
      | .ok v => .ok v
      | .error e => if e.isStream then .ok refused else .error e

/-- `new JSONObject(input.readObject().toString())`. -/
def readJSONObject (requestReply : Bytes) : Except JavaException J := do
  p.object (← textOf (← w.readObject requestReply 0))

/-- A method that returns the object of the reply. -/
def decodeObject (testsNull : Bool) : Content → Except JavaException (Invoked J) :=
  w.decodeReply testsNull .null fun requestReply => do
    return .object (← w.readJSONObject p requestReply)

/-- `invokeCreateNew(username, password, amount, roles)`. -/
def invokeCreateNew : Content → Except JavaException (Invoked J) :=
  w.decodeReply true (.text "") fun requestReply => do
    return .text (← textOf (← w.readObject requestReply 0))

/-- `invokeCreateMoney(who, initialAmount, finalAmount)`. -/
def invokeCreateMoney : Content → Except JavaException (Invoked J) := w.decodeObject p true

/-- `invokeTransferMoney(from, fromSaldo, to, toSaldo, fromAmount, toAmount)`. -/
def invokeTransferMoney : Content → Except JavaException (Invoked J) := w.decodeObject p false

/-- `invokeCreateAuction(who, auctionID)`. -/
def invokeCreateAuction : Content → Except JavaException (Invoked J) := w.decodeObject p false

/-- `invokeCloseAuction(who, auctionID)`. -/
def invokeCloseAuction : Content → Except JavaException (Invoked J) := w.decodeObject p false

/-- `invokeCreateBid(who, auctionID, bidID, amount)`. -/
def invokeCreateBid : Content → Except JavaException (Invoked J) := w.decodeObject p false

/-- `invokeCreateSmartContract(who, code)`. -/
def invokeCreateSmartContract : Content → Except JavaException (Invoked J) := w.decodeObject p false

/-- `new BankEntity(j.getString("username"), j.getString("password"), j.getLong("amount"),
j.getString("roles").split("@/&@"))`. The loop over the roles is that of the class of the replicas. -/
def toUser (j : J) : Except JavaException FoundUser := do
  let userName ← p.getString j "username"
  let password ← p.getString j "password"
  let amount ← p.getLong j "amount"
  let roles := split roleSeparator (← p.getString j "roles")
  return ⟨userName, password, amount, ← BankEntity.appendRoles jvm "ROLE_USER" (roles.map some)⟩

/-- `invokeFindUser(username)`. -/
def invokeFindUser : Content → Except JavaException (Invoked J) :=
  w.decodeReply true .null fun requestReply => do
    return .user (← toUser p jvm (← w.readJSONObject p requestReply))

/-- `loadUserByUsername(username)`. -/
def loadUserByUsername (authority : SimpleGrantedAuthority) (username : JString) (message : Content) :
    Except JavaException MyUserDetails := do
  match ← w.invokeFindUser p jvm message with
  | .user e => MyUserDetails.new authority username (some e)
  | _ => MyUserDetails.new authority username none

/-- `invokeCheckCurrentAmount(username)`. -/
def invokeCheckCurrentAmount : Content → Except JavaException (Invoked J) :=
  w.decodeReply true .null fun requestReply => do
    return .amount (← asLongValue (← w.readObject requestReply 0))

/-- `new BidEntity(j.getLong("id"), j.getString("username"), j.getLong("amount"),
j.getLong("timestamp"))`. -/
def toBid (j : J) : Except JavaException (Invoked J) := do
  let id ← p.getLong j "id"
  let username ← p.getString j "username"
  let amount ← p.getLong j "amount"
  return .bid id username amount (← p.getLong j "timestamp")

/-- `invokeCheckWinnerBidClosedAuction(auctionID)`. -/
def invokeCheckWinnerBidClosedAuction : Content → Except JavaException (Invoked J) :=
  w.decodeReply false .null fun requestReply => do toBid p (← w.readJSONObject p requestReply)

/-- The `invokeListAll` methods. That of the accounts asks whether there is a reply. -/
def invokeList (l : Listing) : Content → Except JavaException (Invoked J)
  | none =>
    match l with
    | .accounts _ => .ok .null
    | _ => .error .nullPointer
  | some requestReply => (l.decode w p.toJsonParser requestReply).map Decoded.toInvoked

end Wire

namespace ClientRequest

variable {J : Type}

/-- What the method of a request returns for what the library returns. -/
def invoke (w : Wire) (p : JsonLibrary J) (jvm : Jvm) :
    ClientRequest → Content → Except JavaException (Invoked J)
  | createNew _ _ _ _ => w.invokeCreateNew
  | createMoney _ _ _ => w.invokeCreateMoney p
  | transferMoney _ _ _ _ _ _ => w.invokeTransferMoney p
  | createAuction _ _ => w.invokeCreateAuction p
  | closeAuction _ _ => w.invokeCloseAuction p
  | createBid _ _ _ _ => w.invokeCreateBid p
  | createSmartContract _ _ => w.invokeCreateSmartContract p
  | findUser _ => w.invokeFindUser p jvm
  | checkCurrentAmount _ => w.invokeCheckCurrentAmount
  | list l => w.invokeList p l
  | checkWinnerBidClosedAuction _ => w.invokeCheckWinnerBidClosedAuction p

/-- The value of a method for a request that is refused. -/
def refused : ClientRequest → Invoked J
  | createNew _ _ _ _ => .text ""
  | _ => .null

/-- Whether the method asks if there is a reply. -/
def testsNull : ClientRequest → Bool
  | createNew _ _ _ _ | createMoney _ _ _ | findUser _ | checkCurrentAmount _ => true
  | list (.accounts _) => true
  | _ => false

variable (w : Wire) (p : JsonLibrary J) (jvm : Jvm)

/-- Every method returns its refused value for an empty reply. -/
theorem invoke_nil (q : ClientRequest) : q.invoke w p jvm (some []) = .ok q.refused := by
  cases q with
  | list l => cases l <;> rfl
  | createNew _ _ _ _ | createMoney _ _ _ | transferMoney _ _ _ _ _ _ | createAuction _ _
  | closeAuction _ _ | createBid _ _ _ _ | createSmartContract _ _ | findUser _
  | checkCurrentAmount _ | checkWinnerBidClosedAuction _ => rfl

/-- Without a reply the methods that do not ask for it throw. -/
theorem invoke_none (q : ClientRequest) :
    q.invoke w p jvm none = if q.testsNull then .ok q.refused else .error .nullPointer := by
  cases q with
  | list l => cases l <;> rfl
  | createNew _ _ _ _ | createMoney _ _ _ | transferMoney _ _ _ _ _ _ | createAuction _ _
  | closeAuction _ _ | createBid _ _ _ _ | createSmartContract _ _ | findUser _
  | checkCurrentAmount _ | checkWinnerBidClosedAuction _ => rfl

end ClientRequest

/-! ## Replies of correct replicas -/

section Written

variable {J : Type} {w : Wire} {p : JsonLibrary J} {jvm : Jvm} {value : Json → J} {payload : Bytes}

/-- `org.json` at the proxy reads a value that it has printed at a replica: `value` is the JSON of it at
the proxy. -/
def ReadsValue (jvm : Jvm) (p : JsonLibrary J) (value : Json → J) : Json → Prop
  | .object o => p.object (jvm.text (.object o)) = .ok (value (.object o)) ∧
      ∀ key, p.getString (value (.object o)) key = o.getString key ∧
        p.getLong (value (.object o)) key = o.getLong key
  | .auction a => p.object (jvm.text (.auction a)) = .ok (value (.auction a))
  | .array os => p.array (jvm.text (.array os)) = .ok (os.map fun o => value (.object o))

/-- It reads every value of a reply. -/
def ReadsValues (jvm : Jvm) (p : JsonLibrary J) (value : Json → J) (reply : Reply) : Prop :=
  ∀ os j, reply = some os → ReplyObject.json j ∈ os → ReadsValue jvm p value j

/-- A payload with a stream is not empty. -/
theorem Written.length_ne_zero {os : List JObject} (h : Written w payload os) :
    payload.length ≠ 0 := by
  intro hzero
  have hopen := h.opens
  rw [List.eq_nil_of_length_eq_zero hzero] at hopen
  exact w.openStream_nil hopen

/-- A method that decodes what a replica has written. -/
theorem decodeReply_written {os : List JObject} (h : Written w payload os) (testsNull : Bool)
    (refused : Invoked J) (decode : Bytes → Except JavaException (Invoked J)) :
    w.decodeReply testsNull refused decode (some payload) =
      match decode payload with
      | .ok v => .ok v
      | .error e => if e.isStream then .ok refused else .error e := by
  simp only [Wire.decodeReply, if_neg h.length_ne_zero, h.opens]
  rfl

/-- The object of a reply is read back from its text. -/
theorem readJSONObject_written {j : JSONObject} (printed : ReadsValue jvm p value (.object j))
    {os : List JObject} (h : Written w payload (.str (jvm.text (.object j)) :: os)) :
    w.readJSONObject p payload = .ok (value (.object j)) := by
  simp only [Wire.readJSONObject, h.readObject_zero (by simp)]
  exact printed.1

/-- What the library returns for a reply of the replicas: `null` for `null`, and else the bytes of its
objects. -/
def Delivered (w : Wire) (jvm : Jvm) : Reply → Content → Prop
  | none, message => message = none
  | some os, message => ∃ payload, message = some payload ∧ Written w payload (os.map (objectOf jvm))

/-- The content of a reply without its signature. -/
def messageOf : Content → Except JavaException Content
  | none => .ok none
  | some reply => (withoutSignature reply).map some

/-- What a correct replica sends is delivered without its signature. -/
theorem delivered_of_sends {sender : ℕ} {reply : Reply} {content : Content}
    (h : Sends w jvm sender reply content) :
    ∃ message, messageOf content = .ok message ∧ Delivered w jvm reply message := by
  cases reply with
  | none =>
    cases h
    exact ⟨none, rfl, rfl⟩
  | some os =>
    obtain ⟨payload, signature, rfl, hlength, -, hwritten⟩ := h
    refine ⟨some payload, ?_, payload, rfl, hwritten⟩
    simp only [messageOf, withoutSignature_append hlength]
    rfl

/-! ### The methods as functions of the objects -/

variable {reply : Reply} {message : Content}

/-- The answer to a registration is the same on both levels. -/
theorem invokeCreateNew_of_value (h : Delivered w jvm reply message) {s : String}
    (hs : ClientRequestHandler.invokeCreateNew reply = .ok s) :
    w.invokeCreateNew message = .ok (.text s : Invoked J) := by
  -- A reply that has a value in the model carries it as the first object of the message.
  rcases reply with _ | _ | ⟨o, os⟩
  · cases h
    cases hs
    rfl
  · cases hs
  · obtain ⟨payload, rfl, hwritten⟩ := h
    cases o with
    | name n =>
      cases n with
      | none => cases hs
      | some n =>
        cases hs
        rw [Wire.invokeCreateNew, decodeReply_written hwritten]
        simp only [hwritten.readObject_zero (o := .str s) (by simp)]
        rfl
    | json j | long v | int v | bid b => cases hs

/-- `readJson` reads the first object of a reply. -/
theorem readJson_eq_ok {os : List ReplyObject} {j : JSONObject}
    (h : ClientRequestHandler.readJson os = .ok j) : ∃ rest, os = .json (.object j) :: rest := by
  unfold ClientRequestHandler.readJson at h
  split at h
  · cases h
    exact ⟨_, rfl⟩
  · cases h

/-- A method that returns the object of the reply. -/
theorem decodeObject_of_value {os : List ReplyObject}
    (printed : ReadsValues jvm p value (some os)) {j : JSONObject} (h : Delivered w jvm (some os) message)
    (hj : ClientRequestHandler.readJson os = .ok j) (testsNull : Bool) :
    w.decodeObject p testsNull message = .ok (.object (value (.object j))) := by
  obtain ⟨payload, rfl, hwritten⟩ := h
  obtain ⟨rest, rfl⟩ := readJson_eq_ok hj
  have hprinted : ReadsValue jvm p value (.object j) := printed _ _ rfl List.mem_cons_self
  rw [Wire.decodeObject, decodeReply_written hwritten, readJSONObject_written hprinted hwritten]
  rfl

/-- The answer to a deposit is the same on both levels. -/
theorem invokeCreateMoney_of_value (printed : ReadsValues jvm p value reply)
    (h : Delivered w jvm reply message) {js : Option JSONObject}
    (hjs : ClientRequestHandler.invokeCreateMoney reply = .ok js) :
    w.invokeCreateMoney p message = .ok (js.elim .null fun j => .object (value (.object j))) := by
  cases reply with
  | none =>
    cases h
    cases hjs
    rfl
  | some os =>
    obtain ⟨j, hj, rfl⟩ := map_eq_ok hjs
    exact decodeObject_of_value printed h hj true

/-- So is the answer to a transfer. -/
theorem invokeTransferMoney_of_value (printed : ReadsValues jvm p value reply)
    (h : Delivered w jvm reply message) {j : JSONObject}
    (hj : ClientRequestHandler.invokeTransferMoney reply = .ok j) :
    w.invokeTransferMoney p message = .ok (.object (value (.object j))) := by
  cases reply with
  | none => cases hj
  | some os => exact decodeObject_of_value printed h hj false

/-- So is a balance. -/
theorem invokeCheckCurrentAmount_of_value (h : Delivered w jvm reply message) {v : JLong}
    (hv : ClientRequestHandler.invokeCheckCurrentAmount reply = .ok v) :
    w.invokeCheckCurrentAmount message = .ok (v.elim .null .amount : Invoked J) := by
  -- Only a number is read as an amount.
  rcases reply with _ | _ | ⟨o, os⟩
  · cases h
    cases hv
    rfl
  · cases hv
  · obtain ⟨payload, rfl, hwritten⟩ := h
    cases o with
    | long v =>
      cases hv
      rw [Wire.invokeCheckCurrentAmount, decodeReply_written hwritten]
      simp only [hwritten.readObject_zero (o := .long v) (by simp)]
      rfl
    | name n | json j | int v | bid b => cases hv

/-- The field `arr` of the object that is returned for the accounts. -/
def arrayOf (value : Json → J) : Option (Option (List JSONObject)) → Invoked J
  | none => .null
  | some none => .unchanged
  | some (some arr) => .list (arr.map fun o => value (.object o))

/-- So is the list of all accounts. -/
theorem invokeListAllBankAccounts_of_value (printed : ReadsValues jvm p value reply) {myHash : Int32}
    (h : Delivered w jvm reply message) {arr : Option (Option (List JSONObject))}
    (harr : ClientRequestHandler.invokeListAllBankAccounts myHash reply = .ok arr) :
    w.invokeList p (.accounts myHash) message = .ok (arrayOf value arr) := by
  rcases reply with _ | _ | ⟨o, os⟩
  · cases h
    cases harr
    rfl
  · cases harr
  · obtain ⟨payload, rfl, hwritten⟩ := h
    cases o with
    | int hash =>
      have hfirst : w.readFirst payload = .ok (.int hash) := hwritten.readFirst (by simp [objectOf])
      rw [Wire.invokeList, Listing.decode_of_readFirst p.toJsonParser _ hfirst]
      simp only [ClientRequestHandler.invokeListAllBankAccounts] at harr
      simp only [Listing.after, accountsAfter]
      split_ifs at harr ⊢ with hsame
      · -- The caller has other accounts.
        split at harr
        · rename_i arr _
          cases harr
          have hprinted : ReadsValue jvm p value (.array arr) := printed _ _ rfl (by simp)
          have hread := hwritten.reads 1
          simp only [List.map_cons, List.getElem?_cons_succ, List.getElem?_cons_zero, objectOf] at hread
          rw [hread]
          simp only [bind, Except.bind, asText]
          rw [hprinted]
          rfl
        · cases harr
      · cases harr
        rfl
    | name n | json j | long v | bid b => cases harr

end Written

end NovaBank.Proxy
