import NovaBank.Proxy.Commands
import NovaBank.Proxy.Reply

/-!
# Replies with a list

The requests whose reply has several objects: a number and then the JSON of the list, in one object
or in one for each element. A handler reads the number, and then as many objects as it says
(`decode_written_iff`). What a replica sends is the list of all of its objects after the number
(`Listing.Sent`), whether the number counts them or not.
-/

namespace NovaBank.Proxy

open Java Replica

/-- The constructors of `org.json` that the handlers use, with values of a type `J`. -/
structure JsonParser (J : Type) where
  /-- `new JSONObject(text)`. -/
  object : String → Except JavaException J
  /-- `new JSONArray(text)`. -/
  array : String → Except JavaException (List J)

/-- What a handler returns: `null`, the empty object for a list that the caller has already, or the
list. -/
inductive Decoded (J : Type) where
  | null
  | unchanged
  | list (l : List J)
  deriving DecidableEq

/-! ## The handlers -/

/-- `(int) o`. -/
def asInt : JObject → Except JavaException Int32
  | .null => .error .nullPointer
  | .int v => .ok v
  | _ => .error .classCast

/-- `(String) o`, where `null` fails when it is parsed. -/
def asText : JObject → Except JavaException String
  | .null => .error .nullPointer
  | .str s => .ok s
  | _ => .error .classCast

/-- `o.toString()`. -/
def textOf : JObject → Except JavaException String
  | .null => .error .nullPointer
  | o => .ok o.toText

section Handlers

variable {J : Type} (w : Wire) (p : JsonParser J)

/-- The accounts after their hash. -/
def accountsAfter (myHash hash : Int32) (reply : Bytes) : Except JavaException (Decoded J) := do
  if hash ≠ myHash then
    let text ← asText (← w.readObject reply 1)
    return .list (← p.array text)
  -- The caller has these accounts already.
  else return .unchanged

/-- The elements of a list after their number. -/
def elementsAfter (number : Int32) (reply : Bytes) : Except JavaException (Decoded J) := do
  let elements ← (List.range number.toNatClampNeg).mapM fun k => do
    let text ← textOf (← w.readObject reply (k + 1))
    p.object text
  return .list elements

/-- The end of every handler: `null` after an exception of the stream. -/
def orNull (decoded : Except JavaException (Decoded J)) : Except JavaException (Decoded J) :=
  match decoded with
  | .ok d => .ok d
  | .error e => if e.isStream then .ok .null else .error e

/-- The decoding of a reply that begins with a number, where an empty reply leads to `null`. -/
def decodeNumbered (after : Int32 → Bytes → Except JavaException (Decoded J)) (requestReply : Bytes) :
    Except JavaException (Decoded J) :=
  if requestReply.length = 0 then .ok .null
  else orNull do
    w.openStream requestReply
    let number ← asInt (← w.readObject requestReply 0)
    after number requestReply

/-- `invokeListAllBankAccounts(myHash)`. -/
def invokeListAllBankAccounts (myHash : Int32) : Bytes → Except JavaException (Decoded J) :=
  decodeNumbered w (accountsAfter w p myHash)

/-- `invokeListAllCurrentOpenedAuctions()`. -/
def invokeListAllCurrentOpenedAuctions : Bytes → Except JavaException (Decoded J) :=
  decodeNumbered w (elementsAfter w p)

/-- `invokeListAllCurrentClosedAuctions()`. -/
def invokeListAllCurrentClosedAuctions : Bytes → Except JavaException (Decoded J) :=
  decodeNumbered w (elementsAfter w p)

/-- `invokeListAllBidsFromAuction(auctionID)`. -/
def invokeListAllBidsFromAuction : Bytes → Except JavaException (Decoded J) :=
  decodeNumbered w (elementsAfter w p)

/-- `invokeListAllBidsFromUser(who)`. -/
def invokeListAllBidsFromUser : Bytes → Except JavaException (Decoded J) :=
  decodeNumbered w (elementsAfter w p)

end Handlers

/-- A loop that reads some elements of a list: it ends with the first one that cannot be read, or past
the end of the list. -/
theorem mapM_range {α β : Type} {f : ℕ → Except JavaException β} {l : List α}
    {g : α → Except JavaException β} {e : JavaException}
    (hf : ∀ k, f k = (l[k]?).elim (.error e) g) (n : ℕ) :
    (List.range n).mapM f = if n ≤ l.length then (l.take n).mapM g else l.mapM g >>= fun _ => .error e := by
  induction n with
  | zero => rfl
  | succ n ih =>
    rw [List.range_succ, List.mapM_append, ih]
    by_cases hn : n + 1 ≤ l.length
    · have hget : l[n]? = some l[n] := List.getElem?_eq_getElem (by omega)
      have htake : l.take (n + 1) = l.take n ++ [l[n]] := by
        rw [List.take_add_one, hget]
        rfl
      have hlast : f n = g l[n] := by rw [hf, hget, Option.elim_some]
      rw [if_pos (by omega), if_pos hn, htake, List.mapM_append]
      simp only [List.mapM_cons, List.mapM_nil, hlast]
    · rw [if_neg hn]
      by_cases hn' : n ≤ l.length
      · -- The loop has read the whole list and goes on.
        have hget : l[n]? = none := List.getElem?_eq_none (by omega)
        have hend : f n = .error e := by rw [hf, hget, Option.elim_none]
        rw [if_pos hn', List.take_of_length_le (by omega)]
        simp only [List.mapM_cons, hend]
        cases l.mapM g <;> rfl
      · rw [if_neg hn']
        cases l.mapM g <;> rfl

/-! ## The requests -/

/-- A request for a list. -/
inductive Listing where
  /-- `LIST_ALL_BANK_ACCOUNTS`, with the hash of the accounts that the caller has. -/
  | accounts (myHash : Int32)
  /-- `LIST_ALL_CURRENT_OPENED_AUCTIONS`. -/
  | openedAuctions
  /-- `LIST_ALL_CURRENT_CLOSED_AUCTIONS`. -/
  | closedAuctions
  /-- `LIST_ALL_BIDS_FROM_AUCTION`. -/
  | bidsFromAuction (auctionID : JLong)
  /-- `LIST_ALL_BIDS_FROM_USER`. -/
  | bidsFromUser (who : JString)

namespace Listing

/-- The request as a replica reads it. -/
def query : Listing → Query
  | accounts _ => .listAllBankAccounts
  | openedAuctions => .listAllCurrentOpenedAuctions
  | closedAuctions => .listAllCurrentClosedAuctions
  | bidsFromAuction auctionID => .listAllBidsFromAuction auctionID
  | bidsFromUser who => .listAllBidsFromUser who

section Decode

variable {J : Type} (w : Wire) (p : JsonParser J)

/-- The handler of the request. -/
def decode : Listing → Bytes → Except JavaException (Decoded J)
  | accounts myHash => invokeListAllBankAccounts w p myHash
  | openedAuctions => invokeListAllCurrentOpenedAuctions w p
  | closedAuctions => invokeListAllCurrentClosedAuctions w p
  | bidsFromAuction _ => invokeListAllBidsFromAuction w p
  | bidsFromUser _ => invokeListAllBidsFromUser w p

/-- What the handler decodes from a reply after its number. -/
def after : Listing → Int32 → Bytes → Except JavaException (Decoded J)
  | accounts myHash => accountsAfter w p myHash
  | _ => elementsAfter w p

/-- The list in a reply of a replica: all of the objects after the number. -/
def Sent (jvm : Jvm) (l : Listing) (reply : Reply) (list : List J) : Prop :=
  ∃ number xs, reply = some (number :: xs) ∧
    match l with
    | accounts _ => ∃ x, xs = [x] ∧ p.array (objectOf jvm x).toText = .ok list
    | _ => (xs.mapM fun x => p.object (objectOf jvm x).toText) = .ok list

/-- All listings begin with a number, and differ in what they read after it. -/
theorem decode_eq (l : Listing) (reply : Bytes) :
    l.decode w p reply = decodeNumbered w (l.after w p) reply := by
  cases l <;> rfl

end Decode

/-- The handler goes on after the number. -/
theorem decode_of_readFirst {J : Type} {w : Wire} (p : JsonParser J) (l : Listing) {reply : Bytes}
    {number : Int32} (h : w.readFirst reply = .ok (.int number)) :
    l.decode w p reply = orNull (l.after w p number reply) := by
  obtain ⟨_, hopen, hread⟩ := bind_eq_ok h
  -- A reply that begins with a number is not the empty one.
  have hne : reply.length ≠ 0 := by
    intro e
    rw [List.eq_nil_of_length_eq_zero e] at hopen
    exact w.openStream_nil hopen
  rw [decode_eq, decodeNumbered, if_neg hne]
  simp only [hopen, hread]
  rfl

/-- The handler returns the list after the number. -/
theorem decode_eq_list_iff {J : Type} {w : Wire} {p : JsonParser J} {l : Listing} {reply : Bytes}
    {number : Int32} {list : List J} (h : w.readFirst reply = .ok (.int number)) :
    l.decode w p reply = .ok (.list list) ↔ l.after w p number reply = .ok (.list list) := by
  rw [decode_of_readFirst p l h]
  cases l.after w p number reply with
  | ok d => rfl
  | error e =>
    simp only [orNull]
    split_ifs <;> simp

/-- The reply of a replica is `null`, or a number and JSON values after it; to the accounts there is one
value. -/
theorem numbered_reply {jvm : Jvm} {l : Listing} {command : Command}
    (hcommand : decodeUnordered command = .ok l.query) {st : BankService} {os : List ReplyObject}
    (h : (st.access jvm (.unordered command)).1 = .ok (some os)) :
    ∃ (number : Int32) (js : List Json), os = .int number :: js.map ReplyObject.json ∧
      ∀ myHash, l = .accounts myHash → js.length = 1 := by
  have hanswer : BankService.answer jvm st.bankRepo l.query = .ok (some os) := by
    simp only [BankService.access, BankService.appExecuteUnordered, BankService.query, hcommand,
      BankService.finish] at h
    split at h
    · rename_i reply hreply
      cases h
      exact hreply
    · split at h <;> cases h
  have hjson : ∀ {α : Type} (f : α → Json) (l : List α),
      l.map (fun a => ReplyObject.json (f a)) = (l.map f).map ReplyObject.json := by
    intro α f l
    rw [List.map_map]
    rfl
  -- Each listing begins with a number; that of all accounts has one array behind it.
  cases l with
  | accounts myHash =>
    cases hanswer
    exact ⟨_, [_], rfl, fun _ _ => rfl⟩
  | openedAuctions | closedAuctions =>
    cases hanswer
    rw [hjson]
    exact ⟨_, _, rfl, by simp⟩
  | bidsFromAuction auctionID | bidsFromUser who =>
    simp only [query, BankService.answer] at hanswer
    split at hanswer
    · cases hanswer
      rw [hjson]
      exact ⟨_, _, rfl, by simp⟩
    · cases hanswer

/-- How many objects the handler reads after the number: none if the accounts are those that the caller
has, and else their array; and as many elements as the number says. -/
def reads : Listing → Int32 → ℕ
  | accounts myHash, hash => if hash = myHash then 0 else 1
  | _, number => number.toNatClampNeg

/-- The number is too small for the elements, so that the handler does not read all of them. -/
def Cuts : Listing → Int32 → List String → Prop
  | accounts _, _, _ => False
  | _, number, texts => number.toNatClampNeg < texts.length

/-- The list that is made of texts, which are those of the elements or the one of an array. -/
def values {J : Type} (p : JsonParser J) : Listing → List String → Except JavaException (List J)
  | accounts _, texts =>
    match texts with
    | [text] => p.array text
    | _ => .error .other
  | _, texts => texts.mapM p.object

section Texts

variable {J : Type} {w : Wire} {p : JsonParser J} {jvm : Jvm} {l : Listing} {number : Int32}
  {texts : List String} {list : List J}

/-- What a replica has sent is the list of the texts of its values. -/
theorem sent_iff {js : List Json} (one : ∀ myHash, l = .accounts myHash → js.length = 1) :
    l.Sent p jvm (some (.int number :: js.map ReplyObject.json)) list ↔
      l.values p (js.map jvm.text) = .ok list := by
  have hparts : ∀ {number' : ReplyObject} {xs : List ReplyObject},
      (some (.int number :: js.map ReplyObject.json) : Reply) = some (number' :: xs) ↔
        number' = .int number ∧ xs = js.map ReplyObject.json := by
    intro number' xs
    rw [Option.some.injEq, List.cons.injEq, eq_comm, @eq_comm _ xs]
  -- The texts of the objects are those of the values.
  have hmap : ∀ js : List Json, ((js.map ReplyObject.json).mapM fun x =>
      p.object (objectOf jvm x).toText) = (js.map jvm.text).mapM p.object := by
    intro js
    induction js with
    | nil => rfl
    | cons j js ih =>
      rw [List.map_cons, List.mapM_cons, ih, List.map_cons, List.mapM_cons]
      rfl
  cases l with
  | accounts myHash =>
    obtain ⟨j, rfl⟩ := List.length_eq_one_iff.mp (one myHash rfl)
    simp only [Sent, hparts]
    constructor
    · rintro ⟨_, _, ⟨rfl, rfl⟩, x, hx, hlist⟩
      cases hx
      exact hlist
    · intro hlist
      exact ⟨_, _, ⟨rfl, rfl⟩, _, rfl, hlist⟩
  | openedAuctions | closedAuctions | bidsFromAuction auctionID | bidsFromUser who =>
    simp only [Sent, hparts]
    constructor
    · rintro ⟨_, _, ⟨rfl, rfl⟩, hlist⟩
      rwa [hmap] at hlist
    · intro hlist
      exact ⟨_, _, ⟨rfl, rfl⟩, by rwa [hmap]⟩

/-- The object after the number and `k` others. -/
theorem readObject_text {payload : Bytes} (h : Written w payload (.int number :: texts.map JObject.str))
    (k : ℕ) : w.readObject payload (k + 1) =
      (texts[k]?).elim (.error .io) fun text => .ok (.str text) := by
  rw [h.reads (k + 1), List.getElem?_cons_succ, List.getElem?_map]
  cases texts[k]? <;> rfl

/-- The elements after their number, when all of them are texts. -/
theorem elementsAfter_iff {payload : Bytes}
    (h : Written w payload (.int number :: texts.map JObject.str)) :
    elementsAfter w p number payload = .ok (.list list) ↔
      number.toNatClampNeg ≤ texts.length ∧
        (texts.take number.toNatClampNeg).mapM p.object = .ok list := by
  have helement : ∀ k, (do
      let text ← textOf (← w.readObject payload (k + 1))
      p.object text) = (texts[k]?).elim (.error .io) p.object := by
    intro k
    rw [readObject_text h k]
    cases texts[k]? <;> rfl
  rw [elementsAfter, mapM_range helement]
  -- The loop of the client ends at the number, or at the end of the message with an exception.
  by_cases hle : number.toNatClampNeg ≤ texts.length
  · rw [if_pos hle]
    cases (texts.take number.toNatClampNeg).mapM p.object <;>
      simp [hle, bind, Except.bind, pure, Except.pure]
  · rw [if_neg hle]
    cases texts.mapM p.object <;> simp [hle, bind, Except.bind]

/-- The accounts after their hash, when there is one text. -/
theorem accountsAfter_iff {payload : Bytes} {myHash : Int32} {text : String}
    (h : Written w payload (.int number :: [text].map JObject.str)) :
    accountsAfter w p myHash number payload = .ok (.list list) ↔
      number ≠ myHash ∧ p.array text = .ok list := by
  rw [accountsAfter, readObject_text h 0]
  by_cases hhash : number = myHash
  · simp [hhash, pure, Except.pure]
  · rw [if_pos hhash]
    dsimp only [List.getElem?_cons_zero, Option.elim_some, bind, Except.bind, asText]
    cases p.array text <;> simp [hhash, pure, Except.pure]

/-- What the handler makes of a number and texts after it: the list of as many texts as it reads, if
there are so many. -/
theorem decode_written_iff {payload : Bytes}
    (h : Written w payload (.int number :: texts.map JObject.str))
    (one : ∀ myHash, l = .accounts myHash → texts.length = 1) :
    l.decode w p payload = .ok (.list list) ↔
      l.reads number ≤ texts.length ∧ (∀ myHash, l = .accounts myHash → number ≠ myHash) ∧
        l.values p (texts.take (l.reads number)) = .ok list := by
  rw [decode_eq_list_iff (h.readFirst (by simp))]
  cases l with
  | accounts myHash =>
    obtain ⟨text, rfl⟩ := List.length_eq_one_iff.mp (one myHash rfl)
    refine (accountsAfter_iff h).trans ?_
    -- The array is only read when the hash is another one.
    by_cases hhash : number = myHash
    · simp [hhash]
    · simp [hhash, reads, values]
  | openedAuctions | closedAuctions | bidsFromAuction auctionID | bidsFromUser who =>
    refine (elementsAfter_iff h).trans ?_
    simp [reads, values]

end Texts

end Listing

/-! ## Texts of a concrete run -/

/-- Every text is its own JSON value. -/
def textParser : JsonParser String := ⟨.ok, fun s => .ok [s]⟩

/-- The text of the opened auction that the replicas list. -/
def auctionText : String :=
  "\x7b\"ownerUsername\":\"alice\",\"bids\":\x7b\x7d,\"id\":1,\"isClosed\":false\x7d"

/-- A machine that prints that text. -/
def auctionJvm : Jvm :=
  { Jvm.plain (ContractClass.queueing []) with text := fun _ => auctionText }

end NovaBank.Proxy
