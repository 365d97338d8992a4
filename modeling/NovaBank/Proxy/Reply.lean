import Mathlib.Data.Fintype.Card
import NovaBank.Common.Quorum
import NovaBank.Replica.Service

/-!
# Replies at the proxy

The comparator and the extractor that `ClientRequestHandler` of
`csd/src/main/java/fct/unl/pt/csd/Controller/ClientRequestHandler.java` gives to the `ServiceProxy`
of the library, and the bytes that a replica sends. A reply is the stream of its objects followed by
a signature of 128 bytes.

`Wire` is what the proxy uses of the Java library on bytes. How an `ObjectInputStream` reads bytes
that no correct replica has written is left open, so that a faulty replica can make it return or
throw anything. `Written` is the documented behaviour on the bytes that an `ObjectOutputStream` has
written.
-/

namespace NovaBank.Proxy

open Java Replica

/-- A Java `byte[]`. -/
abbrev Bytes := List UInt8

/-- The content of a message, `none` for `null`. -/
abbrev Content := Option Bytes

/-- What the proxy uses of the Java library on bytes. -/
structure Wire where
  /-- `new ObjectInputStream(...)` on some bytes. -/
  openStream : Bytes → Except JavaException Unit
  /-- There is no stream without its header. -/
  openStream_nil : openStream [] ≠ .ok ()
  /-- The call number `k` of `readObject()` on the stream, after `k` calls that returned. -/
  readObject : Bytes → ℕ → Except JavaException JObject
  /-- Whether the signature of a content verifies under the key of a replica. An exception of the
  verification is caught by the caller and counts as `false`. -/
  verify : ℕ → Bytes → Bytes → Bool

/-- The length of a signature. -/
def signatureLength : ℕ := 128

/-- The content of a reply without its signature: `new byte[reply.length - 128]`, filled. -/
def withoutSignature (reply : Bytes) : Except JavaException Bytes :=
  if reply.length < signatureLength then .error .negativeArraySize
  else .ok (reply.take (reply.length - signatureLength))

/-- The signature of a reply. -/
def signatureOf (reply : Bytes) : Bytes := reply.drop (reply.length - signatureLength)

/-- `s1.equals(s2)`. Arrays and bids are compared by identity, and two objects that were read are
never the same. -/
def equals (s1 s2 : JObject) : Except JavaException Bool :=
  match s1 with
  | .null => .error .nullPointer
  | .strings _ | .bid _ => .ok false
  | _ => .ok (s1 = s2)

namespace Wire

variable (w : Wire)

/-- The first objects of two streams, both opened before either is read. -/
def readFirsts (a b : Bytes) : Except JavaException (JObject × JObject) := do
  w.openStream a
  w.openStream b
  let s1 ← w.readObject a 0
  let s2 ← w.readObject b 0
  return (s1, s2)

/-- The first object of a stream. -/
def readFirst (a : Bytes) : Except JavaException JObject := do
  w.openStream a
  w.readObject a 0

/-- `replyComparator.compare(o1, o2)`. -/
def compare (o1 o2 : Content) : Except JavaException ℕ :=
  match o1, o2 with
  | some o1, some o2 => do
    let o1Content ← withoutSignature o1
    let o2Content ← withoutSignature o2
    match w.readFirsts o1Content o2Content with
    | .ok (s1, s2) => return if ← equals s1 s2 then 0 else 1
    -- Streams that cannot be read are compared byte by byte.
    | .error e => if e.isStream then return if o1Content = o2Content then 0 else 1 else throw e
  | _, _ => .ok (if o1 = o2 then 0 else 1)

/-- Whether the extractor counts the reply of the replica `sender` as valid. Every exception on the
way is caught and the reply is not counted. -/
def isReplyValid (sender : ℕ) (reply : Content) : Bool :=
  match reply with
  | none => false
  | some reply =>
    match withoutSignature reply with
    | .error _ => false
    | .ok content => w.verify sender content (signatureOf reply)

section Replies

variable {n : ℕ}

/-- The replicas whose replies are counted as valid. -/
def validReplies (replies : Fin n → Option Content) : Finset (Fin n) :=
  Finset.univ.filter fun i => (replies i).any fun reply => w.isReplyValid i reply

/-- `replyExtractor.extractResponse(replies, sameContent, lastReceived)` with the bound `f` of the
current view: the content of the message that it returns, `none` for `null`. The other fields of
that message are those of the last reply. -/
def extractResponse (f : ℕ) (replies : Fin n → Option Content) (lastReceived : Fin n) :
    Except JavaException (Option Bytes) :=
  if f * 2 + 1 ≤ (w.validReplies replies).card then
    -- The last reply is taken as it is, whether its signature was counted or not.
    match replies lastReceived with
    | none => .error .nullPointer
    | some none => .error .nullPointer
    | some (some lastReply) => (withoutSignature lastReply).map some
  else .ok none

/-- Whether the reply of a replica has been received and compares equal to the last received one. -/
def isMatching (replies : Fin n → Option Content) (lastReceived i : Fin n) : Bool :=
  match replies i, replies lastReceived with
  | some reply, some lastReply => i = lastReceived ∨ w.compare reply lastReply = .ok 0
  | _, _ => false

/-- The replicas whose replies compare equal to the last received one, which is among them. -/
def matching (replies : Fin n → Option Content) (lastReceived : Fin n) : Finset (Fin n) :=
  Finset.univ.filter fun i => w.isMatching replies lastReceived i

end Replies

/-! ## What the comparator looks at -/

variable {w}

/-- Two contents are alike when they are the same, or begin with the same object. -/
def Alike (w : Wire) (x y : Bytes) : Prop :=
  x = y ∨ ∃ s, w.readFirst x = .ok s ∧ w.readFirst y = .ok s

/-- Whether two payloads are alike can be evaluated. -/
instance (w : Wire) (x y : Bytes) : Decidable (w.Alike x y) :=
  decidable_of_iff (x = y ∨ (w.readFirst x).isOk ∧ w.readFirst x = w.readFirst y) (by
    unfold Alike
    cases w.readFirst x <;> cases w.readFirst y <;> simp [Except.isOk, Except.toBool, eq_comm])

/-- Being alike does not depend on the order. -/
theorem Alike.symm {x y : Bytes} (h : w.Alike x y) : w.Alike y x := by
  rcases h with rfl | ⟨s, hx, hy⟩
  · exact .inl rfl
  · exact .inr ⟨s, hy, hx⟩

/-- Payloads that are alike to one are alike to each other. -/
theorem Alike.trans {x y z : Bytes} (hxy : w.Alike x y) (hyz : w.Alike y z) : w.Alike x z := by
  rcases hxy with rfl | ⟨s, hx, hy⟩
  · exact hyz
  · rcases hyz with rfl | ⟨t, hy', hz⟩
    · exact .inr ⟨s, hx, hy⟩
    · rw [hy] at hy'
      cases hy'
      exact .inr ⟨s, hx, hz⟩

/-- The first objects of two payloads are read one after the other. -/
theorem readFirsts_eq_ok_iff {x y : Bytes} {s t : JObject} :
    w.readFirsts x y = .ok (s, t) ↔ w.readFirst x = .ok s ∧ w.readFirst y = .ok t := by
  unfold readFirsts readFirst
  cases w.openStream x with
  | error e => simp [bind, Except.bind]
  | ok _ =>
    cases w.openStream y with
    | error e => simp [bind, Except.bind]
    | ok _ =>
      cases w.readObject x 0 with
      | error e => simp [bind, Except.bind]
      | ok s' => cases w.readObject y 0 <;> simp [bind, Except.bind, pure, Except.pure]

/-- The comparison of two contents that are not `null` and long enough. -/
theorem compare_some {a b x y : Bytes} (hx : withoutSignature a = .ok x)
    (hy : withoutSignature b = .ok y) :
    w.compare (some a) (some b) =
      match w.readFirsts x y with
      | .ok (s1, s2) => (equals s1 s2).map fun same => if same then 0 else 1
      | .error e => if e.isStream then .ok (if x = y then 0 else 1) else .error e := by
  simp only [compare, hx, hy]
  rfl

/-- Objects that are equal are the same. -/
theorem eq_of_equals {s t : JObject} (h : equals s t = .ok true) : s = t := by
  unfold equals at h
  split at h <;> simp_all

/-- Replies that compare equal are both `null`, or long enough with contents that are alike. -/
theorem alike_of_compare {o1 o2 : Content} (h : w.compare o1 o2 = .ok 0) :
    (o1 = none ∧ o2 = none) ∨ ∃ a b x y, o1 = some a ∧ o2 = some b ∧
      withoutSignature a = .ok x ∧ withoutSignature b = .ok y ∧ w.Alike x y := by
  cases o1 with
  | none => cases o2 <;> simp_all [compare]
  | some a =>
    cases o2 with
    | none => simp [compare] at h
    | some b =>
      right
      obtain ⟨x, hx, h'⟩ := bind_eq_ok h
      obtain ⟨y, hy, -⟩ := bind_eq_ok h'
      refine ⟨a, b, x, y, rfl, rfl, hx, hy, ?_⟩
      rw [compare_some hx hy] at h
      split at h
      · -- Both streams were read: their first objects are equal.
        rename_i s1 s2 hread
        cases he : equals s1 s2 with
        | error e => simp [he, Except.map] at h
        | ok same =>
          cases same with
          | false => simp [he, Except.map] at h
          | true =>
            obtain rfl := eq_of_equals he
            exact .inr ⟨s1, readFirsts_eq_ok_iff.mp hread⟩
      · -- A stream could not be read: the contents are the same.
        split at h
        · left
          by_contra hne
          simp [hne] at h
        · cases h

section Replies

variable {n f : ℕ} {replies : Fin n → Option Content} {lastReceived : Fin n} {message : Bytes}

/-- A message that the extractor returns is the content of the last reply, and there were enough
valid replies. -/
theorem extractResponse_eq_some_iff :
    w.extractResponse f replies lastReceived = .ok (some message) ↔
      2 * f + 1 ≤ (w.validReplies replies).card ∧
        ∃ b, replies lastReceived = some (some b) ∧ withoutSignature b = .ok message := by
  unfold extractResponse
  rw [Nat.mul_comm f 2]
  -- The number of valid replies is all that decides; the message is that of the last one.
  split_ifs with h
  · simp only [h, true_and]
    cases hlast : replies lastReceived with
    | none => simp
    | some reply =>
      cases reply with
      | none => simp
      | some b =>
        cases hb : withoutSignature b <;> simp [hb, Except.map]
  · simp [h]

/-- A matching reply is long enough, and its content is like that of the last reply. -/
theorem alike_of_matching {i : Fin n} {b : Bytes} (hi : i ∈ w.matching replies lastReceived)
    (hlast : replies lastReceived = some (some b)) (hmessage : withoutSignature b = .ok message) :
    ∃ a x, replies i = some (some a) ∧ withoutSignature a = .ok x ∧ w.Alike x message := by
  have hmatch : w.isMatching replies lastReceived i = true := (Finset.mem_filter.mp hi).2
  simp only [isMatching, hlast] at hmatch
  cases hreply : replies i with
  | none => simp [hreply] at hmatch
  | some reply =>
    simp only [hreply, decide_eq_true_eq] at hmatch
    -- The last reply is equal to itself without a comparison.
    rcases hmatch with rfl | hcompare
    · rw [hlast] at hreply
      cases hreply
      exact ⟨b, message, rfl, hmessage, .inl rfl⟩
    · rcases alike_of_compare hcompare with ⟨-, hnull⟩ | ⟨a, b', x, y, ha, hb, hx, hy, halike⟩
      · cases hnull
      · cases hb
        obtain rfl : y = message := Except.ok.inj (hy.symm.trans hmessage)
        exact ⟨a, x, by rw [ha], hx, halike⟩

end Replies

end Wire

/-! ## What a correct replica sends -/

/-- An object of a reply as the proxy can read it. A JSON value is written as its text. -/
def objectOf (jvm : Jvm) : ReplyObject → JObject
  | .name none => .null
  | .name (some s) => .str s
  | .json j => .str (jvm.text j)
  | .long v => .long v
  | .int v => .int v
  | .bid none => .null
  | .bid (some b) => .bid b

/-- The bytes are what an `ObjectOutputStream` writes for the objects: they are read back in order,
and then the stream ends. The class of a bid of a replica does not exist at the proxy. -/
structure Written (w : Wire) (payload : Bytes) (os : List JObject) : Prop where
  opens : w.openStream payload = .ok ()
  reads : ∀ k, w.readObject payload k =
    match os[k]? with
    | none => .error .io
    | some (.bid _) => .error .classNotFound
    | some o => .ok o

/-- What the correct replica `sender` sends for a reply: `null` for `null`, and else the stream of
its objects with its signature. -/
def Sends (w : Wire) (jvm : Jvm) (sender : ℕ) (reply : Reply) (content : Content) : Prop :=
  match reply with
  | none => content = none
  | some os => ∃ payload signature, content = some (payload ++ signature) ∧
      signature.length = signatureLength ∧ w.verify sender payload signature = true ∧
      Written w payload (os.map (objectOf jvm))

/-- Where the signature of a framed payload begins. -/
theorem length_append_sub {payload signature : Bytes} (h : signature.length = signatureLength) :
    (payload ++ signature).length - signatureLength = payload.length := by
  rw [List.length_append, h, Nat.add_sub_cancel]

/-- The content of a framed payload is the payload. -/
theorem withoutSignature_append {payload signature : Bytes}
    (h : signature.length = signatureLength) :
    withoutSignature (payload ++ signature) = .ok payload := by
  have hlong : ¬ (payload ++ signature).length < signatureLength := by
    rw [List.length_append, h]
    omega
  rw [withoutSignature, if_neg hlong, length_append_sub h, List.take_left]

/-- The signature of a framed payload. -/
theorem signatureOf_append {payload signature : Bytes}
    (h : signature.length = signatureLength) : signatureOf (payload ++ signature) = signature := by
  rw [signatureOf, length_append_sub h, List.drop_left]

/-- The first object of a stream that a correct replica has written, unless it is a bid. -/
theorem Written.readObject_zero {w : Wire} {payload : Bytes} {o : JObject} {os : List JObject}
    (h : Written w payload (o :: os)) (ho : ∀ b, o ≠ .bid b) : w.readObject payload 0 = .ok o := by
  have hread := h.reads 0
  simp only [List.getElem?_cons_zero] at hread
  exact hread

/-- The first object of a written payload is the one that was written first. -/
theorem Written.readFirst {w : Wire} {payload : Bytes} {o : JObject} {os : List JObject}
    (h : Written w payload (o :: os)) (ho : ∀ b, o ≠ .bid b) : w.readFirst payload = .ok o := by
  simp only [Wire.readFirst, h.opens]
  exact h.readObject_zero ho

/-- A matching reply that a correct replica has sent for some objects begins with the first object
of the message, unless that is a bid. -/
theorem readFirst_of_sends {w : Wire} {jvm : Jvm} {sender : ℕ} {x : ReplyObject}
    {os : List ReplyObject} {a content message : Bytes}
    (hsends : Sends w jvm sender (some (x :: os)) (some a)) (hx : ∀ b, x ≠ .bid b)
    (hcontent : withoutSignature a = .ok content) (halike : w.Alike content message) :
    w.readFirst message = .ok (objectOf jvm x) := by
  obtain ⟨payload, signature, ha, hlen, -, hwritten⟩ := hsends
  cases ha
  rw [withoutSignature_append hlen] at hcontent
  cases hcontent
  have hno : ∀ b, objectOf jvm x ≠ .bid b := by
    intro b
    unfold objectOf
    split <;> simp_all
  have hfirst := hwritten.readFirst hno
  -- Either the whole messages are equal, or their first objects are.
  rcases halike with rfl | ⟨s, hs, ht⟩
  · exact hfirst
  · rw [ht, ← hfirst, hs]

/-- A correct replica with a matching reply has sent the first object of the message, when its
answers begin with an object that is not a bid. -/
theorem sent_of_matching {w : Wire} {jvm : Jvm} {n : ℕ} {byzantine : Finset (Fin n)}
    {answer : Fin n → Except JavaException Reply} {replies : Fin n → Option Content}
    (correct : ∀ i ∉ byzantine, ∀ content, replies i = some content →
      ∃ reply, answer i = .ok reply ∧ Sends w jvm i reply content)
    {lastReceived i : Fin n} {last message : Bytes} (hi : i ∈ w.matching replies lastReceived)
    (hic : i ∉ byzantine) (hlast : replies lastReceived = some (some last))
    (hmessage : withoutSignature last = .ok message)
    (begins : ∀ os, answer i = .ok (some os) → ∃ x xs, os = x :: xs ∧ ∀ b, x ≠ .bid b) :
    (replies i).isSome ∧ ∃ x xs, answer i = .ok (some (x :: xs)) ∧
      w.readFirst message = .ok (objectOf jvm x) := by
  obtain ⟨a, content, ha, hcontent, halike⟩ := Wire.alike_of_matching hi hlast hmessage
  obtain ⟨reply, hreply, hsends⟩ := correct i hic _ ha
  cases reply with
  | none =>
    -- A correct `null` is not a content, and so it matches no message.
    cases hsends
  | some os =>
    obtain ⟨x, xs, rfl, hx⟩ := begins os hreply
    exact ⟨by simp [ha], x, xs, hreply, readFirst_of_sends hsends hx hcontent halike⟩

/-! ## Streams of strings and a number

The part of the serialization format that the replies of concrete runs need, on which these are
evaluated. -/

/-- The magic number and the version of a stream. -/
def streamHeader : Bytes := [0xAC, 0xED, 0, 5]

/-- An object of the class `java.lang.Integer` up to its value, as the first object of a stream. -/
def integerDescriptor : Bytes :=
  [0x73, 0x72, 0, 0x11, 0x6A, 0x61, 0x76, 0x61, 0x2E, 0x6C, 0x61, 0x6E, 0x67, 0x2E, 0x49, 0x6E, 0x74,
    0x65, 0x67, 0x65, 0x72, 0x12, 0xE2, 0xA0, 0xA4, 0xF7, 0x81, 0x87, 0x38, 2, 0, 1, 0x49, 0, 5, 0x76,
    0x61, 0x6C, 0x75, 0x65, 0x78, 0x72, 0, 0x10, 0x6A, 0x61, 0x76, 0x61, 0x2E, 0x6C, 0x61, 0x6E, 0x67,
    0x2E, 0x4E, 0x75, 0x6D, 0x62, 0x65, 0x72, 0x86, 0xAC, 0x95, 0x1D, 0x0B, 0x94, 0xE0, 0x8B, 2, 0, 0,
    0x78, 0x70]

/-- The bytes of a number. -/
def integerBytes (v : ℕ) : Bytes := integerDescriptor ++ toBytes 4 v

/-- The bytes of a string of ASCII characters. -/
def stringBytes (s : String) : Bytes :=
  0x74 :: toBytes 2 s.toList.length ++ s.toList.map fun c => UInt8.ofNat c.toNat

/-- The next object of a stream: `null`, a string or the number. -/
def nextObject (bytes : Bytes) : Option (JObject × Bytes) :=
  match bytes with
  | 0x70 :: rest => some (.null, rest)
  | 0x74 :: high :: low :: rest =>
    let length := ofBytes [high, low]
    if rest.length < length then none
    else some (.str (String.ofList ((rest.take length).map fun c => Char.ofNat c.toNat)),
      rest.drop length)
  | _ =>
    let value := (bytes.drop integerDescriptor.length).take 4
    if integerDescriptor.isPrefixOf bytes && value.length = 4 then
      some (.int (Int32.ofNat (ofBytes value)), bytes.drop (integerDescriptor.length + 4))
    else none

/-- The object number `k` of a stream. -/
def nthObject : ℕ → Bytes → Except JavaException JObject
  | 0, bytes =>
    match nextObject bytes with
    | none => .error .io
    | some (o, _) => .ok o
  | k + 1, bytes =>
    match nextObject bytes with
    | none => .error .io
    | some (_, rest) => nthObject k rest

/-- All objects of a stream, at most as many as the fuel. -/
def allObjects : ℕ → Bytes → Option (List JObject)
  | _, [] => some []
  | 0, _ => none
  | fuel + 1, bytes =>
    match nextObject bytes with
    | none => none
    | some (o, rest) => (allObjects fuel rest).map (o :: ·)

/-- A wire that reads such streams. A signature repeats the number of its sender. -/
def javaWire : Wire where
  openStream bytes := if streamHeader.isPrefixOf bytes then .ok () else .error .io
  openStream_nil := by decide
  readObject bytes k := nthObject k (bytes.drop streamHeader.length)
  verify sender _ signature := signature = List.replicate signatureLength (UInt8.ofNat sender)

/-- A payload with the signature of its sender. -/
def signed (sender : ℕ) (payload : Bytes) : Bytes :=
  payload ++ List.replicate signatureLength (UInt8.ofNat sender)

/-- The contents of four replicas: the replica 3 sends anything, and the others sign one payload. -/
def contentWith (payload : Bytes) (other : Content) (i : Fin 4) : Content :=
  if i = 3 then other else some (signed i payload)

/-- A correct replica sends the payload with its signature. -/
theorem contentWith_of_correct (payload : Bytes) (other : Content) {i : Fin 4}
    (hi : i ∉ ({3} : Finset (Fin 4))) : contentWith payload other i = some (signed i payload) :=
  if_neg (by simpa using hi)

/-- No object that is read from bytes is a bid. -/
theorem nextObject_not_bid {bytes rest : Bytes} {o : JObject} (h : nextObject bytes = some (o, rest))
    (b : BidEntity) : o ≠ .bid b := by
  unfold nextObject at h
  -- `null`, strings and integers are all that the reader knows.
  split at h
  · cases h
    simp
  · dsimp only at h
    split_ifs at h
    cases h
    simp
  · dsimp only at h
    split_ifs at h
    cases h
    simp

/-- The objects of a stream can be read one by one. -/
theorem nthObject_of_allObjects {fuel : ℕ} {bytes : Bytes} {os : List JObject}
    (h : allObjects fuel bytes = some os) (k : ℕ) :
    nthObject k bytes =
      match os[k]? with
      | none => .error .io
      | some (.bid _) => .error .classNotFound
      | some o => .ok o := by
  -- On the fuel. Past the end of the stream every further read fails.
  induction fuel generalizing bytes os k with
  | zero =>
    cases bytes with
    | nil =>
      cases h
      cases k <;> rfl
    | cons b bytes => cases h
  | succ fuel ih =>
    cases bytes with
    | nil =>
      cases h
      cases k <;> rfl
    | cons b bytes =>
      simp only [allObjects] at h
      cases hn : nextObject (b :: bytes) with
      | none => simp [hn] at h
      | some r =>
        obtain ⟨o, rest⟩ := r
        simp only [hn] at h
        obtain ⟨os', hos', rfl⟩ := Option.map_eq_some_iff.mp h
        cases k with
        | zero =>
          have ho := nextObject_not_bid hn
          simp [nthObject, hn]
        | succ k => simpa [nthObject, hn] using ih hos' k

/-- The bytes of such a stream are what is written for its objects. -/
theorem written_javaWire {os : List JObject} {bytes : Bytes} (fuel : ℕ)
    (h : allObjects fuel bytes = some os) : Written javaWire (streamHeader ++ bytes) os := by
  refine ⟨by simp [javaWire], fun k => ?_⟩
  simp only [javaWire, List.drop_left]
  exact nthObject_of_allObjects h k

/-- What a correct replica sends on this wire. -/
theorem sends_javaWire {jvm : Jvm} (sender : ℕ) {os : List ReplyObject} {bytes : Bytes} (fuel : ℕ)
    (h : allObjects fuel bytes = some (os.map (objectOf jvm))) :
    Sends javaWire jvm sender (some os) (some (signed sender (streamHeader ++ bytes))) :=
  ⟨_, _, rfl, List.length_replicate, by simp [javaWire], written_javaWire fuel h⟩

end NovaBank.Proxy
