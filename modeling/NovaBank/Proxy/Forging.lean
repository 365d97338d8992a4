import Mathlib.Data.Finset.Piecewise
import NovaBank.Proxy.Listing

/-!
# Forged lists

Of `3 f + 1` replicas that are asked for a list, at most `f` are Byzantine and send whatever they like,
with valid signatures of their own. The comparator reads the first object of a reply only, and the
extractor returns the last one. So a quorum protects the number before a list, and the list is whatever
the last replica has sent.

`listing_safe_iff`: whatever the Byzantine replicas send, the list that the handler decodes is one that a
correct replica has sent, exactly when the last reply is that of a correct replica or the handler reads
nothing after the number. In both cases the number of a correct reply must not be too small for its
elements, as that of the closed auctions may be, unless what it leaves is the list of a correct reply.
-/

namespace NovaBank.Proxy

open Java Replica

/-- Different JSON values are different objects of a reply. -/
theorem json_injective : Function.Injective ReplyObject.json := fun _ _ h => ReplyObject.json.inj h

/-- A correct replica has sent the list. -/
def SentByCorrect {J : Type} (p : JsonParser J) (jvm : Jvm) {n : ℕ} (byzantine : Finset (Fin n))
    (l : Listing) (command : Command) (state : Fin n → BankService)
    (replies : Fin n → Option Content) (list : List J) : Prop :=
  ∃ i ∉ byzantine, (replies i).isSome ∧
    ∃ reply, ((state i).access jvm (.unordered command)).1 = .ok reply ∧ l.Sent p jvm reply list

/-- A request for a list to `3 f + 1` replicas, of which at most `f` are Byzantine. The others send what
they answer, in whatever states they are. -/
structure Poll (w : Wire) (jvm : Jvm) (f : ℕ) where
  byzantine : Finset (Fin (3 * f + 1))
  few : byzantine.card ≤ f
  listing : Listing
  command : Command
  decodes : decodeUnordered command = .ok listing.query
  /-- The states of the correct replicas. -/
  state : Fin (3 * f + 1) → BankService
  /-- What has been received from the correct replicas, `none` for those whose reply is not in. -/
  sent : Fin (3 * f + 1) → Option Content
  correct : ∀ i ∉ byzantine, ∀ content, sent i = some content →
    ∃ reply, ((state i).access jvm (.unordered command)).1 = .ok reply ∧ Sends w jvm i reply content

namespace Poll

variable {J : Type} {w : Wire} {jvm : Jvm} {f : ℕ} (q : Poll w jvm f)

/-- The replies that are in, with whatever the Byzantine replicas send. -/
def replies (forged : Fin (3 * f + 1) → Option Content) : Fin (3 * f + 1) → Option Content :=
  q.byzantine.piecewise forged q.sent

/-- The list is one that a correct replica has sent. -/
def Genuine (p : JsonParser J) (list : List J) : Prop :=
  SentByCorrect p jvm q.byzantine q.listing q.command q.state q.sent list

/-- Whatever the Byzantine replicas send, when `2 f + 1` replies compare equal to the last received one,
every list that the handler decodes from the extracted message is one that a correct replica has sent. -/
def Safe (p : JsonParser J) (lastReceived : Fin (3 * f + 1)) : Prop :=
  ∀ forged, 2 * f + 1 ≤ (w.matching (q.replies forged) lastReceived).card →
    ∀ message list, w.extractResponse f (q.replies forged) lastReceived = .ok (some message) →
      q.listing.decode w p message = .ok (.list list) → q.Genuine p list

/-- The reply of the correct replica `i` is in: the number, and the JSON values after it. -/
def Replied (i : Fin (3 * f + 1)) (number : Int32) (js : List Json) : Prop :=
  i ∉ q.byzantine ∧ (q.sent i).isSome ∧
    ((q.state i).access jvm (.unordered q.command)).1 =
      .ok (some (.int number :: js.map ReplyObject.json))

/-- With those of the Byzantine replicas, `2 f + 1` replies can begin with the number. -/
def Backed (number : Int32) : Prop :=
  ∃ quorum : Finset (Fin (3 * f + 1)), 2 * f + 1 ≤ quorum.card ∧
    ∀ i ∈ quorum, i ∉ q.byzantine → ∃ js, q.Replied i number js

/-- When lists are safe, by what the correct replicas have sent and who was last. -/
structure Guarded (p : JsonParser J) (lastReceived : Fin (3 * f + 1)) : Prop where
  /-- After the number of a Byzantine last reply the handler reads nothing. -/
  nothingRead : lastReceived ∈ q.byzantine → ∀ number, q.Backed number → q.listing.reads number = 0
  /-- When the number of a correct reply is too small for its elements, those that it counts are all the
  elements of a correct reply, or cannot be read. -/
  notCut : ∀ i number js list, q.Backed number → q.Replied i number js →
    (i = lastReceived ∨ lastReceived ∈ q.byzantine) → q.listing.Cuts number (js.map jvm.text) →
    q.listing.values p ((js.map jvm.text).take (q.listing.reads number)) = .ok list →
    ∃ i' number' js', q.Replied i' number' js' ∧ q.listing.values p (js'.map jvm.text) = .ok list

/-! ## Replies of correct replicas -/

section Correct

variable {q} {p : JsonParser J} {i lastReceived : Fin (3 * f + 1)} {number : Int32} {js : List Json}
  {forged : Fin (3 * f + 1) → Option Content}

/-- A Byzantine replica sends what it likes. -/
theorem replies_of_mem (h : i ∈ q.byzantine) : q.replies forged i = forged i :=
  Finset.piecewise_eq_of_mem _ _ _ h

/-- A correct replica sends its own reply. -/
theorem replies_of_notMem (h : i ∉ q.byzantine) : q.replies forged i = q.sent i :=
  Finset.piecewise_eq_of_notMem _ _ _ h

/-- To the accounts there is one value. -/
theorem Replied.one (h : q.Replied i number js) :
    ∀ myHash, q.listing = .accounts myHash → js.length = 1 := by
  obtain ⟨number', js', hos, hone⟩ := Listing.numbered_reply q.decodes h.2.2
  obtain ⟨-, hjs⟩ := List.cons_eq_cons.mp hos
  obtain rfl : js = js' := List.map_injective_iff.mpr json_injective hjs
  exact hone

/-- A replica has one reply. -/
theorem Replied.unique {number' : Int32} {js' : List Json} (h : q.Replied i number js)
    (h' : q.Replied i number' js') : js = js' := by
  have hsame := h.2.2.symm.trans h'.2.2
  simp only [Except.ok.injEq, Option.some.injEq, List.cons.injEq] at hsame
  exact List.map_injective_iff.mpr json_injective hsame.2

/-- The bytes of a correct reply: the stream of the number and the texts, with a valid signature. -/
theorem Replied.exists_payload (h : q.Replied i number js) :
    ∃ payload signature, q.sent i = some (some (payload ++ signature)) ∧
      signature.length = signatureLength ∧ w.verify i payload signature = true ∧
      Written w payload (.int number :: (js.map jvm.text).map JObject.str) := by
  -- A correct replica answers by its own state, and signs what it has written.
  obtain ⟨hi, hsent, hanswer⟩ := h
  obtain ⟨content, hcontent⟩ := Option.isSome_iff_exists.mp hsent
  obtain ⟨reply, hreply, hsends⟩ := q.correct i hi content hcontent
  rw [hanswer] at hreply
  cases hreply
  obtain ⟨payload, signature, rfl, hlength, hverify, hwritten⟩ := hsends
  refine ⟨payload, signature, hcontent, hlength, hverify, ?_⟩
  rw [List.map_cons, List.map_map] at hwritten
  rw [List.map_map]
  exact hwritten

/-- The lists that correct replicas have sent are those of the values in their replies. -/
theorem genuine_iff {list : List J} :
    q.Genuine p list ↔
      ∃ i number js, q.Replied i number js ∧ q.listing.values p (js.map jvm.text) = .ok list := by
  constructor
  · rintro ⟨i, hi, hsent, reply, hreply, hlist⟩
    -- A correct replica never replies `null` to a listing with a list in it.
    cases reply with
    | none =>
      obtain ⟨_, _, hnone, -⟩ := hlist
      cases hnone
    | some os =>
      obtain ⟨number, js, rfl, hone⟩ := Listing.numbered_reply q.decodes hreply
      exact ⟨i, number, js, ⟨hi, hsent, hreply⟩, (Listing.sent_iff hone).mp hlist⟩
  · rintro ⟨i, number, js, h, hlist⟩
    exact ⟨i, h.1, h.2.1, _, h.2.2, (Listing.sent_iff h.one).mpr hlist⟩

/-- A correct replica whose reply matches the message has sent the number of the message. -/
theorem replied_of_matching {last message : Bytes}
    (hi : i ∈ w.matching (q.replies forged) lastReceived) (hcorrect : i ∉ q.byzantine)
    (hlast : q.replies forged lastReceived = some (some last))
    (hmessage : withoutSignature last = .ok message) :
    ∃ number js, q.Replied i number js ∧ w.readFirst message = .ok (.int number) := by
  have hsends : ∀ j ∉ q.byzantine, ∀ content, q.replies forged j = some content →
      ∃ reply, ((q.state j).access jvm (.unordered q.command)).1 = .ok reply ∧
        Sends w jvm j reply content := by
    intro j hj content hcontent
    rw [replies_of_notMem hj] at hcontent
    exact q.correct j hj content hcontent
  -- The first object of such a reply is a number, and never a bid.
  obtain ⟨hsome, x, xs, hx, hfirst⟩ := sent_of_matching hsends hi hcorrect hlast hmessage fun os hos => by
    obtain ⟨number, js, rfl, -⟩ := Listing.numbered_reply q.decodes hos
    exact ⟨_, _, rfl, by simp⟩
  obtain ⟨number, js, hos, -⟩ := Listing.numbered_reply q.decodes hx
  rw [replies_of_notMem hcorrect] at hsome
  obtain ⟨rfl, rfl⟩ := List.cons_eq_cons.mp hos
  exact ⟨number, js, ⟨hcorrect, hsome, hx⟩, hfirst⟩

/-- The replies that match a message back its number. -/
theorem backed_of_matching {last message : Bytes}
    (hlast : q.replies forged lastReceived = some (some last))
    (hmessage : withoutSignature last = .ok message)
    (hfirst : w.readFirst message = .ok (.int number))
    (quorum : 2 * f + 1 ≤ (w.matching (q.replies forged) lastReceived).card) : q.Backed number := by
  refine ⟨w.matching (q.replies forged) lastReceived, quorum, fun i hi hcorrect => ?_⟩
  obtain ⟨number', js, hreplied, hfirst'⟩ := replied_of_matching hi hcorrect hlast hmessage
  rw [hfirst] at hfirst'
  cases hfirst'
  exact ⟨js, hreplied⟩

end Correct

/-! ## What is guarded is safe -/

section Safe

variable {q} {p : JsonParser J} {i lastReceived : Fin (3 * f + 1)} {number : Int32} {js : List Json}
  {list : List J}

/-- What the handler reads of a correct reply is the list of a correct reply. -/
theorem Guarded.genuine_of_take (h : q.Guarded p lastReceived) (hbacked : q.Backed number)
    (hreplied : q.Replied i number js) (hi : i = lastReceived ∨ lastReceived ∈ q.byzantine)
    (hother : ∀ myHash, q.listing = .accounts myHash → number ≠ myHash)
    (hlist : q.listing.values p ((js.map jvm.text).take (q.listing.reads number)) = .ok list) :
    q.Genuine p list := by
  rw [genuine_iff]
  by_cases hcuts : q.listing.Cuts number (js.map jvm.text)
  · exact h.notCut i number js list hbacked hreplied hi hcuts hlist
  · -- The whole reply is read.
    have hall : (js.map jvm.text).take (q.listing.reads number) = js.map jvm.text := by
      apply List.take_of_length_le
      rw [List.length_map]
      have hone := hreplied.one
      cases hl : q.listing with
      | accounts myHash =>
        rw [hone myHash hl, Listing.reads, if_neg (hother myHash hl)]
      | openedAuctions | closedAuctions | bidsFromAuction auctionID | bidsFromUser who =>
        rw [hl] at hcuts
        simp only [Listing.Cuts, List.length_map, not_lt] at hcuts
        exact hcuts
    rw [hall] at hlist
    exact ⟨i, number, js, hreplied, hlist⟩

/-- A message after whose number nothing is read is the empty list, or none. -/
theorem decode_of_nothingRead {message : Bytes} {l : Listing}
    (hfirst : w.readFirst message = .ok (.int number)) (hreads : l.reads number = 0)
    (hdecode : l.decode w p message = .ok (.list list)) :
    (∀ myHash, l ≠ .accounts myHash) ∧ list = [] := by
  rw [Listing.decode_eq_list_iff hfirst] at hdecode
  -- Only the listing of all accounts does not read its objects by the number.
  cases l with
  | accounts myHash =>
    simp only [Listing.after, accountsAfter] at hdecode
    simp only [Listing.reads] at hreads
    split_ifs at hreads with hhash
    rw [if_neg (not_not.mpr hhash)] at hdecode
    cases hdecode
  | openedAuctions | closedAuctions | bidsFromAuction auctionID | bidsFromUser who =>
    simp only [Listing.reads] at hreads
    simp only [Listing.after, elementsAfter, hreads] at hdecode
    cases hdecode
    exact ⟨by simp, rfl⟩

/-- Under the guard nothing can be forged. -/
theorem Guarded.safe (h : q.Guarded p lastReceived) : q.Safe p lastReceived := by
  intro forged quorum message list hextract hdecode
  obtain ⟨-, last, hlast, hmessage⟩ := Wire.extractResponse_eq_some_iff.mp hextract
  by_cases hbyzantine : lastReceived ∈ q.byzantine
  · -- A correct replica of the quorum vouches for the number, and nothing is read after it.
    obtain ⟨i, hi, hcorrect⟩ := Quorum.exists_correct q.few quorum
    obtain ⟨number, js, hreplied, hfirst⟩ := replied_of_matching hi hcorrect hlast hmessage
    have hbacked := backed_of_matching hlast hmessage hfirst quorum
    have hreads := h.nothingRead hbyzantine number hbacked
    obtain ⟨hother, rfl⟩ := decode_of_nothingRead hfirst hreads hdecode
    refine h.genuine_of_take hbacked hreplied (.inr hbyzantine)
      (fun myHash e => absurd e (hother myHash)) ?_
    rw [hreads, List.take_zero]
    cases hl : q.listing with
    | accounts myHash => exact absurd hl (hother myHash)
    | openedAuctions | closedAuctions | bidsFromAuction auctionID | bidsFromUser who => rfl
  · -- The message is the reply of the last replica.
    have hmem : lastReceived ∈ w.matching (q.replies forged) lastReceived := by
      simp [Wire.matching, Wire.isMatching, hlast]
    obtain ⟨number, js, hreplied, hfirst⟩ := replied_of_matching hmem hbyzantine hlast hmessage
    have hbacked := backed_of_matching hlast hmessage hfirst quorum
    obtain ⟨payload, signature, hsent, hlength, -, hwritten⟩ := hreplied.exists_payload
    rw [replies_of_notMem hbyzantine, hsent] at hlast
    cases hlast
    rw [withoutSignature_append hlength] at hmessage
    cases hmessage
    obtain ⟨-, hother, hlist⟩ :=
      (Listing.decode_written_iff hwritten (by simpa using hreplied.one)).mp hdecode
    exact h.genuine_of_take hbacked hreplied (.inl rfl) hother hlist

end Safe

/-! ## What is not guarded can be forged -/

/-- The Byzantine replicas can sign whatever they send. -/
def CanSign : Prop :=
  ∀ i ∈ q.byzantine, ∀ payload : Bytes, ∃ signature : Bytes, signature.length = signatureLength ∧
    w.verify i payload signature = true

end Poll

/-- There is always another list that can be sent: next to any `n` lists, one of any length other than 0,
and one that is read from an array. -/
structure Inexhaustible {J : Type} (w : Wire) (p : JsonParser J) (n : ℕ) : Prop where
  elements : ∀ (number : Int32) (ls : List (List J)), 0 < number.toNatClampNeg → ls.length ≤ n →
    ∃ (texts : List String) (js : List J) (payload : Bytes), texts.length = number.toNatClampNeg ∧
      texts.mapM p.object = .ok js ∧ js ∉ ls ∧ Written w payload (.int number :: texts.map JObject.str)
  array : ∀ (hash : Int32) (ls : List (List J)), ls.length ≤ n →
    ∃ text js payload, p.array text = .ok js ∧ js ∉ ls ∧
      Written w payload (.int hash :: [text].map JObject.str)

/-- Replies that begin with the same number compare equal. -/
theorem Wire.compare_of_number {w : Wire} {a b x y : Bytes} {number : Int32}
    (hx : withoutSignature a = .ok x) (hy : withoutSignature b = .ok y)
    (hfirst : w.readFirst x = .ok (.int number)) (hfirst' : w.readFirst y = .ok (.int number)) :
    w.compare (some a) (some b) = .ok 0 := by
  rw [Wire.compare_some hx hy, Wire.readFirsts_eq_ok_iff.mpr ⟨hfirst, hfirst'⟩]
  simp [equals, Except.map]

/-- When `2 f + 1` replies have valid signatures and begin with the same number as the last one, the last
one is the message. -/
theorem Wire.extractResponse_of_numbered {w : Wire} {n f : ℕ} {replies : Fin n → Option Content}
    {lastReceived : Fin n} {quorum : Finset (Fin n)} {number : Int32} {payload signature : Bytes}
    (hcard : 2 * f + 1 ≤ quorum.card)
    (hquorum : ∀ i ∈ quorum, ∃ content t, replies i = some (some (content ++ t)) ∧
      t.length = signatureLength ∧ w.verify i content t = true ∧ w.readFirst content = .ok (.int number))
    (hlast : replies lastReceived = some (some (payload ++ signature)))
    (hlength : signature.length = signatureLength) (hfirst : w.readFirst payload = .ok (.int number)) :
    2 * f + 1 ≤ (w.matching replies lastReceived).card ∧
      w.extractResponse f replies lastReceived = .ok (some payload) := by
  have hmatching : quorum ⊆ w.matching replies lastReceived := by
    intro i hi
    obtain ⟨content, t, hcontent, ht, -, hnumber⟩ := hquorum i hi
    have hcompare := Wire.compare_of_number (withoutSignature_append ht)
      (withoutSignature_append hlength) hnumber hfirst
    simp [Wire.matching, Wire.isMatching, hcontent, hlast, hcompare]
  have hvalid : quorum ⊆ w.validReplies replies := by
    intro i hi
    obtain ⟨content, t, hcontent, ht, hverify, -⟩ := hquorum i hi
    refine Finset.mem_filter.mpr ⟨Finset.mem_univ i, ?_⟩
    rw [hcontent, Option.any_some]
    simp only [Wire.isReplyValid, withoutSignature_append ht, signatureOf_append ht, hverify]
  refine ⟨hcard.trans (Finset.card_le_card hmatching), ?_⟩
  exact Wire.extractResponse_eq_some_iff.mpr
    ⟨hcard.trans (Finset.card_le_card hvalid), _, hlast, withoutSignature_append hlength⟩

namespace Poll

variable {J : Type} {w : Wire} {jvm : Jvm} {f : ℕ} {q : Poll w jvm f} {p : JsonParser J}
  {lastReceived : Fin (3 * f + 1)} {number : Int32} {payload : Bytes}

/-- Whatever begins with a number that can be backed can be made the message, when it is the last reply
or the last reply is Byzantine. -/
theorem exists_forged (signs : q.CanSign) (hbacked : q.Backed number)
    (hfirst : w.readFirst payload = .ok (.int number))
    (hlast : lastReceived ∈ q.byzantine ∨ ∃ signature, signature.length = signatureLength ∧
      q.sent lastReceived = some (some (payload ++ signature))) :
    ∃ forged, 2 * f + 1 ≤ (w.matching (q.replies forged) lastReceived).card ∧
      w.extractResponse f (q.replies forged) lastReceived = .ok (some payload) := by
  obtain ⟨quorum, hcard, hquorum⟩ := hbacked
  -- Every Byzantine replica sends the payload, with its signature.
  have hsign : ∀ i, ∃ signature : Bytes, i ∈ q.byzantine → signature.length = signatureLength ∧
      w.verify i payload signature = true := by
    intro i
    by_cases hi : i ∈ q.byzantine
    · obtain ⟨signature, hsignature⟩ := signs i hi payload
      exact ⟨signature, fun _ => hsignature⟩
    · exact ⟨[], fun h => absurd h hi⟩
  choose signature hsignature using hsign
  let forged : Fin (3 * f + 1) → Option Content := fun i => some (some (payload ++ signature i))
  have hmessage : ∃ s, s.length = signatureLength ∧
      q.replies forged lastReceived = some (some (payload ++ s)) := by
    by_cases hbyzantine : lastReceived ∈ q.byzantine
    · exact ⟨_, (hsignature lastReceived hbyzantine).1, replies_of_mem hbyzantine⟩
    · obtain ⟨s, hlength, hsent⟩ := hlast.resolve_left hbyzantine
      exact ⟨s, hlength, (replies_of_notMem hbyzantine).trans hsent⟩
  obtain ⟨s, hlength, hreply⟩ := hmessage
  refine ⟨forged, Wire.extractResponse_of_numbered hcard (fun i hi => ?_) hreply hlength hfirst⟩
  -- A reply of the quorum has the number and a valid signature.
  by_cases hbyzantine : i ∈ q.byzantine
  · obtain ⟨hlength, hverify⟩ := hsignature i hbyzantine
    exact ⟨payload, _, replies_of_mem hbyzantine, hlength, hverify, hfirst⟩
  · obtain ⟨js, hreplied⟩ := hquorum i hi hbyzantine
    obtain ⟨content, t, hsent, hlength, hverify, hwritten⟩ := hreplied.exists_payload
    exact ⟨content, t, (replies_of_notMem hbyzantine).trans hsent, hlength, hverify,
      hwritten.readFirst (by simp)⟩

/-- The lists that correct replicas have sent are not more than the replicas. -/
theorem exists_lists (q : Poll w jvm f) (p : JsonParser J) :
    ∃ ls : List (List J), ls.length ≤ 3 * f + 1 ∧ ∀ list, q.Genuine p list → list ∈ ls := by
  have hone : ∀ i, ∃ o : Option (List J), ∀ number js list, q.Replied i number js →
      q.listing.values p (js.map jvm.text) = .ok list → o = some list := by
    intro i
    by_cases h : ∃ number js list, q.Replied i number js ∧
        q.listing.values p (js.map jvm.text) = .ok list
    · obtain ⟨number, js, list, hreplied, hlist⟩ := h
      refine ⟨some list, fun number' js' list' hreplied' hlist' => ?_⟩
      obtain rfl := hreplied.unique hreplied'
      exact congrArg some (Except.ok.inj (hlist.symm.trans hlist'))
    · exact ⟨none, fun number js list hreplied hlist => absurd ⟨number, js, list, hreplied, hlist⟩ h⟩
  choose o ho using hone
  refine ⟨(List.finRange (3 * f + 1)).filterMap o, ?_, fun list hgenuine => ?_⟩
  · exact (List.length_filterMap_le _ _).trans (List.length_finRange (n := 3 * f + 1)).le
  · obtain ⟨i, number, js, hreplied, hlist⟩ := genuine_iff.mp hgenuine
    exact List.mem_filterMap.mpr ⟨i, List.mem_finRange i, ho i number js list hreplied hlist⟩

/-- When something is read after a number that can be backed, and the last reply is Byzantine, it can
hold a list that nobody else has sent. -/
theorem exists_forged_list (signs : q.CanSign) (inexhaustible : Inexhaustible w p (3 * f + 1))
    (hlast : lastReceived ∈ q.byzantine) (hbacked : q.Backed number)
    (hreads : q.listing.reads number ≠ 0) : ¬ q.Safe p lastReceived := by
  obtain ⟨ls, hlength, hls⟩ := q.exists_lists p
  -- Texts after the number, of which the handler makes a list that is not among these.
  obtain ⟨texts, list, payload, hone, hlist, hnew, hwritten⟩ : ∃ (texts : List String)
      (list : List J) (payload : Bytes), (∀ myHash, q.listing = .accounts myHash → texts.length = 1) ∧
        (q.listing.reads number ≤ texts.length ∧
          (∀ myHash, q.listing = .accounts myHash → number ≠ myHash) ∧
          q.listing.values p (texts.take (q.listing.reads number)) = .ok list) ∧
        list ∉ ls ∧ Written w payload (.int number :: texts.map JObject.str) := by
    cases hl : q.listing with
    | accounts myHash =>
      rw [hl, Listing.reads] at hreads
      have hhash : number ≠ myHash := fun e => hreads (if_pos e)
      obtain ⟨text, js, payload, hjs, hnew, hwritten⟩ := inexhaustible.array number ls hlength
      refine ⟨[text], js, payload, fun _ _ => rfl, ⟨?_, ?_, ?_⟩, hnew, hwritten⟩
      · simp [Listing.reads, hhash]
      · rintro _ ⟨⟩
        exact hhash
      · simp [Listing.reads, Listing.values, hhash, hjs]
    | openedAuctions | closedAuctions | bidsFromAuction auctionID | bidsFromUser who =>
      rw [hl] at hreads
      obtain ⟨texts, js, payload, htexts, hjs, hnew, hwritten⟩ :=
        inexhaustible.elements number ls (Nat.pos_of_ne_zero hreads) hlength
      refine ⟨texts, js, payload, by simp, ⟨?_, by simp, ?_⟩, hnew, hwritten⟩
      · simp [Listing.reads, htexts]
      · simp [Listing.reads, Listing.values, ← htexts, hjs]
  obtain ⟨forged, quorum, hextract⟩ :=
    exists_forged signs hbacked (hwritten.readFirst (by simp)) (.inl hlast)
  intro hsafe
  exact hnew (hls list (hsafe forged quorum payload list hextract
    ((Listing.decode_written_iff hwritten hone).mpr hlist)))

/-- Lists that are safe are guarded. -/
theorem guarded_of_safe (signs : q.CanSign) (inexhaustible : Inexhaustible w p (3 * f + 1))
    (hsafe : q.Safe p lastReceived) : q.Guarded p lastReceived where
  nothingRead hlast number hbacked := by
    by_contra hreads
    exact exists_forged_list signs inexhaustible hlast hbacked hreads hsafe
  notCut i number js list hbacked hreplied hi hcuts hlist := by
    -- The Byzantine replicas repeat the correct reply.
    obtain ⟨payload, signature, hsent, hlength, -, hwritten⟩ := hreplied.exists_payload
    have hlast : lastReceived ∈ q.byzantine ∨ ∃ signature, signature.length = signatureLength ∧
        q.sent lastReceived = some (some (payload ++ signature)) := by
      rcases hi with rfl | hbyzantine
      · exact .inr ⟨signature, hlength, hsent⟩
      · exact .inl hbyzantine
    obtain ⟨forged, quorum, hextract⟩ :=
      exists_forged signs hbacked (hwritten.readFirst (by simp)) hlast
    have hdecode : q.listing.decode w p payload = .ok (.list list) := by
      refine (Listing.decode_written_iff hwritten (by simpa using hreplied.one)).mpr ⟨?_, ?_, hlist⟩
      · cases hl : q.listing with
        | accounts myHash =>
          rw [hl] at hcuts
          exact hcuts.elim
        | openedAuctions | closedAuctions | bidsFromAuction auctionID | bidsFromUser who =>
          rw [hl] at hcuts
          exact Nat.le_of_lt hcuts
      · intro myHash hl
        rw [hl] at hcuts
        exact hcuts.elim
    exact genuine_iff.mp (hsafe forged quorum payload list hextract hdecode)

end Poll

/-- **When listings are Byzantine-safe:** of `3 f + 1` replicas at most `f` are Byzantine and send
anything, with valid signatures, and the others send what they answer, in whatever states they are. When
`2 f + 1` replies compare equal to the last received one, every list that the handler decodes from the
extracted message is one that a correct replica has sent, whatever the Byzantine replicas send, exactly
when the last reply is that of a correct replica or nothing is read after a number that `2 f + 1` replies
can begin with, and no number of a correct reply cuts its list to something that no correct replica has
sent. -/
theorem listing_safe_iff {J : Type} {w : Wire} {jvm : Jvm} {f : ℕ} (q : Poll w jvm f)
    (p : JsonParser J) (signs : q.CanSign) (inexhaustible : Inexhaustible w p (3 * f + 1))
    (lastReceived : Fin (3 * f + 1)) : q.Safe p lastReceived ↔ q.Guarded p lastReceived :=
  ⟨Poll.guarded_of_safe signs inexhaustible, Poll.Guarded.safe⟩

/-! ## A forged list -/

/-- A replica with one opened auction. -/
def oneAuction : BankService :=
  let st := (BankService.new.appExecuteOrdered auctionJvm
    (registerUser (some "alice") (some "secret") (some 10) none)).2
  (st.appExecuteOrdered auctionJvm (createAuction (some "alice") (some 1))).2

/-- The request for the opened auctions. -/
def openedAuctions : Command := queryCommand .listAllCurrentOpenedAuctions

/-- A reply with one auction. -/
def auctionPayload (text : String) : Bytes := streamHeader ++ (integerBytes 1 ++ stringBytes text)

/-- The replies of four replicas. All begin with the number 1, and the replica 3 has put the empty
object after it. -/
def auctionReplies (i : Fin 4) : Option Content :=
  some (contentWith (auctionPayload auctionText) (some (signed 3 (auctionPayload "\x7b\x7d"))) i)

/-- The answer of a correct replica. -/
theorem oneAuction_answer :
    (oneAuction.access auctionJvm (.unordered openedAuctions)).1 =
      .ok (some [.int 1, .json (.auction (AuctionEntity.new (some 1) (some "alice")))]) := by
  decide

/-- The replicas 0, 1 and 2 have sent that answer. -/
theorem auctionReplies_correct (i : Fin 4) (hi : i ∉ ({3} : Finset (Fin 4))) (content : Content)
    (h : auctionReplies i = some content) :
    ∃ reply, (oneAuction.access auctionJvm (.unordered openedAuctions)).1 = .ok reply ∧
      Sends javaWire auctionJvm i reply content := by
  have hcontent : content = some (signed i (auctionPayload auctionText)) := by
    rw [← Option.some.inj h, contentWith_of_correct _ _ hi]
  exact ⟨_, oneAuction_answer, hcontent ▸ sends_javaWire i 2 (by decide +kernel)⟩

/-- **A forged list gets through:** the last reply is that of the Byzantine replica, it compares
equal to the other three, and the handler decodes the forged element, which no correct replica has
sent. -/
theorem forged_list_accepted :
    (∀ i ∉ ({3} : Finset (Fin 4)), ∀ content, auctionReplies i = some content →
        ∃ reply, (oneAuction.access auctionJvm (.unordered openedAuctions)).1 = .ok reply ∧
          Sends javaWire auctionJvm i reply content) ∧
      (javaWire.matching auctionReplies 3).card = 4 ∧
      javaWire.extractResponse 1 auctionReplies 3 = .ok (some (auctionPayload "\x7b\x7d")) ∧
      Listing.openedAuctions.decode javaWire textParser (auctionPayload "\x7b\x7d") =
        .ok (.list ["\x7b\x7d"]) ∧
      ¬ SentByCorrect textParser auctionJvm {3} .openedAuctions openedAuctions (fun _ => oneAuction)
        auctionReplies ["\x7b\x7d"] := by
  refine ⟨auctionReplies_correct, by decide +kernel, by decide +kernel, by decide +kernel, ?_⟩
  -- The correct replicas all reply with the auction that is opened.
  rintro ⟨i, -, -, reply, hreply, number, xs, rfl, hlist⟩
  rw [oneAuction_answer] at hreply
  cases hreply
  exact absurd (Except.ok.inj hlist) (by decide)

/-! ## Lists that can be sent on the wire of strings and a number -/

/-- A text of `n` letters. -/
def letters (n : ℕ) : String := String.ofList (List.replicate n 'a')

/-- Different numbers have different texts. -/
theorem letters_injective : Function.Injective letters := by
  intro m n h
  have hlength := congrArg (fun s => s.toList.length) h
  simpa [letters] using hlength

/-- The bytes of such a text are read back. -/
theorem nextObject_letters {n : ℕ} (hn : n < 256^2) (rest : Bytes) :
    nextObject (stringBytes (letters n) ++ rest) = some (.str (letters n), rest) := by
  -- A string is its length in two bytes and then its characters.
  have hbytes : stringBytes (letters n) ++ rest =
      0x74 :: UInt8.ofNat (n / 256) :: UInt8.ofNat n ::
        (List.replicate n (UInt8.ofNat 97) ++ rest) := by
    simp [stringBytes, letters, toBytes]
  have hlength : ofBytes [UInt8.ofNat (n / 256), UInt8.ofNat n] = n := by
    have h := ofBytes_toBytes 2 n
    rw [Nat.mod_eq_of_lt hn] at h
    exact h
  have htake : (List.replicate n (UInt8.ofNat 97) ++ rest).take n =
      List.replicate n (UInt8.ofNat 97) := List.take_left' List.length_replicate
  have hdrop : (List.replicate n (UInt8.ofNat 97) ++ rest).drop n = rest :=
    List.drop_left' List.length_replicate
  have hlong : ¬ (List.replicate n (UInt8.ofNat 97) ++ rest).length < n := by simp
  rw [hbytes, nextObject]
  simp only [hlength, if_neg hlong, htake, hdrop, List.map_replicate]
  rfl

/-- The bytes of a number are read back. -/
theorem nextObject_number (number : Int32) (rest : Bytes) :
    nextObject (integerBytes number.toBitVec.toNat ++ rest) = some (.int number, rest) := by
  -- An integer is its class descriptor and then four bytes.
  have hvalue : ofBytes (toBytes 4 number.toBitVec.toNat) = number.toBitVec.toNat := by
    have hlt : number.toBitVec.toNat < 256^4 := number.toBitVec.isLt
    rw [ofBytes_toBytes, Nat.mod_eq_of_lt hlt]
  have hdrop : (integerBytes number.toBitVec.toNat ++ rest).drop integerDescriptor.length =
      toBytes 4 number.toBitVec.toNat ++ rest := by
    rw [integerBytes, List.append_assoc, List.drop_left]
  have htake : (toBytes 4 number.toBitVec.toNat ++ rest).take 4 = toBytes 4 number.toBitVec.toNat :=
    List.take_left' (length_toBytes 4 _)
  have hend : (integerBytes number.toBitVec.toNat ++ rest).drop (integerDescriptor.length + 4) = rest := by
    rw [← List.drop_drop, hdrop, List.drop_left' (length_toBytes 4 _)]
  have hstart : integerDescriptor.isPrefixOf (integerBytes number.toBitVec.toNat ++ rest) = true := by
    rw [List.isPrefixOf_iff_prefix, integerBytes, List.append_assoc]
    exact List.prefix_append _ _
  have hnumber : Int32.ofNat number.toBitVec.toNat = number := by
    apply Int32.toBitVec_inj.mp
    simp
  have hnext : nextObject (integerBytes number.toBitVec.toNat ++ rest) =
      (let value := ((integerBytes number.toBitVec.toNat ++ rest).drop integerDescriptor.length).take 4
      if integerDescriptor.isPrefixOf (integerBytes number.toBitVec.toNat ++ rest) &&
          value.length = 4 then
        some (.int (Int32.ofNat (ofBytes value)),
          (integerBytes number.toBitVec.toNat ++ rest).drop (integerDescriptor.length + 4))
      else none) := rfl
  rw [hnext, hdrop, htake, hstart, hend]
  simp [hvalue, hnumber]

/-- The objects of a stream are the next one and those after it. -/
theorem allObjects_of_nextObject {bytes rest : Bytes} {o : JObject} {os : List JObject} {fuel : ℕ}
    (hnext : nextObject bytes = some (o, rest)) (hrest : allObjects fuel rest = some os) :
    allObjects (fuel + 1) bytes = some (o :: os) := by
  cases bytes with
  | nil => cases hnext
  | cons b bytes =>
    simp only [allObjects, hnext, hrest, Option.map_some]

/-- A number and such texts after it are a stream. -/
theorem written_letters (number : Int32) {ns : List ℕ} (hns : ∀ n ∈ ns, n < 256^2) :
    ∃ payload, Written javaWire payload (.int number :: (ns.map letters).map JObject.str) := by
  have htexts : allObjects ns.length (ns.flatMap fun n => stringBytes (letters n)) =
      some ((ns.map letters).map JObject.str) := by
    induction ns with
    | nil => rfl
    | cons n ns ih =>
      obtain ⟨hn, hns⟩ := List.forall_mem_cons.mp hns
      rw [List.flatMap_cons]
      exact allObjects_of_nextObject (nextObject_letters hn _) (ih hns)
  exact ⟨_, written_javaWire _ (allObjects_of_nextObject (nextObject_number number _) htexts)⟩

/-- Next to `n` elements there is another one among the first `n + 1` of a sequence. -/
theorem exists_notMem {α : Type} [DecidableEq α] {g : ℕ → α} (hg : Function.Injective g) (l : List α) :
    ∃ n ≤ l.length, g n ∉ l := by
  have hcard : l.toFinset.card < ((Finset.range (l.length + 1)).image g).card := by
    rw [Finset.card_image_of_injective _ hg, Finset.card_range]
    exact Nat.lt_succ_of_le l.toFinset_card_le
  obtain ⟨x, hx, hnew⟩ := Finset.exists_mem_notMem_of_card_lt_card hcard
  obtain ⟨n, hn, rfl⟩ := Finset.mem_image.mp hx
  exact ⟨n, Nat.lt_succ_iff.mp (Finset.mem_range.mp hn), fun h => hnew (List.mem_toFinset.mpr h)⟩

/-- On this wire there is always another list. -/
theorem inexhaustible_javaWire {n : ℕ} (hn : n < 256^2) : Inexhaustible javaWire textParser n where
  elements number ls hpos hls := by
    -- The same text as often as the number says.
    have hinjective : Function.Injective fun k => List.replicate number.toNatClampNeg (letters k) := by
      intro j k h
      exact letters_injective ((List.replicate_inj.mp h).2.resolve_left (Nat.ne_of_gt hpos))
    obtain ⟨k, hk, hnew⟩ := exists_notMem hinjective ls
    have hsmall : ∀ m ∈ List.replicate number.toNatClampNeg k, m < 256^2 := by
      intro m hm
      rw [(List.mem_replicate.mp hm).2]
      omega
    obtain ⟨payload, hwritten⟩ := written_letters number hsmall
    rw [List.map_replicate] at hwritten
    exact ⟨_, _, payload, List.length_replicate, mapM_of_ok fun _ _ => rfl, by simpa using hnew, hwritten⟩
  array hash ls hls := by
    have hinjective : Function.Injective fun k => [letters k] := fun j k h =>
      letters_injective (List.singleton_inj.mp h)
    obtain ⟨k, hk, hnew⟩ := exists_notMem hinjective ls
    have hsmall : ∀ m ∈ [k], m < 256^2 := by
      intro m hm
      rw [List.mem_singleton.mp hm]
      omega
    obtain ⟨payload, hwritten⟩ := written_letters hash hsmall
    exact ⟨letters k, [letters k], payload, rfl, hnew, hwritten⟩

/-- The request for the opened auctions of which the replica 3 is Byzantine. -/
def auctionPoll : Poll javaWire auctionJvm 1 where
  byzantine := {Fin.last 3}
  few := by decide
  listing := .openedAuctions
  command := openedAuctions
  decodes := decodeUnordered_queryCommand _
  state _ := oneAuction
  sent := auctionReplies
  correct := auctionReplies_correct

/-- A correct reply is the number 1 and the auction. -/
theorem auctionPoll_replied_iff (i : Fin 4) (number : Int32) (js : List Json) :
    auctionPoll.Replied i number js ↔
      i ≠ Fin.last 3 ∧ number = 1 ∧ js = [.auction (AuctionEntity.new (some 1) (some "alice"))] := by
  have hanswer : ((auctionPoll.state i).access auctionJvm (.unordered auctionPoll.command)).1 =
      .ok (some (.int 1 :: [.auction (AuctionEntity.new (some 1) (some "alice"))].map
        ReplyObject.json)) := oneAuction_answer
  have hsent : (auctionPoll.sent i).isSome = true := rfl
  rw [Poll.Replied, hanswer, hsent]
  simp only [auctionPoll, Finset.mem_singleton, true_and, Except.ok.injEq, Option.some.injEq,
    List.cons.injEq, ReplyObject.int.injEq, List.map_inj_right json_injective, eq_comm (a := (1 : Int32)),
    eq_comm (b := js)]

/-- Whatever the replica 3 sends, the list is the one of a correct replica when the last reply is, but not
when it is that of the replica 3. -/
theorem listing_safe_correct_last :
    auctionPoll.CanSign ∧ Inexhaustible javaWire textParser (3 * 1 + 1) ∧
      auctionPoll.Safe textParser 2 ∧ ¬ auctionPoll.Safe textParser 3 := by
  have hsign : auctionPoll.CanSign := fun i _ _ =>
    ⟨List.replicate signatureLength (UInt8.ofNat i), List.length_replicate, by simp [javaWire]⟩
  have hmore : Inexhaustible javaWire textParser (3 * 1 + 1) := inexhaustible_javaWire (by decide)
  have hsafe := listing_safe_iff auctionPoll textParser hsign hmore
  refine ⟨hsign, hmore, (hsafe 2).mpr ⟨?_, ?_⟩, fun h => ?_⟩
  · exact fun h => absurd h (by decide)
  · rintro i number js list - hreplied - hcuts -
    obtain ⟨-, rfl, rfl⟩ := (auctionPoll_replied_iff i number js).mp hreplied
    exact (Nat.lt_irrefl 1 hcuts).elim
  · -- All replicas can begin with the number 1, after which one element is read.
    have hbacked : auctionPoll.Backed 1 := by
      refine ⟨Finset.univ, by decide, fun i _ hi => ?_⟩
      have hcorrect : i ≠ Fin.last 3 := fun e => hi (Finset.mem_singleton.mpr e)
      exact ⟨_, (auctionPoll_replied_iff i 1 _).mpr ⟨hcorrect, rfl, rfl⟩⟩
    exact absurd (((hsafe 3).mp h).nothingRead (by decide) 1 hbacked) (by decide)

end NovaBank.Proxy
