import NovaBank.Proxy.Reply

/-!
# Delivery of the replies

The `ServiceProxy` of the library compares each reply that arrives with those received before, and
at the first moment at which `2 f + 1` replies compare equal to the last one it calls the extractor,
whose result is final. All correct replicas send the same content, and at most `f` of the `3 f + 1`
replicas are Byzantine.

Such a replica can still block the request. `compare` throws on a reply that is shorter than a
signature and on one whose first object is `null`. And the extractor, which counts the valid
signatures among all replies received so far, answers `null` when a reply with an invalid signature
has helped to reach the quorum. `delivery_iff`: the proxy obtains the content exactly when nothing
of that kind is among the replies up to the decisive one.
-/

namespace NovaBank.Proxy

open Java Replica

section Deliver

variable (w : Wire) {n : ℕ} (content : Fin n → Content)

/-- The number of replies that compare equal to that of `x`, itself included. -/
def sameContent (x : Fin n) : List (Fin n) → Except JavaException ℕ
  | [] => .ok 1
  | i :: is => do
    let order ← w.compare (content i) (content x)
    let same ← sameContent x is
    return if order = 0 then same + 1 else same

/-- The replies of some replicas. -/
def repliesOf (is : List (Fin n)) (i : Fin n) : Option Content :=
  if i ∈ is then some (content i) else none

/-- The delivery of replies after those of `received`: the result of the extractor at the first
quorum, `none` without one. -/
def deliver (f : ℕ) : (received arriving : List (Fin n)) → Except JavaException (Option (Option Bytes))
  | _, [] => .ok none
  | received, x :: arriving => do
    let same ← sameContent w content x received
    if 2 * f + 1 ≤ same then
      return some (← w.extractResponse f (repliesOf content (received ++ [x])) x)
    else deliver f (received ++ [x]) arriving

end Deliver

/-! ## Replies that make the comparison fail -/

/-- Two replies, in the order of their arrival, whose comparison fails: one is too short for a
signature, or the read of a first object fails with an exception other than those of the stream, or
the first object of the earlier one is `null`. -/
def Clash (w : Wire) : Content → Content → Prop
  | some a, some b =>
    match withoutSignature a, withoutSignature b with
    | .ok x, .ok y =>
      match w.readFirsts x y with
      | .ok (s1, _) => s1 = .null
      | .error e => e.isStream = false
    | _, _ => True
  | _, _ => False

/-- The comparison of two replies fails exactly when they clash. -/
theorem compare_isOk_iff {w : Wire} {c d : Content} :
    (∃ order, w.compare c d = .ok order) ↔ ¬ Clash w c d := by
  cases c with
  | none => simp [Wire.compare, Clash]
  | some a =>
    cases d with
    | none => simp [Wire.compare, Clash]
    | some b =>
      cases hx : withoutSignature a with
      | error e => simp [Wire.compare, Clash, hx, bind, Except.bind]
      | ok x =>
        cases hy : withoutSignature b with
        | error e => simp [Wire.compare, Clash, hx, hy, bind, Except.bind]
        | ok y =>
          rw [Wire.compare_some hx hy]
          simp only [Clash, hx, hy]
          -- An exception of the stream is caught by the comparison, any other one is not.
          cases w.readFirsts x y with
          | error e =>
            cases he : e.isStream <;> simp [he]
          | ok s =>
            obtain ⟨s1, s2⟩ := s
            cases s1 <;> simp [equals, Except.map]

/-- Whether a reply is long enough and its content is like the payload of the correct replicas. -/
def isLike (w : Wire) (payload : Bytes) : Content → Bool
  | none => false
  | some a =>
    match withoutSignature a with
    | .error _ => false
    | .ok x => w.Alike payload x

section Like

variable {w : Wire} {jvm : Jvm} {payload : Bytes} {os : List ReplyObject}

/-- A content is like a payload when it is not `null`, its own payload can be cut out, and the two are
alike. -/
theorem isLike_iff {c : Content} :
    isLike w payload c = true ↔ ∃ a x, c = some a ∧ withoutSignature a = .ok x ∧ w.Alike payload x := by
  cases c with
  | none => simp [isLike]
  | some a => cases hx : withoutSignature a <;> simp [isLike, hx]

/-- A first object that the proxy reads from a correct reply is compared by its value. -/
theorem equals_self (hpayload : Written w payload (os.map (objectOf jvm))) {s : JObject}
    (hs : w.readFirst payload = .ok s) (hnull : s ≠ .null) : equals s s = .ok true := by
  obtain ⟨_, -, hread⟩ := bind_eq_ok hs
  rw [hpayload.reads 0, List.getElem?_map] at hread
  cases h0 : os[0]? with
  | none => simp [h0] at hread
  | some x =>
    rw [h0, Option.map_some] at hread
    -- The client does not have the class of a bid, and so it never reads one.
    cases x with
    | name u =>
      cases u with
      | none => exact absurd (Except.ok.inj hread).symm hnull
      | some u =>
        obtain rfl : JObject.str u = s := Except.ok.inj hread
        simp [equals]
    | json j =>
      obtain rfl : JObject.str (jvm.text j) = s := Except.ok.inj hread
      simp [equals]
    | long v =>
      obtain rfl : JObject.long v = s := Except.ok.inj hread
      simp [equals]
    | int v =>
      obtain rfl : JObject.int v = s := Except.ok.inj hread
      simp [equals]
    | bid b =>
      cases b with
      | none => exact absurd (Except.ok.inj hread).symm hnull
      | some b => cases hread

/-- Against a reply like the correct ones, exactly the replies like them compare equal, unless the
comparison fails. -/
theorem compare_like_iff (hpayload : Written w payload (os.map (objectOf jvm))) {c d : Content}
    (hd : isLike w payload d = true) (hclash : ¬ Clash w c d) :
    w.compare c d = .ok 0 ↔ isLike w payload c = true := by
  obtain ⟨b, y, rfl, hy, hpy⟩ := isLike_iff.mp hd
  rw [isLike_iff]
  constructor
  · intro h
    rcases Wire.alike_of_compare h with ⟨-, hnull⟩ | ⟨a, b', x, y', rfl, hb, hx, hy', hxy⟩
    · cases hnull
    · cases hb
      obtain rfl : y' = y := Except.ok.inj (hy'.symm.trans hy)
      exact ⟨a, x, rfl, hx, hpy.trans hxy.symm⟩
  · rintro ⟨a, x, rfl, hx, hpx⟩
    have hxy : w.Alike x y := hpx.symm.trans hpy
    rw [Wire.compare_some hx hy]
    simp only [Clash, hx, hy] at hclash
    cases hread : w.readFirsts x y with
    | ok s =>
      obtain ⟨s1, s2⟩ := s
      obtain ⟨h1, h2⟩ := Wire.readFirsts_eq_ok_iff.mp hread
      simp only [hread] at hclash
      -- Both begin with the first object of the payload.
      have hsame : s1 = s2 := by
        rcases hxy with rfl | ⟨s, hs1, hs2⟩
        · exact Except.ok.inj (h1.symm.trans h2)
        · rw [Except.ok.inj (h1.symm.trans hs1), Except.ok.inj (h2.symm.trans hs2)]
      have hpayload1 : w.readFirst payload = .ok s1 := by
        rcases hpx with rfl | ⟨s, hs, hs1⟩
        · exact h1
        · rw [hs, ← hs1, h1]
      subst hsame
      simp [equals_self hpayload hpayload1 hclash, Except.map]
    | error e =>
      simp only [hread] at hclash
      have heq : x = y := by
        rcases hxy with rfl | ⟨s, hs1, hs2⟩
        · rfl
        · rw [Wire.readFirsts_eq_ok_iff.mpr ⟨hs1, hs2⟩] at hread
          cases hread
      simp [hclash, heq]

end Like

/-! ## The run of the proxy -/

section Run

variable {w : Wire} {n : ℕ} {content : Fin n → Content}

/-- The count of equal replies, when no comparison fails. -/
theorem sameContent_eq {x : Fin n} {is : List (Fin n)}
    (h : ∀ i ∈ is, ¬ Clash w (content i) (content x)) :
    sameContent w content x is =
      .ok (is.countP (fun i => w.compare (content i) (content x) = .ok 0) + 1) := by
  induction is with
  | nil => rfl
  | cons i is ih =>
    obtain ⟨order, horder⟩ := compare_isOk_iff.mpr (h i (by simp))
    rw [sameContent, ih fun j hj => h j (List.mem_cons_of_mem i hj), horder, List.countP_cons]
    simp only [horder, Except.ok.injEq, decide_eq_true_eq]
    change Except.ok _ = _
    split_ifs <;> rfl

/-- The count fails when a comparison does. -/
theorem sameContent_error {x : Fin n} {is : List (Fin n)} {i : Fin n} (hi : i ∈ is)
    (h : Clash w (content i) (content x)) : ∀ k, sameContent w content x is ≠ .ok k := by
  induction is with
  | nil => cases hi
  | cons j is ih =>
    intro k hk
    obtain ⟨order, horder, hk⟩ := bind_eq_ok hk
    obtain ⟨same, hsame, -⟩ := bind_eq_ok hk
    rcases List.mem_cons.mp hi with rfl | hi
    · exact compare_isOk_iff.mp ⟨order, horder⟩ h
    · exact ih hi same hsame

/-- The valid replies among those received. -/
theorem card_validReplies_repliesOf {is : List (Fin n)} (hnd : is.Nodup) :
    (w.validReplies (repliesOf content is)).card =
      is.countP fun i : Fin n => w.isReplyValid i (content i) := by
  have h : w.validReplies (repliesOf content is) =
      (is.filter fun i : Fin n => w.isReplyValid i (content i)).toFinset := by
    ext i
    rw [Wire.validReplies, Finset.mem_filter, List.mem_toFinset, List.mem_filter, repliesOf]
    by_cases hi : i ∈ is <;> simp [hi]
  rw [h, List.toFinset_card_of_nodup (hnd.filter _), List.countP_eq_length_filter]

end Run

/-- The received replies decide for the payload: no two of them clash, enough of them have valid
signatures, and the last one has it as its content. -/
structure Decides (w : Wire) (f : ℕ) {n : ℕ} (content : Fin n → Content) (payload : Bytes)
    (received : List (Fin n)) : Prop where
  compares : received.Pairwise fun i j => ¬ Clash w (content i) (content j)
  signed : 2 * f + 1 ≤ received.countP fun i : Fin n => w.isReplyValid i (content i)
  last : ∃ last b, received.getLast? = some last ∧ content last = some b ∧
    withoutSignature b = .ok payload

/-- The extractor returns the payload at the moment of the last received reply. -/
theorem extract_iff {w : Wire} {f n : ℕ} {content : Fin n → Content} {payload : Bytes}
    {received : List (Fin n)} {x : Fin n} (hnd : (received ++ [x]).Nodup)
    (hclash : (received ++ [x]).Pairwise fun i j => ¬ Clash w (content i) (content j)) :
    (do return some (← w.extractResponse f (repliesOf content (received ++ [x])) x)) =
        (.ok (some (some payload)) : Except JavaException (Option (Option Bytes))) ↔
      Decides w f content payload (received ++ [x]) := by
  have hreturn : (do return some (← w.extractResponse f (repliesOf content (received ++ [x])) x)) =
        (.ok (some (some payload)) : Except JavaException (Option (Option Bytes))) ↔
      w.extractResponse f (repliesOf content (received ++ [x])) x = .ok (some payload) := by
    cases w.extractResponse f (repliesOf content (received ++ [x])) x <;>
      simp [bind, Except.bind, pure, Except.pure]
  have hlast : repliesOf content (received ++ [x]) x = some (content x) := by simp [repliesOf]
  rw [hreturn, Wire.extractResponse_eq_some_iff, card_validReplies_repliesOf hnd, hlast]
  -- Only the newest reply is compared with the others, and it is the last one of the list.
  constructor
  · rintro ⟨hvalid, b, hb, hpayload⟩
    exact ⟨hclash, hvalid, x, b, by simp, Option.some.inj hb, hpayload⟩
  · rintro ⟨-, hvalid, last, b, hx, hb, hpayload⟩
    obtain rfl : x = last := by simpa using hx
    exact ⟨hvalid, b, by rw [hb], hpayload⟩

section Quorum

variable {w : Wire} {jvm : Jvm} {f : ℕ} {byzantine : Finset (Fin (3 * f + 1))}
  {os : List ReplyObject} {payload : Bytes} {content : Fin (3 * f + 1) → Content}
  (few : byzantine.card ≤ f)
  (correct : ∀ i ∉ byzantine, ∃ signature, content i = some (payload ++ signature) ∧
    signature.length = signatureLength ∧ w.verify i payload signature = true)

include few correct

/-- A reply unlike the correct ones compares equal to those of Byzantine replicas only, so that it
never has a quorum. -/
theorem countP_unlike {x : Fin (3 * f + 1)} {is : List (Fin (3 * f + 1))} (hnd : (is ++ [x]).Nodup)
    (hx : isLike w payload (content x) = false) :
    is.countP (fun i => w.compare (content i) (content x) = .ok 0) + 1 ≤ f := by
  have hbyzantine : ∀ i, i ∈ is.filter (fun i => w.compare (content i) (content x) = .ok 0) ++ [x] →
      i ∈ byzantine := by
    intro i hi
    by_contra hcorrect
    obtain ⟨signature, hc, hlen, -⟩ := correct i hcorrect
    -- The content of a correct reply is like the payload, and so is what compares equal to it.
    have hlike : isLike w payload (content x) = true := by
      rw [isLike_iff]
      rcases List.mem_append.mp hi with hi | hi
      · have hcompare : w.compare (content i) (content x) = .ok 0 := by
          simpa using (List.mem_filter.mp hi).2
        rw [hc] at hcompare
        rcases Wire.alike_of_compare hcompare with ⟨hnull, -⟩ | ⟨a, b, y, z, ha, hb, hy, hz, halike⟩
        · cases hnull
        · cases ha
          rw [withoutSignature_append hlen] at hy
          cases hy
          exact ⟨b, z, hb, hz, halike⟩
      · obtain rfl := List.mem_singleton.mp hi
        exact ⟨_, payload, hc, withoutSignature_append hlen, .inl rfl⟩
    rw [hx] at hlike
    cases hlike
  have hsub : (is.filter (fun i => w.compare (content i) (content x) = .ok 0) ++ [x]).toFinset ⊆
      byzantine := fun i hi => hbyzantine i (List.mem_toFinset.mp hi)
  have hcard := Finset.card_le_card hsub
  rw [List.toFinset_card_of_nodup (hnd.sublist (List.filter_sublist.append_right [x])),
    List.length_append, List.length_singleton, ← List.countP_eq_length_filter] at hcard
  omega

/-- All correct replies are like the payload, so that a quorum of them arrives. -/
theorem quorum_le_countP {arrival : List (Fin (3 * f + 1))} (all : ∀ i ∉ byzantine, i ∈ arrival) :
    2 * f + 1 ≤ arrival.countP fun i => isLike w payload (content i) := by
  have hsub : byzantineᶜ ⊆ (arrival.filter fun i => isLike w payload (content i)).toFinset := by
    intro i hi
    have hcorrect := Finset.mem_compl.mp hi
    obtain ⟨signature, hc, hlen, -⟩ := correct i hcorrect
    rw [List.mem_toFinset, List.mem_filter]
    exact ⟨all i hcorrect, isLike_iff.mpr ⟨_, payload, hc, withoutSignature_append hlen, .inl rfl⟩⟩
  have hcard := (Finset.card_le_card hsub).trans (List.toFinset_card_le _)
  rw [Finset.card_compl, Fintype.card_fin, ← List.countP_eq_length_filter] at hcard
  omega

/-- The delivery after some replies that do not clash, of which fewer than a quorum are like the
payload. The induction is on the replies that arrive; `missing` are those that the quorum lacks. -/
theorem deliver_iff (hpayload : Written w payload (os.map (objectOf jvm)))
    (arriving : List (Fin (3 * f + 1))) {received : List (Fin (3 * f + 1))} {missing : ℕ}
    (hnd : (received ++ arriving).Nodup)
    (hclash : received.Pairwise fun i j => ¬ Clash w (content i) (content j))
    (hmissing : missing + 1 + received.countP (fun i => isLike w payload (content i)) = 2 * f + 1)
    (henough : missing + 1 ≤ arriving.countP fun i => isLike w payload (content i)) :
    deliver w content f received arriving = .ok (some (some payload)) ↔
      Decides w f content payload (received ++
        Quorum.upToNth (fun i => isLike w payload (content i)) (missing + 1) arriving) := by
  induction arriving generalizing received missing with
  | nil => simp at henough
  | cons x arriving ih =>
    have hnd' : ((received ++ [x]) ++ arriving).Nodup := by simpa using hnd
    by_cases hx : ∃ i ∈ received, Clash w (content i) (content x)
    · -- The comparison throws, and the two replies are among those up to the decisive one.
      obtain ⟨i, hi, hix⟩ := hx
      apply iff_of_false
      · intro h
        obtain ⟨same, hsame, -⟩ := bind_eq_ok h
        exact sameContent_error hi hix same hsame
      · intro h
        exact (List.pairwise_append.mp h.compares).2.2 i hi x (List.mem_cons_self ..) hix
    · have hx' : ∀ i ∈ received, ¬ Clash w (content i) (content x) := fun i hi h => hx ⟨i, hi, h⟩
      have hclash' : (received ++ [x]).Pairwise fun i j => ¬ Clash w (content i) (content j) := by
        rw [List.pairwise_append]
        exact ⟨hclash, List.pairwise_singleton _ _, fun i hi j hj => List.mem_singleton.mp hj ▸ hx' i hi⟩
      rw [deliver, sameContent_eq hx', Quorum.upToNth]
      change (if 2 * f + 1 ≤ _ then _ else _) = _ ↔ _
      cases hlike : isLike w payload (content x) with
      | false =>
        -- A reply unlike the payload has no quorum, and as many are missing as before.
        have hfew := countP_unlike few correct (hnd'.sublist (List.sublist_append_left _ _)) hlike
        rw [if_neg (by omega)]
        have hrest := @ih (received ++ [x]) missing hnd' hclash'
          (by simpa [hlike] using hmissing) (by simpa [hlike] using henough)
        simpa using hrest
      | true =>
        have hcount : received.countP (fun i => w.compare (content i) (content x) = .ok 0) =
            received.countP fun i => isLike w payload (content i) := by
          apply List.countP_congr
          intro i hi
          simpa using compare_like_iff hpayload hlike (hx' i hi)
        rw [hcount]
        cases missing with
        | zero =>
          -- The decisive reply.
          rw [if_pos (by omega), if_pos rfl, Quorum.upToNth]
          exact extract_iff hnd'.of_append_left hclash'
        | succ m =>
          rw [if_neg (by omega)]
          have hrest := @ih (received ++ [x]) m hnd' hclash'
            (by simp [hlike]; omega) (by simpa [hlike] using henough)
          simpa using hrest

end Quorum

/-- **When a faulty minority cannot block a request:** of `3 f + 1` replicas at most `f` are
Byzantine and send anything, or nothing, and the others send one payload with valid signatures. In
every order of arrival, the proxy obtains that payload exactly when the replies up to the `2 f +
1`st one that is like it decide for it: no two of them clash, at least `2 f + 1` of them have valid
signatures, and the last one has the payload as its content. -/
theorem delivery_iff (w : Wire) (jvm : Jvm) (f : ℕ) (byzantine : Finset (Fin (3 * f + 1)))
    (few : byzantine.card ≤ f) (os : List ReplyObject) (payload : Bytes)
    (written : Written w payload (os.map (objectOf jvm))) (content : Fin (3 * f + 1) → Content)
    (correct : ∀ i ∉ byzantine, ∃ signature, content i = some (payload ++ signature) ∧
      signature.length = signatureLength ∧ w.verify i payload signature = true)
    (arrival : List (Fin (3 * f + 1))) (once : arrival.Nodup) (all : ∀ i ∉ byzantine, i ∈ arrival) :
    deliver w content f [] arrival = .ok (some (some payload)) ↔
      Decides w f content payload
        (Quorum.upToNth (fun i => isLike w payload (content i)) (2 * f + 1) arrival) :=
  deliver_iff few correct written arrival once List.Pairwise.nil rfl
    (quorum_le_countP few correct all)

/-! ## A blocked request -/

/-- The payload of a reply with the name of a user. -/
def bobPayload : Bytes := streamHeader ++ stringBytes "bob"

/-- The replicas 0, 1 and 2 send that payload with their signatures. -/
theorem bobPayload_correct (other : Content) (i : Fin 4) (hi : i ∉ ({3} : Finset (Fin 4))) :
    ∃ signature, contentWith bobPayload other i = some (bobPayload ++ signature) ∧
      signature.length = signatureLength ∧ javaWire.verify i bobPayload signature = true :=
  ⟨_, contentWith_of_correct _ _ hi, List.length_replicate, by simp [javaWire]⟩

/-- **One faulty replica blocks a request:** when it sends an empty array first, or a stream that
begins with `null`, the next comparison throws; and when it sends the correct payload with a
signature that is not its own, the extractor is called with two valid signatures among three replies
and answers `null`. -/
theorem faulty_replica_blocks :
    (∀ other, ∀ i ∉ ({3} : Finset (Fin 4)), ∃ signature,
        contentWith bobPayload other i = some (bobPayload ++ signature) ∧
          signature.length = signatureLength ∧ javaWire.verify i bobPayload signature = true) ∧
      deliver javaWire (contentWith bobPayload (some [])) 1 [] [3, 0, 1, 2] =
        .error .negativeArraySize ∧
      deliver javaWire (contentWith bobPayload (some (signed 3 (streamHeader ++ [0x70])))) 1 []
        [3, 0, 1, 2] = .error .nullPointer ∧
      deliver javaWire (contentWith bobPayload (some (signed 0 bobPayload))) 1 [] [3, 0, 1, 2] =
        .ok (some none) :=
  ⟨bobPayload_correct, by decide +kernel, by decide +kernel, by decide +kernel⟩

/-- A reply of `null` blocks nothing. -/
theorem delivery_null_reply :
    deliver javaWire (contentWith bobPayload none) 1 [] [3, 0, 1, 2] = .ok (some (some bobPayload)) ∧
      Decides javaWire 1 (contentWith bobPayload none) bobPayload
        (Quorum.upToNth (fun i => isLike javaWire bobPayload (contentWith bobPayload none i)) 3
          [3, 0, 1, 2]) := by
  -- The null reply comes first, and is compared with the others without an error.
  have h : deliver javaWire (contentWith bobPayload none) 1 [] [3, 0, 1, 2] =
      .ok (some (some bobPayload)) := by
    decide +kernel
  have hwritten : Written javaWire bobPayload
      ([ReplyObject.name (some "bob")].map (objectOf (Jvm.plain (ContractClass.queueing [])))) :=
    written_javaWire 1 (by decide)
  exact ⟨h, (delivery_iff javaWire (Jvm.plain (ContractClass.queueing [])) 1 {3} (by decide) _
    bobPayload hwritten (contentWith bobPayload none) (bobPayload_correct none) [3, 0, 1, 2]
    (by decide) (by decide)).mp h⟩

end NovaBank.Proxy
