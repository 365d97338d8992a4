import NovaBank.Java.Split
import NovaBank.Proxy.Entities

/-!
# Bids as texts

`BidEntity` of both modules has a `toString` method and a constructor that reads a text, and
`AuctionEntity` has one that reads the texts of bids with ` | ` between them. The text of the proxy
has no ` , ` before the amount, where its constructor splits it; the text of the replicas has the
timestamp in its third part, and the constructor looks for it in the second one.

`bid_text_throws`: no text of a bid can be read by the class that has written it, and no list of bids.
-/

namespace NovaBank

open Java

/-! ## The text of the replicas -/

namespace Replica

open Proxy.Entities (readLong part)

namespace BidEntity

/-- `toString()`. -/
def toString (b : BidEntity) : String :=
  "bid#" ++ Long.toText b.id ++ "[" ++ "username: " ++ JString.toText b.username ++ " , " ++
    "amount: " ++ Long.toText b.amount ++ " , " ++ "timestamp: " ++ Long.toText b.timestamp ++ "]"

/-- `new BidEntity(bidString)`. -/
def ofString (bidString : String) : Except JavaException BidEntity := do
  let id ← readLong (← part "#" (← part "[" bidString 0) 1)
  let username ← part "username: " (← part " , " (← part "[" bidString 1) 0) 1
  let amount ← readLong (← part "amount: " (← part " , " (← part "[" bidString 1) 1) 1)
  let timestamp ← readLong
    (← part "timestamp: " (← part "]" (← part " , " (← part "[" bidString 1) 1) 0) 1)
  return ⟨id, some username, amount, timestamp⟩

end BidEntity

/-- `new AuctionEntity(id, ownerUsername, state, bidsString)`, which ignores the state. -/
def AuctionEntity.ofStrings (id ownerUsername : JString) (bidsString : String) :
    Except JavaException AuctionEntity := do
  let id ← readLong id
  let bids ← (split " | " bidsString).foldlM
    (fun (bids : Bids) bidFromAuction => do return bids.put (← BidEntity.ofString bidFromAuction))
    KeyedMap.empty
  return ⟨some id, ownerUsername, false, bids⟩

end Replica

/-! ## Reading -/

namespace Ledger

open Proxy.Entities (readLong part)
open Replica (JString JLong)

/-- A name in which nothing of the format occurs. -/
def Clean (name : String) : Prop :=
  (∀ c ∈ ['[', ']', '#', '|', ','], c ∉ name.toList) ∧
    ∀ t ∈ ["username: ", "amount: ", "timestamp: "], ¬ t.toList <:+: name.toList

section Parts

/-- The characters at which the texts are split first. -/
def marks : List Char := ['[', '|', ',']

/-- A property of the marks, one by one. -/
theorem forall_marks {P : Char → Prop} (h : P '[' ∧ P '|' ∧ P ',') : ∀ c ∈ marks, P c := by
  simpa [marks] using h

/-- A text with something at its end is not empty. -/
theorem append_ne_empty {s t : String} (ht : t ≠ "") : s ++ t ≠ "" := by
  simp [ht]

/-- A character that is in neither of two texts is not in both together. -/
theorem not_mem_append {s t : String} {c : Char} (hs : c ∉ s.toList) (ht : c ∉ t.toList) :
    c ∉ (s ++ t).toList := by
  rw [String.toList_append, List.mem_append, not_or]
  exact ⟨hs, ht⟩

/-- A number has digits and a sign only. -/
theorem not_mem_longToText {c : Char} (hdigit : c.isDigit = false) (hsign : c ≠ '-') (v : Int64) :
    c ∉ (Long.toText v).toList := by
  intro h
  rcases mem_toString h with h | h
  · exact hsign h
  · exact absurd h (by simp [hdigit])

/-- Numbers have none of the marks. -/
theorem not_mem_toText {c : Char} (hc : c ∈ marks) (v : JLong) : c ∉ (JLong.toText v).toList := by
  have hmarks : ∀ c ∈ marks, c.isDigit = false ∧ c ≠ '-' ∧ c ∉ "null".toList :=
    forall_marks (by decide)
  obtain ⟨hdigit, hsign, hnull⟩ := hmarks c hc
  cases v with
  | none => exact hnull
  | some v => exact not_mem_longToText hdigit hsign v

/-- Clean names have none of them. -/
theorem Clean.not_mem {name : String} (h : Clean name) {c : Char} (hc : c ∈ marks) :
    c ∉ name.toList := by
  have hmarks : ∀ c ∈ marks, c ∈ ['[', ']', '#', '|', ','] := forall_marks (by decide)
  exact h.1 c (hmarks c hc)

/-- The part behind the only bracket. -/
theorem part_bracket {first last : String} (hfirst : '[' ∉ first.toList) (hlast : '[' ∉ last.toList)
    (hne : last ≠ "") : part "[" (first ++ "[" ++ last) 1 = .ok last := by
  have hsplit : split "[" (first ++ "[" ++ last) = [first, last] := by
    refine split_rejoin_of_unbroken (by decide) [] (fun q hq => ?_) hne
    refine Unbroken.of_begins (by decide) (fun c hc h => ?_) _
    obtain rfl : '[' = c := by simpa using h
    rcases List.mem_pair.mp hq with rfl | rfl
    · exact hfirst hc
    · exact hlast hc
  rw [part, hsplit]
  rfl

/-- There is no second part of a text without the separator. -/
theorem part_one_of_not_mem {sep s : String} {c : Char} (hsep : c ∈ sep.toList) (hs : c ∉ s.toList) :
    part sep s 1 = .error .indexOutOfBounds := by
  rw [part, split_of_not_mem hsep hs]
  rfl

/-- The second of three parts. -/
theorem part_two_of_three {a b c : String} (ha : ',' ∉ a.toList) (hb : ',' ∉ b.toList)
    (hc : ',' ∉ c.toList) (hne : c ≠ "") :
    part " , " (a ++ " , " ++ b ++ " , " ++ c) 1 = .ok b := by
  have hsplit : split " , " (a ++ " , " ++ b ++ " , " ++ c) = [a, b, c] := by
    refine split_rejoin_of_unbroken (by decide) [b] (fun q hq => ?_) hne
    refine Unbroken.of_second (by decide : ' ' ≠ ',') ?_
    simp only [List.cons_append, List.nil_append, List.mem_cons, List.not_mem_nil, or_false] at hq
    rcases hq with rfl | rfl | rfl
    · exact ha
    · exact hb
    · exact hc
  rw [part, hsplit]
  rfl

/-- The first text of a list is read first, and so an exception of it is one of the list. -/
theorem foldlM_throws {β σ : Type} {first : String} {e : JavaException}
    (read : String → Except JavaException β) (put : σ → β → σ) (init : σ)
    (hbar : '|' ∉ first.toList) (hne : first ≠ "") (hfirst : read first = .error e)
    (rest : List String) :
    (split " | " (rejoin " | " first rest)).foldlM
      (fun s t => do return put s (← read t)) init = (.error e : Except JavaException σ) := by
  have hunbroken : Unbroken " | ".toList first.toList " | ".toList :=
    .of_second (by decide : ' ' ≠ '|') hbar
  obtain ⟨rest', hrest'⟩ := exists_split_rejoin (by decide) hne hunbroken rest
  rw [hrest', List.foldlM_cons, hfirst]
  rfl

end Parts

/-! ## The texts of the proxy -/

namespace ProxyText

open Proxy.Entities

/-- What stands behind the bracket. -/
def body (b : BidEntity) : String :=
  "username: " ++ JString.toText b.username ++ "amount: " ++ JLong.toText b.amount ++ "]"

/-- The text of a bid up to its bracket, and the rest. -/
theorem toString_eq (b : BidEntity) :
    b.toString = "bid#" ++ JLong.toText b.id ++ "[" ++ body b := by
  unfold BidEntity.toString body
  repeat rw [← String.append_assoc]

variable {b : BidEntity}

/-- The rest has no mark when the name has none. -/
theorem not_mem_body (h : Clean (JString.toText b.username)) {c : Char} (hc : c ∈ marks) :
    c ∉ (body b).toList := by
  have hwords : ∀ c ∈ marks, c ∉ "username: ".toList ∧ c ∉ "amount: ".toList ∧ c ∉ "]".toList :=
    forall_marks (by decide)
  obtain ⟨hname, hamount, hend⟩ := hwords c hc
  have hbegin := not_mem_append (not_mem_append hname (h.not_mem hc)) hamount
  exact not_mem_append (not_mem_append hbegin (not_mem_toText hc b.amount)) hend

/-- The part with the amount is missing. -/
theorem ofString_throws (h : Clean (JString.toText b.username)) :
    ∃ e, BidEntity.ofString b.toString = .error e := by
  have hfirst : '[' ∉ ("bid#" ++ JLong.toText b.id).toList :=
    not_mem_append (by decide) (not_mem_toText (by decide) b.id)
  have hbody : part "[" b.toString 1 = .ok (body b) := by
    rw [toString_eq]
    exact part_bracket hfirst (not_mem_body h (by decide)) (append_ne_empty (by decide))
  have hmissing : part " , " (body b) 1 = .error .indexOutOfBounds :=
    part_one_of_not_mem (c := ',') (by decide) (not_mem_body h (by decide))
  unfold BidEntity.ofString
  -- The id and the name are read first, in three steps each.
  iterate 6 refine exists_error_bind fun _ _ => ?_
  rw [hbody]
  refine exists_error_bind fun text htext => ?_
  obtain rfl : body b = text := Except.ok.inj htext
  rw [hmissing]
  exact ⟨_, rfl⟩

/-- The constructor of an auction throws on the texts of any bids, at the first one. -/
theorem ofStrings_throws (h : Clean (JString.toText b.username)) (bs : List BidEntity)
    (id ownerUsername state : JString) :
    ∃ e, AuctionEntity.ofStrings id ownerUsername state
      (rejoin " | " b.toString (bs.map BidEntity.toString)) = .error e := by
  -- The separator of the list is not in the text of a bid, so the first piece is the whole text.
  have hbar : '|' ∉ b.toString.toList := by
    have hid := not_mem_append (by decide : '|' ∉ "bid#".toList) (not_mem_toText (by decide) b.id)
    rw [toString_eq]
    exact not_mem_append (not_mem_append hid (by decide)) (not_mem_body h (by decide))
  obtain ⟨e, he⟩ := ofString_throws h
  unfold AuctionEntity.ofStrings
  refine exists_error_bind fun v _ => ?_
  rw [foldlM_throws BidEntity.ofString KeyedMap.put KeyedMap.empty hbar
    (append_ne_empty (by decide)) he]
  exact ⟨e, rfl⟩

end ProxyText

/-! ## The texts of the replicas -/

namespace ReplicaText

open Replica

/-- The three parts behind the bracket. -/
def username (b : BidEntity) : String := "username: " ++ JString.toText b.username

/-- The second part of the text. -/
def amount (b : BidEntity) : String := "amount: " ++ Long.toText b.amount

/-- The third part of the text, with the bracket that closes it. -/
def timestamp (b : BidEntity) : String := "timestamp: " ++ Long.toText b.timestamp ++ "]"

/-- The text of a bid in its three parts. -/
theorem toString_eq (b : BidEntity) :
    b.toString = "bid#" ++ Long.toText b.id ++ "[" ++
      (username b ++ " , " ++ amount b ++ " , " ++ timestamp b) := by
  unfold BidEntity.toString username amount timestamp
  repeat rw [← String.append_assoc]

variable {b : BidEntity}

/-- No part has a mark when the name has none. -/
theorem not_mem_parts (h : Clean (JString.toText b.username)) {c : Char} (hc : c ∈ marks) :
    c ∉ (username b).toList ∧ c ∉ (amount b).toList ∧ c ∉ (timestamp b).toList := by
  have hwords : ∀ c ∈ marks, c ∉ "username: ".toList ∧ c ∉ "amount: ".toList ∧
      c ∉ "timestamp: ".toList ∧ c ∉ "]".toList :=
    forall_marks (by decide)
  obtain ⟨hname, hamount, htime, hend⟩ := hwords c hc
  exact ⟨not_mem_append hname (h.not_mem hc), not_mem_append hamount (not_mem_toText hc (some b.amount)),
    not_mem_append (not_mem_append htime (not_mem_toText hc (some b.timestamp))) hend⟩

/-- The second part has no timestamp. -/
theorem ofString_throws (h : Clean (JString.toText b.username)) :
    ∃ e, BidEntity.ofString b.toString = .error e := by
  have hfirst : '[' ∉ ("bid#" ++ Long.toText b.id).toList :=
    not_mem_append (by decide) (not_mem_toText (by decide) (some b.id))
  have hbody : part "[" b.toString 1 =
      .ok (username b ++ " , " ++ amount b ++ " , " ++ timestamp b) := by
    obtain ⟨hname, hamount, htime⟩ := not_mem_parts h (c := '[') (by decide)
    rw [toString_eq]
    refine part_bracket hfirst ?_ (append_ne_empty (append_ne_empty (by decide)))
    have hbegin := not_mem_append (not_mem_append hname (by decide : '[' ∉ " , ".toList)) hamount
    exact not_mem_append (not_mem_append hbegin (by decide)) htime
  have hsecond : part " , " (username b ++ " , " ++ amount b ++ " , " ++ timestamp b) 1 =
      .ok (amount b) := by
    obtain ⟨hname, hamount, htime⟩ := not_mem_parts h (c := ',') (by decide)
    exact part_two_of_three hname hamount htime (append_ne_empty (by decide))
  have hlast : part "]" (amount b) 0 = .ok (amount b) := by
    have hend : ']' ∉ (amount b).toList :=
      not_mem_append (by decide) (not_mem_longToText (by decide) (by decide) b.amount)
    rw [part, split_of_not_mem (c := ']') (by decide) hend]
    rfl
  have hmissing : part "timestamp: " (amount b) 1 = .error .indexOutOfBounds := by
    have hs : 's' ∉ (amount b).toList :=
      not_mem_append (by decide) (not_mem_longToText (by decide) (by decide) b.amount)
    exact part_one_of_not_mem (by decide) hs
  unfold BidEntity.ofString
  -- The id and the name are read first, in three steps each, and then the amount in four.
  iterate 10 refine exists_error_bind fun _ _ => ?_
  rw [hbody]
  refine exists_error_bind fun text htext => ?_
  obtain rfl := Except.ok.inj htext
  rw [hsecond]
  refine exists_error_bind fun second hsecond => ?_
  obtain rfl : amount b = second := Except.ok.inj hsecond
  rw [hlast]
  refine exists_error_bind fun last hlast => ?_
  obtain rfl : amount b = last := Except.ok.inj hlast
  rw [hmissing]
  exact ⟨_, rfl⟩

/-- The constructor of an auction throws on the texts of any bids, at the first one. -/
theorem ofStrings_throws (h : Clean (JString.toText b.username)) (bs : List BidEntity)
    (id ownerUsername : JString) :
    ∃ e, AuctionEntity.ofStrings id ownerUsername
      (rejoin " | " b.toString (bs.map BidEntity.toString)) = .error e := by
  -- The separator of the list is not in the text of a bid, so the first piece is the whole text.
  have hbar : '|' ∉ b.toString.toList := by
    obtain ⟨hname, hamount, htime⟩ := not_mem_parts h (c := '|') (by decide)
    rw [toString_eq]
    have hid := not_mem_append (by decide : '|' ∉ "bid#".toList)
      (not_mem_toText (by decide) (some b.id))
    have hbegin := not_mem_append (not_mem_append hname (by decide : '|' ∉ " , ".toList)) hamount
    exact not_mem_append (not_mem_append hid (by decide))
      (not_mem_append (not_mem_append hbegin (by decide)) htime)
  obtain ⟨e, he⟩ := ofString_throws h
  unfold AuctionEntity.ofStrings
  refine exists_error_bind fun v _ => ?_
  rw [foldlM_throws BidEntity.ofString KeyedMap.put KeyedMap.empty hbar
    (append_ne_empty (by decide)) he]
  exact ⟨e, rfl⟩

end ReplicaText

/-! ## No text is read back -/

/-- **Bids do not come back from their texts:** whatever the ids, the amounts and the times are, and
for every clean name, the constructor of a module throws on the text of a bid of the same module, and
so it does on the texts of any bids with ` | ` between them. -/
theorem bid_text_throws (b : Proxy.Entities.BidEntity) (bs : List Proxy.Entities.BidEntity)
    (c : Replica.BidEntity) (cs : List Replica.BidEntity)
    (hb : ∀ x ∈ b :: bs, Clean (JString.toText x.username))
    (hc : ∀ x ∈ c :: cs, Clean (JString.toText x.username)) (id ownerUsername state : JString) :
    (∃ e, Proxy.Entities.BidEntity.ofString b.toString = .error e) ∧
    (∃ e, Proxy.Entities.AuctionEntity.ofStrings id ownerUsername state
      (rejoin " | " b.toString (bs.map Proxy.Entities.BidEntity.toString)) = .error e) ∧
    (∃ e, Replica.BidEntity.ofString c.toString = .error e) ∧
    ∃ e, Replica.AuctionEntity.ofStrings id ownerUsername
      (rejoin " | " c.toString (cs.map Replica.BidEntity.toString)) = .error e :=
  ⟨ProxyText.ofString_throws (hb b List.mem_cons_self),
    ProxyText.ofStrings_throws (hb b List.mem_cons_self) bs id ownerUsername state,
    ReplicaText.ofString_throws (hc c List.mem_cons_self),
    ReplicaText.ofStrings_throws (hc c List.mem_cons_self) cs id ownerUsername⟩

/-- The two names of the following bids are clean. -/
theorem clean_names : Clean "alice" ∧ Clean "bob" := by
  simp only [Clean, List.forall_mem_cons, List.not_mem_nil, false_implies, implies_true, and_true]
  decide

/-- The bids of `alice` over 10 and of `bob` over 11, alone and together. -/
theorem bid_text_throws_alice :
    let b : Proxy.Entities.BidEntity := ⟨some 0, some "alice", some 10, some 1⟩
    let b' : Proxy.Entities.BidEntity := ⟨some 1, some "bob", some 11, some 2⟩
    let c : Replica.BidEntity := ⟨0, some "alice", 10, 1⟩
    let c' : Replica.BidEntity := ⟨1, some "bob", 11, 2⟩
    Clean "alice" ∧ Clean "bob" ∧
      (∃ e, Proxy.Entities.BidEntity.ofString b.toString = .error e) ∧
      (∃ e, Proxy.Entities.AuctionEntity.ofStrings (some "7") (some "carol") (some "opened")
        (b.toString ++ " | " ++ b'.toString) = .error e) ∧
      (∃ e, Replica.BidEntity.ofString c.toString = .error e) ∧
      ∃ e, Replica.AuctionEntity.ofStrings (some "7") (some "carol")
        (c.toString ++ " | " ++ c'.toString) = .error e := by
  intro b b' c c'
  have hclean : ∀ username ∈ [some "alice", some "bob"], Clean (JString.toText username) := by
    simpa [JString.toText] using clean_names
  exact ⟨clean_names.1, clean_names.2, bid_text_throws b [b'] c [c'] (by simpa [b, b'] using hclean)
    (by simpa [c, c'] using hclean) (some "7") (some "carol") (some "opened")⟩

/-- **Texts that cannot be read:** the bid of `alice` over 10 is written with nothing between the name
and the amount by the proxy, and with the timestamp as its third part by the replicas. Both
constructors throw. -/
theorem bid_text_lost :
    (Proxy.Entities.BidEntity.mk (some 0) (some "alice") (some 10) (some 1)).toString =
        "bid#0[username: aliceamount: 10]" ∧
      Proxy.Entities.BidEntity.ofString "bid#0[username: aliceamount: 10]" =
        .error .indexOutOfBounds ∧
      (Replica.BidEntity.mk 0 (some "alice") 10 1).toString =
        "bid#0[username: alice , amount: 10 , timestamp: 1]" ∧
      Replica.BidEntity.ofString "bid#0[username: alice , amount: 10 , timestamp: 1]" =
        .error .indexOutOfBounds := by
  decide

end Ledger

end NovaBank
