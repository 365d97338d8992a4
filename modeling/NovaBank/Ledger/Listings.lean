import NovaBank.Money.Escrow
import NovaBank.Proxy.Listing
import NovaBank.Replica.Runs

/-!
# What a listing decodes to

A listing is a number and then the elements, and the handler reads as many elements as the number
says. Both come from one map for the opened auctions and for the bids of an auction or of a user. But
the number before the closed auctions is that of the opened ones: with fewer opened auctions the list
is cut short, and with more of them the handler reads past the end and returns `null`.
`listing_decodes_iff`: the handler returns all of the elements and nothing else exactly when the
number is that of the elements, as an `int`.
-/

namespace NovaBank.Ledger

open Java Replica Money Proxy

/-! ## The counted loop -/

/-- How often a loop up to the size `n` runs, which is an `int`. -/
def loops (n : ℕ) : ℕ := (Int32.ofNat n).toNatClampNeg

/-- A loop runs `n` times exactly when `n` is an `int`. -/
theorem loops_eq_iff (n : ℕ) : loops n = n ↔ n < 2^31 := by
  constructor
  · intro h
    rw [← h]
    exact Int32.toNatClampNeg_lt _
  · exact Int32.toNatClampNeg_ofNat_of_lt

/-! ## The listings -/

/-- The JSON of every element of the map that a listing is about, if there is such a map. -/
def elements (s : BankRepository) : Listing → Option (List Json)
  | .openedAuctions => some (s.openedAuctions.values.map fun e => .auction (s.auction e.2))
  | .closedAuctions => some (s.closedAuctions.values.map fun e => .auction (s.auction e.2))
  | .bidsFromAuction auctionID => (s.findByAuctionID auctionID).map fun r =>
      (s.auction r).bids.values.map fun b => .object b.getJSON
  | .bidsFromUser who => (s.findByUserName who).map fun u => u.bids.values.map fun b => .object b.getJSON
  | .accounts _ => none

/-- The number of a listing is that of its elements: there are not more than an `int` can count, and
for the closed auctions there are as many as opened ones. -/
def Counted (s : BankRepository) : Listing → Prop
  | .openedAuctions => s.openedAuctions.size < 2^31
  | .closedAuctions => s.closedAuctions.size = loops s.openedAuctions.size
  | .bidsFromUser who => ∀ u, s.findByUserName who = some u → u.bids.size < 2^31
  -- An auction has one bid at most.
  | .bidsFromAuction _ | .accounts _ => True

/-- `new JSONObject(text)` on what `org.json` has printed for a value gives the JSON `value` of it.
-/
structure ReadsPrinted {J : Type} (jvm : Jvm) (p : JsonParser J) (value : Json → J) : Prop where
  object : ∀ o, p.object (jvm.text (.object o)) = .ok (value (.object o))
  auction : ∀ a, p.object (jvm.text (.auction a)) = .ok (value (.auction a))

section Listings

variable {jvm : Jvm} {s : BankRepository} {l : Listing} {es : List Json}

/-- The reply to a listing: the size of a map and the elements in the order of an iteration. -/
theorem answer_listing (jvm : Jvm) (h : Indexed s) (hes : elements s l = some es) :
    ∃ (n : ℕ) (js : List Json), BankService.answer jvm s l.query =
        .ok (some (.int (Int32.ofNat n) :: js.map ReplyObject.json)) ∧
      js.Perm es ∧ (loops n = es.length ↔ Counted s l) := by
  cases l with
  | accounts myHash => cases hes
  | openedAuctions =>
    cases hes
    refine ⟨s.openedAuctions.size, (s.openedAuctionsIterator jvm).map .auction, ?_, ?_, ?_⟩
    · simp [Listing.query, BankService.answer, BankRepository.getNumOpenedAuctions, Function.comp_def]
    · rw [BankRepository.openedAuctionsIterator, List.map_map]
      exact (inOrder_perm jvm s.openedAuctions).map _
    · rw [List.length_map]
      exact loops_eq_iff s.openedAuctions.size
  -- The closed auctions are announced with the number of the opened ones.
  | closedAuctions =>
    cases hes
    refine ⟨s.openedAuctions.size, (s.closedAuctionsIterator jvm).map .auction, ?_, ?_, ?_⟩
    · simp [Listing.query, BankService.answer, BankRepository.getNumOpenedAuctions, Function.comp_def]
    · rw [BankRepository.closedAuctionsIterator, List.map_map]
      exact (inOrder_perm jvm s.closedAuctions).map _
    · rw [List.length_map]
      exact eq_comm
  | bidsFromAuction auctionID =>
    obtain ⟨r, hr, rfl⟩ := Option.map_eq_some_iff.mp hes
    refine ⟨(s.auction r).bids.size,
      (s.findAllBidsFromAuction jvm r).map fun b => .object b.getJSON, ?_, ?_, ?_⟩
    · simp [Listing.query, BankService.answer, hr, Function.comp_def]
    · exact (inOrder_perm jvm (s.auction r).bids).map _
    -- An auction holds one bid at most, so the number cannot overflow.
    · have hsmall : (s.auction r).bids.size < 2^31 := by
        rcases standing_cases h hr with hv | ⟨b, hv, -⟩ <;> simp [KeyedMap.size, hv]
      rw [List.length_map]
      exact iff_of_true ((loops_eq_iff _).mpr hsmall) trivial
  | bidsFromUser who =>
    obtain ⟨u, hu, rfl⟩ := Option.map_eq_some_iff.mp hes
    refine ⟨u.bids.size,
      (BankRepository.findAllBidsFromUser jvm u).map fun b => .object b.getJSON, ?_, ?_, ?_⟩
    · simp [Listing.query, BankService.answer, hu, Function.comp_def]
    · exact (inOrder_perm jvm u.bids).map _
    · rw [List.length_map, Counted, hu]
      simp only [Option.some.injEq, forall_eq']
      exact loops_eq_iff u.bids.size

/-- An element of a listing is a plain object or an auction. -/
theorem element_cases (hes : elements s l = some es) {j : Json} (hj : j ∈ es) :
    (∃ o, j = .object o) ∨ ∃ a, j = .auction a := by
  -- An auction is printed as it is, and a bid as its own object.
  cases l with
  | accounts myHash => cases hes
  | openedAuctions | closedAuctions =>
    cases hes
    obtain ⟨e, -, rfl⟩ := List.mem_map.mp hj
    exact .inr ⟨_, rfl⟩
  | bidsFromAuction auctionID =>
    obtain ⟨r, -, rfl⟩ := Option.map_eq_some_iff.mp hes
    obtain ⟨b, -, rfl⟩ := List.mem_map.mp hj
    exact .inl ⟨_, rfl⟩
  | bidsFromUser who =>
    obtain ⟨u, -, rfl⟩ := Option.map_eq_some_iff.mp hes
    obtain ⟨b, -, rfl⟩ := List.mem_map.mp hj
    exact .inl ⟨_, rfl⟩

/-- The elements of a listing are read back from their texts. -/
theorem reads_elements {J : Type} {p : JsonParser J} {value : Json → J}
    (printed : ReadsPrinted jvm p value) (hes : elements s l = some es) :
    ∀ j ∈ es, p.object (jvm.text j) = .ok (value j) := by
  intro j hj
  rcases element_cases hes hj with ⟨o, rfl⟩ | ⟨a, rfl⟩
  · exact printed.object o
  · exact printed.auction a

/-- What the handler reads after the number: as many elements as the number says, if there are. -/
theorem elementsAfter_eq {J : Type} {w : Wire} {p : JsonParser J} {value : Json → J} {n : ℕ}
    {js : List Json} {payload : Bytes} (hread : ∀ j ∈ js, p.object (jvm.text j) = .ok (value j))
    (hwritten : Written w payload
      ((.int (Int32.ofNat n) :: js.map ReplyObject.json).map (objectOf jvm))) :
    elementsAfter w p (Int32.ofNat n) payload =
      if loops n ≤ js.length then .ok (.list ((js.take (loops n)).map value)) else .error .io := by
  -- The first object is the number, and the elements follow it.
  have helement : ∀ k, (do
      let text ← textOf (← w.readObject payload (k + 1))
      p.object text) = (js[k]?).elim (.error .io) fun j => p.object (jvm.text j) := by
    intro k
    have hk := hwritten.reads (k + 1)
    simp only [List.map_cons, List.getElem?_cons_succ, List.getElem?_map] at hk
    cases hj : js[k]? <;> rw [hj] at hk <;> rw [hk] <;> rfl
  rw [elementsAfter, mapM_range helement, mapM_of_ok hread,
    mapM_of_ok fun j hj => hread j (List.mem_of_mem_take hj)]
  show (if loops n ≤ js.length then _ else _ : Except JavaException (List J)).bind _ = _
  split_ifs <;> rfl

/-- The handler of a listing goes on with the elements. -/
theorem after_eq_elementsAfter {J : Type} (w : Wire) (p : JsonParser J)
    (hes : elements s l = some es) : l.after w p = elementsAfter w p := by
  cases l with
  | accounts myHash => cases hes
  | openedAuctions | closedAuctions | bidsFromAuction auctionID | bidsFromUser who => rfl

/-- What the handler decodes from the elements of a map in any order, after a number. -/
theorem decode_elements {J : Type} {w : Wire} {p : JsonParser J} {value : Json → J} {n : ℕ}
    {js : List Json} {payload : Bytes} (hes : elements s l = some es)
    (hread : ∀ j ∈ js, p.object (jvm.text j) = .ok (value j))
    (hwritten : Written w payload
      ((.int (Int32.ofNat n) :: js.map ReplyObject.json).map (objectOf jvm))) :
    l.decode w p payload =
      if loops n ≤ js.length then .ok (.list ((js.take (loops n)).map value)) else .ok .null := by
  have hfirst : w.readFirst payload = .ok (.int (Int32.ofNat n)) :=
    hwritten.readFirst (by simp [objectOf])
  rw [Listing.decode_of_readFirst p l hfirst, after_eq_elementsAfter w p hes,
    elementsAfter_eq hread hwritten]
  split_ifs <;> rfl

/-- As many elements are read as there are exactly when the number is theirs. -/
theorem take_perm_iff {J : Type} (value : Json → J) {n : ℕ} {js : List Json} (hperm : js.Perm es) :
    (loops n ≤ js.length ∧ ((js.take (loops n)).map value).Perm (es.map value)) ↔
      loops n = es.length := by
  constructor
  · rintro ⟨hle, htake⟩
    have hlength := htake.length_eq
    simp only [List.length_map, List.length_take, ← hperm.length_eq] at hlength
    rw [← hperm.length_eq]
    omega
  · intro hn
    rw [hn, ← hperm.length_eq, List.take_length]
    exact ⟨le_rfl, hperm.map value⟩

end Listings

/-- **What a listing decodes to:** `value` is the JSON that the proxy reads from a printed value.
After every run, a request for a listing that is about a map of the repository is answered with a
reply, and its handler returns the JSON of every element of the map, each once and nothing else,
exactly when the number of the reply is that of the elements. -/
theorem listing_decodes_iff {J : Type} (w : Wire) (p : JsonParser J) (jvm : Jvm) (value : Json → J)
    (printed : ReadsPrinted jvm p value) (xs : List Action) (l : Listing) (es : List Json)
    (hes : elements (reached jvm xs) l = some es) (command : Command)
    (hcommand : decodeUnordered command = .ok l.query) :
    ∃ os, ((BankService.new.runAll jvm xs).access jvm (.unordered command)).1 = .ok (some os) ∧
      ∀ payload, Written w payload (os.map (objectOf jvm)) →
        ((∃ list, l.decode w p payload = .ok (.list list) ∧ list.Perm (es.map value)) ↔
          Counted (reached jvm xs) l) := by
  obtain ⟨n, js, hanswer, hperm, hcounted⟩ := answer_listing jvm (reached_indexed xs) hes
  have haccess := BankService.access_of_answer jvm (BankService.new.runAll jvm xs) hcommand hanswer
  refine ⟨_, congrArg Prod.fst haccess, fun payload hwritten => ?_⟩
  have hread : ∀ j ∈ js, p.object (jvm.text j) = .ok (value j) := fun j hj =>
    reads_elements printed hes j (hperm.mem_iff.mp hj)
  -- The client reads as many elements as the number says.
  rw [← hcounted, decode_elements hes hread hwritten, ← take_perm_iff value hperm]
  constructor
  · rintro ⟨list, hlist, hlistPerm⟩
    split_ifs at hlist with hle
    · cases hlist
      exact ⟨hle, hlistPerm⟩
    · cases hlist
  · rintro ⟨hle, htake⟩
    exact ⟨_, if_pos hle, htake⟩

/-! ## The closed auctions -/

/-- The text of the auction 1 after it is closed. -/
def closedText : String :=
  "\x7b\"ownerUsername\":\"alice\",\"bids\":\x7b\x7d,\"id\":1,\"isClosed\":true\x7d"

/-- A machine that prints the auction 1 as it is. -/
def listedJvm : Jvm :=
  { auctionJvm with
    text := fun j => match j with
      | .auction a => if a.isClosed then closedText else auctionText
      | _ => auctionJvm.text j }

/-- The requests of `alice`, who opens the auction 1. -/
def openedRun : List Action :=
  [.ordered (registerUser (some "alice") (some "secret") (some 10) none),
    .ordered (createAuction (some "alice") (some 1))]

/-- The auction is closed again. -/
def closedRun : List Action := openedRun ++ [.ordered (closeAuction (some "alice") (some 1))]

/-- And the auction 2 is opened. -/
def bothRun : List Action := closedRun ++ [.ordered (createAuction (some "alice") (some 2))]

/-- The request for the closed auctions. -/
def closedAuctions : Command := queryCommand .listAllCurrentClosedAuctions

/-- The auction 1 after it is closed. -/
def closedAuction : Json := .auction (AuctionEntity.new (some 1) (some "alice")).close

/-- The reply to the closed auctions, with the number before the elements. -/
def closedPayload (number : ℕ) (texts : List String) : Bytes :=
  streamHeader ++ (integerBytes number ++ texts.flatMap stringBytes)

/-- When there is one auction of each kind, the closed one is listed. -/
theorem listing_decodes_closed :
    elements (reached listedJvm bothRun) .closedAuctions = some [closedAuction] ∧
      ∃ os, ((BankService.new.runAll listedJvm bothRun).access listedJvm
          (.unordered closedAuctions)).1 = .ok (some os) ∧
        Written javaWire (closedPayload 1 [closedText]) (os.map (objectOf listedJvm)) ∧
        ∃ list, Listing.closedAuctions.decode javaWire textParser (closedPayload 1 [closedText]) =
          .ok (.list list) ∧ list.Perm ([closedAuction].map listedJvm.text) := by
  have helements : elements (reached listedJvm bothRun) .closedAuctions = some [closedAuction] := by
    decide
  obtain ⟨os, hos, hdecode⟩ := listing_decodes_iff javaWire textParser listedJvm listedJvm.text
    ⟨fun _ => rfl, fun _ => rfl⟩ bothRun .closedAuctions [closedAuction] helements closedAuctions
    (decodeUnordered_queryCommand _)
  have hanswer : ((BankService.new.runAll listedJvm bothRun).access listedJvm
      (.unordered closedAuctions)).1 = .ok (some [.int 1, .json closedAuction]) := by
    decide
  obtain rfl : os = [.int 1, .json closedAuction] :=
    Option.some.inj (Except.ok.inj (hos.symm.trans hanswer))
  have hwritten : Written javaWire (closedPayload 1 [closedText])
      ([.int 1, .json closedAuction].map (objectOf listedJvm)) :=
    written_javaWire 2 (by decide +kernel)
  -- One auction of each kind, so that the wrong number is right by chance.
  have hcounted : (reached listedJvm bothRun).closedAuctions.size =
      loops (reached listedJvm bothRun).openedAuctions.size := by
    decide
  exact ⟨helements, _, hos, hwritten, (hdecode _ hwritten).mpr hcounted⟩

/-- **Closed auctions are miscounted:** with one opened auction and none closed the handler returns
`null`, and with one closed auction and none opened it returns the empty list. -/
theorem closed_listing_miscounted :
    (elements (reached listedJvm openedRun) .closedAuctions = some [] ∧
      ((BankService.new.runAll listedJvm openedRun).access listedJvm
        (.unordered closedAuctions)).1 = .ok (some [.int 1]) ∧
      Written javaWire (closedPayload 1 []) ([.int 1].map (objectOf listedJvm)) ∧
      Listing.closedAuctions.decode javaWire textParser (closedPayload 1 []) = .ok .null) ∧
    elements (reached listedJvm closedRun) .closedAuctions = some [closedAuction] ∧
      ((BankService.new.runAll listedJvm closedRun).access listedJvm
        (.unordered closedAuctions)).1 = .ok (some [.int 0, .json closedAuction]) ∧
      Written javaWire (closedPayload 0 [closedText])
        ([.int 0, .json closedAuction].map (objectOf listedJvm)) ∧
      Listing.closedAuctions.decode javaWire textParser (closedPayload 0 [closedText]) =
        .ok (.list []) := by
  refine ⟨⟨by decide, by decide, ?_, by decide +kernel⟩, by decide, by decide, ?_, by decide +kernel⟩
  · exact written_javaWire 1 (by decide +kernel)
  · exact written_javaWire 2 (by decide +kernel)

end NovaBank.Ledger
