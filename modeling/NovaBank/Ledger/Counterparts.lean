import NovaBank.Ledger.Listings
import NovaBank.Proxy.Controller
import NovaBank.Proxy.Requests
import NovaBank.Replica.Answers

/-!
# Two replicas in the same state

Two correct replicas whose states differ in the times of bids and in the order in which their hash
maps are iterated. A request that lists nothing and asks for no bid leads to the same result at both,
and a listing begins with the same number: the sizes do not depend on the order, nor does the hash of
the accounts, which is an exclusive or. So the comparator of the proxy finds such replies equal.
-/

namespace NovaBank.Ledger

open Java Replica Money Proxy

open BankServiceReplicationJedisCluster (hashOf_perm accountsHash_eq)

/-- Two replicas that are the same up to the times of bids and the order of their hash maps. -/
structure Counterparts (jvm jvm' : Jvm) (st st' : BankService) : Prop where
  foldCase : jvm.foldCase = jvm'.foldCase
  text : jvm.text = jvm'.text
  defineClass : jvm.defineClass = jvm'.defineClass
  repo : Sim (fun _ => 0) st.bankRepo st'.bankRepo

/-- The case of a request that looks at no order: it does not list anything nor ask for a bid. -/
def orderless : Case → Bool
  | .ordered _ => true
  | .unordered (.findUser _) | .unordered (.checkCurrentAmount _) | .unordered .unsupported => true
  | _ => false

section Counterparts

variable {jvm jvm' : Jvm} {st st' : BankService}

/-- The roles depend on how the machine folds cases only. -/
theorem appendRoles_congr (hfold : jvm.foldCase = jvm'.foldCase) (acc : String) (rs : List JString) :
    BankEntity.appendRoles jvm acc rs = BankEntity.appendRoles jvm' acc rs := by
  induction rs generalizing acc with
  | nil => rfl
  | cons r rs ih =>
    cases r with
    | none => rfl
    | some r => simp only [BankEntity.appendRoles, hfold, ih]

/-- No such request looks at the order of a hash map. -/
theorem result_machine (hfold : jvm.foldCase = jvm'.foldCase)
    (hdefine : jvm.defineClass = jvm'.defineClass) (htext : jvm.text = jvm'.text) {c : Case}
    (hc : orderless c = true) : c.result jvm st = c.result jvm' st := by
  have hnew : ∀ u p a rs, BankEntity.new jvm u p a rs = BankEntity.new jvm' u p a rs := by
    intro u p a rs
    cases rs with
    | none => rfl
    | some rs => simp only [BankEntity.new, appendRoles_congr hfold]
  -- The two machines differ in the order of their maps only.
  obtain ⟨order, perm, fold, text, define⟩ := jvm
  obtain ⟨order', perm', fold', text', define'⟩ := jvm'
  subst hfold hdefine htext
  cases c with
  | ordered r =>
    cases r with
    | ledger r =>
      cases r with
      | registerUser username rest =>
        simp only [Case.result, BankService.executeLedger, BankService.executeRegisterUser,
          BankServiceHelper.registerUser, hnew]
      | createMoney _ _ | transferMoney _ _ _ _ _ _ | createAuction _ _ | closeAuction _ _ => rfl
    | createSmartContract who code => rfl
    | other => rfl
  | unordered q =>
    cases q with
    | findUser _ | checkCurrentAmount _ | unsupported => rfl
    | listAllBankAccounts | listAllCurrentOpenedAuctions | listAllCurrentClosedAuctions
    | listAllBidsFromAuction _ | listAllBidsFromUser _ | checkWinnerBidClosedAuction _ => cases hc

/-- Such a request leads to the same result at both replicas. -/
theorem Counterparts.result_eq (h : Counterparts jvm jvm' st st') {c : Case}
    (hc : orderless c = true) : c.result jvm st = c.result jvm' st' := by
  rw [← result_machine h.foldCase h.defineClass h.text hc]
  -- First the machine, then the state: what depends on neither order nor time is equal.
  cases c with
  | ordered r =>
    cases r with
    | ledger r => exact (executeLedger_agrees h.repo r).1
    | createSmartContract who code => exact (executeCreateSmartContract_congr jvm h.repo who code).1
    | other => rfl
  | unordered q =>
    cases q with
    | findUser u => exact answer_findUser_congr jvm h.repo u
    | checkCurrentAmount u => exact answer_checkCurrentAmount_congr jvm h.repo u
    | unsupported => rfl
    | listAllBankAccounts | listAllCurrentOpenedAuctions | listAllCurrentClosedAuctions
    | listAllBidsFromAuction _ | listAllBidsFromUser _ | checkWinnerBidClosedAuction _ => cases hc

/-- The number that a listing begins with, if there is what it lists. -/
def numberOf (jvm : Jvm) (s : BankRepository) : Listing → Option Int32
  | .accounts _ => some (BankService.accountsHash jvm s.users.values)
  | .openedAuctions | .closedAuctions => some s.getNumOpenedAuctions
  | .bidsFromAuction auctionID =>
    (s.findByAuctionID auctionID).map fun r => Int32.ofNat (s.auction r).bids.size
  | .bidsFromUser who => (s.findByUserName who).map fun b => Int32.ofNat b.bids.size

/-- The hash of the accounts does not depend on the order of the iteration. -/
theorem accountsHash_usersIterator (jvm : Jvm) (s : BankRepository) :
    BankService.accountsHash jvm (s.usersIterator jvm) =
      BankService.accountsHash jvm s.users.values := by
  rw [accountsHash_eq, accountsHash_eq]
  exact hashOf_perm jvm ((inOrder_perm jvm s.users).map _)

/-- The answer to a listing begins with its number, if there is an answer. -/
theorem answer_number (jvm : Jvm) (s : BankRepository) (l : Listing) :
    ∃ xs, BankService.answer jvm s l.query = .ok ((numberOf jvm s l).map fun n => .int n :: xs) := by
  -- Each listing begins with its number.
  cases l with
  | accounts myHash =>
    rw [numberOf, ← accountsHash_usersIterator]
    exact ⟨_, rfl⟩
  | openedAuctions | closedAuctions => exact ⟨_, rfl⟩
  | bidsFromAuction auctionID =>
    simp only [numberOf, Listing.query, BankService.answer]
    cases s.findByAuctionID auctionID with
    | none => exact ⟨[], rfl⟩
    | some r => exact ⟨_, rfl⟩
  | bidsFromUser who =>
    simp only [numberOf, Listing.query, BankService.answer]
    cases s.findByUserName who with
    | none => exact ⟨[], rfl⟩
    | some b => exact ⟨_, rfl⟩

/-- Bids that are the same up to their times are as many. -/
theorem size_congr {f : Int64 → Int64} {m m' : Bids} (h : Bids.retime f m = Bids.retime f m') :
    m.size = m'.size := by
  have hsize := congrArg KeyedMap.size h
  simpa only [Bids.retime, KeyedMap.size, KeyedMap.map_values, List.length_map] using hsize

/-- The number of a listing is the same at both replicas. -/
theorem Counterparts.numberOf_eq (h : Counterparts jvm jvm' st st') (l : Listing) :
    numberOf jvm st.bankRepo l = numberOf jvm' st'.bankRepo l := by
  -- The numbers are hashes and sizes, in which neither the order nor the times are seen.
  cases l with
  | accounts myHash =>
    have haccounts : st.bankRepo.users.values.map (BankEntity.account fun _ => 0) =
        st'.bankRepo.users.values.map (BankEntity.account fun _ => 0) := by
      have := congrArg (fun B : Book => B.accounts.values) h.repo.view
      simpa only [view, KeyedMap.map_values] using this
    have htext : ∀ bs, BankService.accountsHash jvm bs = BankService.accountsHash jvm' bs := by
      intro bs
      simp only [BankService.accountsHash, h.text]
    rw [numberOf, numberOf, ← htext, accountsHash_account jvm (fun _ => 0), haccounts,
      ← accountsHash_account]
  | openedAuctions | closedAuctions =>
    rw [numberOf, numberOf, getNumOpenedAuctions_congr h.repo]
  | bidsFromAuction auctionID =>
    have hsize : ∀ {r r'}, (st.bankRepo.auction r).retime (fun _ => 0) =
        (st'.bankRepo.auction r').retime (fun _ => 0) →
        (st.bankRepo.auction r).bids.size = (st'.bankRepo.auction r').bids.size := by
      intro r r' e
      have hbids := congrArg AuctionEntity.bids e
      exact size_congr hbids
    rcases h.repo.auction_cases auctionID with ⟨⟨hs, -⟩, ht, -⟩ | ⟨r, r', ⟨hs, -⟩, ⟨ht, -⟩, e⟩ |
      ⟨r, r', ⟨hs, -⟩, ⟨ht, -⟩, e⟩
    · rw [numberOf, numberOf, hs, ht]
      rfl
    all_goals
      rw [numberOf, numberOf, hs, ht, Option.map_some, Option.map_some, hsize e]
  | bidsFromUser who =>
    rcases h.repo.user_cases who with ⟨hs, ht⟩ | ⟨b, b', hs, ht, hb⟩
    · rw [numberOf, numberOf, hs, ht]
    · have hbids : Bids.retime (fun _ => 0) b.bids = Bids.retime (fun _ => 0) b'.bids :=
        congrArg Account.bids hb
      rw [numberOf, numberOf, hs, ht, Option.map_some, Option.map_some, size_congr hbids]

end Counterparts

/-! ## The comparator -/

section Compare

variable {w : Wire} {jvm jvm' : Jvm} {i i' : ℕ} {c c' : Content}

/-- Replies that begin with one object compare equal, when this is a text or a number. -/
theorem compare_of_heads {x x' : ReplyObject} {xs xs' : List ReplyObject} {o : JObject}
    (hc : Sends w jvm i (some (x :: xs)) c) (hc' : Sends w jvm' i' (some (x' :: xs')) c')
    (hx : objectOf jvm x = o) (hx' : objectOf jvm' x' = o) (ho : equals o o = .ok true) :
    w.compare c c' = .ok 0 := by
  obtain ⟨payload, signature, rfl, hlength, -, hwritten⟩ := hc
  obtain ⟨payload', signature', rfl, hlength', -, hwritten'⟩ := hc'
  have hbid : ∀ b, o ≠ .bid b := by
    rintro b rfl
    cases ho
  rw [List.map_cons, hx] at hwritten
  rw [List.map_cons, hx'] at hwritten'
  -- The comparison reads no further than the first objects.
  have hfirsts : w.readFirsts payload payload' = .ok (o, o) :=
    Wire.readFirsts_eq_ok_iff.mpr ⟨hwritten.readFirst hbid, hwritten'.readFirst hbid⟩
  rw [Wire.compare_some (withoutSignature_append hlength) (withoutSignature_append hlength'), hfirsts]
  simp [ho, Except.map]

/-- The one reply that begins with a text or a number, or is `null`, compares equal to itself. -/
theorem compare_of_same {reply : Reply} (hc : Sends w jvm i reply c) (hc' : Sends w jvm' i' reply c')
    (htext : jvm.text = jvm'.text)
    (hheads : ∀ os, reply = some os →
      ∃ x xs, os = x :: xs ∧ equals (objectOf jvm x) (objectOf jvm x) = .ok true) :
    w.compare c c' = .ok 0 := by
  -- Two `null` replies are equal without being read.
  cases reply with
  | none =>
    cases hc
    cases hc'
    rfl
  | some os =>
    obtain ⟨x, xs, rfl, ho⟩ := hheads os rfl
    have hsame : objectOf jvm' x = objectOf jvm x := by
      unfold objectOf
      rw [htext]
    exact compare_of_heads hc hc' rfl hsame ho

end Compare

end NovaBank.Ledger
