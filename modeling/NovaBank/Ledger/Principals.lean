import NovaBank.Ledger.Accounts
import NovaBank.Ledger.Faults

/-!
# Who may open, close and bid

The accounts are kept under the exact names, but `closeAution`, `createBid` and the runner compare the
owner of an auction with a user by `equalsIgnoreCase`. `principals_iff`: a user is treated as somebody
else than the owner exactly when the names differ in more than the case of letters, up to auctions that
no bid and no closing can reach.

Auctions are opened and closed by ordered requests and by operations of contracts, with different tests.
A request opens an auction for every registered user, and an operation for those with
`ROLE_AUCTION_MAKER` only; an operation closes one for the owner of the contract that it names or with
`ROLE_AUCTION_MANAGER`, and then only if the request would. `same_authority_iff` says when the two ways
agree. Users are compared as far as the runner acts for them: the operations of a contract are executed
on behalf of its owner.
-/

namespace NovaBank.Ledger

open Java Replica Money

/-- The test for `ROLE_AUCTION_MAKER`. -/
def isMaker (b : BankEntity) : Bool := b.getRoles.contains "ROLE_AUCTION_MAKER"

/-! ## Users and owners -/

/-- The answer of `createBid` to the owner of the auction. -/
def ownAuction (who : JString) (auctionId : Int64) : JSONObject :=
  JSONObject.error ("User " ++ JString.toText who ++ " can't make bids for its own auction " ++
    Long.toText auctionId)

/-- The user `u` with the account `be` is not taken for the owner of the auction `id`. -/
structure Distinct (jvm : Jvm) (s : BankRepository) (u : String) (be : BankEntity) (id : JLong) :
    Prop where
  /-- The user needs the role to close the auction. -/
  close : isMaker be = false → (BankServiceHelper.closeAution jvm id (some u) s).2 = s
  /-- A bid is not refused as one of the owner. -/
  createBid : ∀ now bidId auctionId amount, id = some bidId →
    (BankServiceHelper.createBid jvm now bidId auctionId amount (some u) s).1 ≠
      .ok (ownAuction (some u) auctionId)
  /-- The runner does not skip a bid. -/
  bid : ∀ ss bidId, id = some bidId → longWord ss 2 = .ok bidId →
    SmartContractRunner.callBid jvm s (some u) ss ≠ .ok none

section Distinct

variable {jvm : Jvm} {s : BankRepository} {u v : String} {be : BankEntity} {r : AuctionRef}

/-- The test of `closeAution` for an auction whose owner has a name. -/
theorem mayClose_of_owner (jvm : Jvm) (u : String) (be : BankEntity) {a : AuctionEntity}
    (owner : a.ownerUsername = some v) :
    BankServiceHelper.mayClose jvm be (some u) a a =
      .ok (jvm.equalsIgnoreCase v (some u) || isMaker be) := by
  simp only [BankServiceHelper.mayClose, BankServiceHelper.isOwner, owner]
  cases jvm.equalsIgnoreCase v (some u) <;> rfl

/-- The test of `createBid` for such an auction. -/
theorem mayBid_of_owner {a : AuctionEntity} (owner : a.ownerUsername = some v) :
    BankServiceHelper.mayBid jvm (some u) a a = .ok (!jvm.equalsIgnoreCase v (some u)) := by
  simp only [BankServiceHelper.mayBid, BankServiceHelper.isOwner, owner]
  cases jvm.equalsIgnoreCase v (some u) <;> rfl

/-- Closing does something exactly when the user may close. -/
theorem closeAution_eq_self_iff (h : Indexed s) (jvm : Jvm) (id : JLong) (who : JString) :
    (BankServiceHelper.closeAution jvm id who s).2 = s ↔ ∀ r, ¬ Closes jvm id who s r := by
  rcases closeAution_cases jvm h id who with ⟨hs, hkept⟩ | ⟨r, hc, hs⟩
  · exact iff_of_true hs hkept
  · refine iff_of_false (fun heq => ?_) fun hkept => hkept r hc
    obtain ⟨us, hus⟩ := payOwner_eq (s.auction r).close
      ((s.updateAuction r AuctionEntity.close).closeAuction r)
    -- The auction is no longer opened.
    have hopened := h.openedAuctions_closeAuction (h.opened hc.1).1 id
    rw [if_pos rfl] at hopened
    have hnone : (BankServiceHelper.closeAution jvm id who s).2.openedAuctions.lookup id = none := by
      rw [hs, hus]
      exact hopened
    rw [heq] at hnone
    exact absurd (hc.1.symm.trans hnone) (by simp)

/-- A user without the role is refused to close an auction exactly when it is closed already or the
user is not taken for its owner. -/
theorem close_refused_iff (jvm : Jvm) (h : Indexed s) {id : JLong}
    (user : s.findByUserName (some u) = some be) (auction : s.findByAuctionID id = some r)
    (owner : (s.auction r).ownerUsername = some v) :
    (isMaker be = false → (BankServiceHelper.closeAution jvm id (some u) s).2 = s) ↔
      (jvm.equalsIgnoreCase v (some u) = true →
        (s.auction r).isClosed = true ∨ isMaker be = true) := by
  have hmay := mayClose_of_owner jvm u be owner
  rw [closeAution_eq_self_iff h]
  -- Only the owner of an opened auction can close it without the role.
  constructor
  · intro hkept hsame
    cases hmaker : isMaker be with
    | true => exact .inr rfl
    | false =>
      left
      rcases h.covered auction with ho | hc
      · rw [hsame] at hmay
        exact absurd ⟨ho, be, user, hmay⟩ (hkept hmaker r)
      · exact (h.closed hc).2.2
  · rintro hcond hmaker q ⟨ho, b, hb, hm⟩
    obtain ⟨hq, -, hopen⟩ := h.opened ho
    obtain rfl : r = q := Option.some.inj (auction.symm.trans hq)
    obtain rfl : be = b := Option.some.inj (user.symm.trans hb)
    rw [hmay, hmaker, Bool.or_false] at hm
    rcases hcond (Except.ok.inj hm) with hclosed | hmaker'
    · rw [hopen] at hclosed
      cases hclosed
    · rw [hmaker] at hmaker'
      cases hmaker'

/-- A user with another name, whatever the case of the letters, is not told to be the owner. -/
theorem createBid_ne_ownAuction (h : Indexed s) {bidId : Int64}
    (user : s.findByUserName (some u) = some be)
    (auction : s.findByAuctionID (some bidId) = some r)
    (owner : (s.auction r).ownerUsername = some v)
    (other : jvm.equalsIgnoreCase v (some u) = false) (now auctionId amount : Int64) :
    (BankServiceHelper.createBid jvm now bidId auctionId amount (some u) s).1 ≠
      .ok (ownAuction (some u) auctionId) := by
  unfold BankServiceHelper.createBid ownAuction
  -- Every other outcome of the helper has another message.
  rcases h.covered auction with ho | hc
  · obtain ⟨-, hclosed, hopen⟩ := h.opened ho
    simp only [user, auction, BankRepository.findByOpenedAuctionID, BankRepository.findByClosedAuctionID,
      ho, hclosed, mayBid_of_owner owner, other, hopen, Bool.not_false, Bool.and_self, if_true]
    cases hbid : (s.auction r).bids.get bidId with
    | some old =>
      intro heq
      simp [JSONObject.error, JSONObject.put, JSONObject.empty, String.ext_iff] at heq
    | none =>
      cases hv : be.amount with
      | none => simp
      | some balance =>
        simp only [Option.isNone_none, if_true]
        split_ifs
        · simp [JSONObject.error, JSONObject.success, JSONObject.put, JSONObject.empty]
        · simp [JSONObject.error, JSONObject.put, JSONObject.empty, String.ext_iff]
  · obtain ⟨-, hopened, -⟩ := h.closed hc
    simp [user, auction, BankRepository.findByOpenedAuctionID, hopened, JSONObject.error, JSONObject.put,
      JSONObject.empty, String.ext_iff]

/-- The runner skips a bid on an auction exactly for those whom it takes for the owner. -/
theorem callBid_eq_none_iff {bidId : Int64} (auction : s.findByAuctionID (some bidId) = some r)
    (owner : (s.auction r).ownerUsername = some v) {ss : List String}
    (read : longWord ss 2 = .ok bidId) :
    SmartContractRunner.callBid jvm s (some u) ss = .ok none ↔
      jvm.equalsIgnoreCase v (some u) = true := by
  -- The runner asks the bidder, and the comparison is symmetric.
  have hsame : sameName jvm (some u) (s.auction r).ownerUsername =
      .ok (jvm.equalsIgnoreCase v (some u)) := by
    rw [owner]
    exact congrArg Except.ok (equalsIgnoreCase_comm jvm.foldCase u v)
  simp only [SmartContractRunner.callBid, read, bind, Except.bind, auction, hsame]
  cases jvm.equalsIgnoreCase v (some u) with
  | true => simp [pure, Except.pure]
  | false =>
    cases longWord ss 1 with
    | error e => simp
    | ok amount => simp [pure, Except.pure]

/-- The words of a bid of 0 on an auction. -/
theorem longWord_bid (bidId : Int64) : longWord ["BID", "0", Long.toText bidId] 2 = .ok bidId := by
  simp [longWord, word, bind, Except.bind, pure, Except.pure]

end Distinct

/-- **Different users:** at every point of every run, a registered user is told apart from the owner of
an auction exactly when the names differ in more than the case of letters. If not, the only auctions
that show no difference are those with the id `null`, on which nobody can bid, as long as they are closed
or the user has the role to close them anyway. -/
theorem principals_iff (jvm : Jvm) (xs : List Action) {u v : String} {be : BankEntity} {id : JLong}
    {r : AuctionRef} (user : (reached jvm xs).findByUserName (some u) = some be)
    (auction : (reached jvm xs).findByAuctionID id = some r)
    (owner : ((reached jvm xs).auction r).ownerUsername = some v) :
    Distinct jvm (reached jvm xs) u be id ↔
      (jvm.equalsIgnoreCase v (some u) = true →
        id = none ∧ (((reached jvm xs).auction r).isClosed = true ∨ isMaker be = true)) := by
  have h : Indexed (reached jvm xs) := reached_indexed xs
  have hclose := close_refused_iff jvm h user auction owner
  constructor
  · intro hd hsame
    -- With a number for an id, the runner would skip a bid.
    have hid : id = none := by
      cases id with
      | none => rfl
      | some bidId =>
        exact absurd ((callBid_eq_none_iff auction owner (longWord_bid bidId)).mpr hsame)
          (hd.bid _ bidId rfl (longWord_bid bidId))
    exact ⟨hid, hclose.mp hd.close hsame⟩
  · intro hcond
    refine ⟨hclose.mpr fun hsame => (hcond hsame).2, fun now bidId auctionId amount hid => ?_,
      fun ss bidId hid hread => ?_⟩
    · subst hid
      exact createBid_ne_ownAuction h user auction owner
        (Bool.eq_false_iff.mpr fun hsame => absurd (hcond hsame).1 (by simp)) now auctionId amount
    · subst hid
      rw [ne_eq, callBid_eq_none_iff auction owner hread]
      exact fun hsame => absurd (hcond hsame).1 (by simp)

/-- Two users, the first of whom has opened the auction 7. -/
def opened (owner other : String) : List Action :=
  [.ordered (Proxy.registerUser (some owner) (some "secret") (some 10) none),
    .ordered (Proxy.registerUser (some other) (some "secret") (some 10) none),
    .ordered (Proxy.createAuction (some owner) (some 7))]

/-- `bob` is told apart from `alice`. -/
theorem principals_alice_bob :
    ∃ be, (reached (Jvm.plain (ContractClass.queueing [])) (opened "alice" "bob")).findByUserName
        (some "bob") = some be ∧
      Distinct (Jvm.plain (ContractClass.queueing []))
        (reached (Jvm.plain (ContractClass.queueing [])) (opened "alice" "bob")) "bob" be (some 7) :=
  ⟨_, rfl, (principals_iff (Jvm.plain (ContractClass.queueing [])) (opened "alice" "bob") (r := 0)
    (v := "alice") rfl rfl rfl).mpr (by decide)⟩

/-- A machine that folds the case of ASCII letters. -/
def foldingJvm : Jvm := { Jvm.plain (ContractClass.queueing []) with foldCase := Char.toLower }

/-- **Two users taken for one:** `alice` has opened an auction, and `Alice`, another user without
roles, closes it, while a bid of the same user is refused as one of the owner. -/
theorem taken_for_owner :
    ∃ be, (reached foldingJvm (opened "alice" "Alice")).findByUserName (some "Alice") = some be ∧
      isMaker be = false ∧
      ((reached foldingJvm (opened "alice" "Alice")).auction 0).ownerUsername = some "alice" ∧
      (BankServiceHelper.closeAution foldingJvm (some 7) (some "Alice")
        (reached foldingJvm (opened "alice" "Alice"))).2.findByClosedAuctionID (some 7) = some 0 ∧
      (BankServiceHelper.createBid foldingJvm 0 7 7 5 (some "Alice")
        (reached foldingJvm (opened "alice" "Alice"))).1 = .ok (ownAuction (some "Alice") 7) ∧
      SmartContractRunner.callBid foldingJvm (reached foldingJvm (opened "alice" "Alice")) (some "Alice")
        ["BID", "5", "7"] = .ok none :=
  ⟨_, rfl, by decide, by decide, by decide, by decide, by decide⟩

/-! ## Requests and operations -/

/-- A case of the `switch` makes a call, which succeeds. -/
def CarriedOut (jvm : Jvm) (now : Int64) (s : BankRepository)
    (x : Except JavaException (Option LedgerOperation)) : Prop :=
  ∃ call, x = .ok (some call) ∧ succeeded (call.run jvm now s).1 = true

/-- The auction that `CREATE_AUCTION` of the contract `i` opens. -/
def auctionOf (i : Int32) : JLong := some (Int64.ofInt i.toInt)

/-- Requests and operations of contracts give users the same rights. -/
structure SameRights (jvm : Jvm) (st : BankService) : Prop where
  /-- Whom a request opens an auction for, an operation of a contract does, too, if the id is free. -/
  create : ∀ u b id i now ss, st.bankRepo.findByUserName u = some b →
    Operation.read ss = .ok (some .createAuction) → st.bankRepo.findByAuctionID (auctionOf i) = none →
    accepted (BankService.executeCreateAuction u id st.bankRepo).1 = true →
    CarriedOut jvm now st.bankRepo (st.sR.dispatch jvm st.bankRepo i u ss)
  /-- The contract `i` of the user `www` closes an auction by an operation that names some contract
  exactly when a request of the user does. -/
  close : ∀ www i id key owner now ss, Action.onBehalfOf st i = some www →
    Operation.read ss = .ok (some (.closeAuction id key)) → st.sR.ownerOf key = some owner →
    (CarriedOut jvm now st.bankRepo ((st.sR.clearOperations i).dispatch jvm st.bankRepo i www ss) ↔
      accepted (BankService.executeCloseAuction jvm www (some id) st.bankRepo).1 = true)

/-- What it takes for the same rights. -/
structure Entitled (jvm : Jvm) (st : BankService) : Prop where
  /-- All users have `ROLE_AUCTION_MAKER`, as long as there are free ids. -/
  maker : ∀ u b id i, st.bankRepo.findByUserName u = some b → st.bankRepo.findByAuctionID id = none →
    st.bankRepo.findByAuctionID (auctionOf i) = none → isMaker b = true
  /-- The owner of a contract who may close an auction, whose own owner can be paid, passes the test of
  the runner, whichever contract is named. -/
  closer : ∀ www i id r key owner, Action.onBehalfOf st i = some www →
    Closes jvm (some id) www st.bankRepo r →
    (balanceOf st.bankRepo (st.bankRepo.auction r).ownerUsername).isSome →
    st.sR.ownerOf key = some owner → www ≠ none ∧ PassesCloseTest jvm st.bankRepo www owner

section Rights

variable {jvm : Jvm} {s : BankRepository} {st : BankService} {u : JString} {b : BankEntity}

/-- A request opens an auction for a registered user if the id is free. -/
theorem accepted_createAuction (user : s.findByUserName u = some b) (id : JLong) :
    accepted (BankService.executeCreateAuction u id s).1 = true ↔ s.findByAuctionID id = none := by
  cases ha : s.findByAuctionID id with
  | some r => simp [BankService.executeCreateAuction, user, ha, accepted]
  | none =>
    refine iff_of_true ?_ rfl
    simp only [BankService.executeCreateAuction, user, ha, BankServiceHelper.createAuction]
    cases id <;> rfl

/-- A request to close is accepted when `closeAution` succeeds. -/
theorem accepted_closeAuction (jvm : Jvm) (u : JString) (id : JLong) (s : BankRepository) :
    accepted (BankService.executeCloseAuction jvm u id s).1 =
      succeeded (BankServiceHelper.closeAution jvm id u s).1 := by
  simp only [BankService.executeCloseAuction]
  cases (BankServiceHelper.closeAution jvm id u s).1 <;> rfl

/-- A request closes the auction of an owner with a balance for those who may close it. -/
theorem accepted_closeAuction_iff (h : Indexed s) (u : JString) (id : JLong) :
    accepted (BankService.executeCloseAuction jvm u id s).1 = true ↔
      ∃ r, Closes jvm id u s r ∧ (balanceOf s (s.auction r).ownerUsername).isSome := by
  rw [accepted_closeAuction]
  by_cases hcloses : ∃ r, Closes jvm id u s r
  · obtain ⟨r, hcloses⟩ := hcloses
    have hunique : ∀ q, Closes jvm id u s q → q = r := fun q hq =>
      Option.some.inj (hq.1.symm.trans hcloses.1)
    rw [closeAution_of_closes h hcloses]
    -- The pay-out throws for an owner without a balance, and nothing else can fail.
    rcases payOwner_cases (s.auction r).close
        ((s.updateAuction r AuctionEntity.close).closeAuction r) with
      ⟨hbalance, e, hpaid, -⟩ | ⟨hbalance, hpaid⟩
    · rw [hpaid]
      refine iff_of_false Bool.false_ne_true ?_
      rintro ⟨q, hq, hsome⟩
      rw [hunique q hq] at hsome
      change balanceOf s (s.auction r).ownerUsername = none at hbalance
      rw [hbalance] at hsome
      cases hsome
    · rw [hpaid]
      exact iff_of_true (by cases id <;> rfl) ⟨r, hcloses, Option.isSome_iff_ne_none.mpr hbalance⟩
  · refine iff_of_false ?_ fun ⟨r, hr, _⟩ => hcloses ⟨r, hr⟩
    rcases closeAution_of_not_closes h (not_exists.mp hcloses) with ⟨-, hthrown⟩ | ⟨-, j, hj, herror⟩
    · rw [hthrown]
      exact Bool.false_ne_true
    · rw [hj, succeeded, herror]
      exact Bool.false_ne_true

/-- An operation opens the auction of its contract if the user has the role and the id is free. -/
theorem carriedOut_createAuction (jvm : Jvm) (now : Int64) (i : Int32)
    (user : s.findByUserName u = some b) :
    CarriedOut jvm now s (SmartContractRunner.callCreateAuction s i u) ↔
      isMaker b = true ∧ s.findByAuctionID (auctionOf i) = none := by
  -- Without the role, the runner makes no call.
  have hcall : SmartContractRunner.callCreateAuction s i u =
      .ok (if isMaker b then some (.createAuction (auctionOf i) u) else none) := by
    simp only [SmartContractRunner.callCreateAuction, BankRepository.user, user, bind, Except.bind]
    show (if isMaker b = true then _ else _) = _
    split_ifs <;> rfl
  rw [hcall]
  cases isMaker b with
  | false => simp [CarriedOut]
  | true =>
    have hrun : CarriedOut jvm now s (.ok (some (.createAuction (auctionOf i) u))) ↔
        succeeded (.ok (BankServiceHelper.createAuction (auctionOf i) u s).1) = true := by
      simp only [CarriedOut, Except.ok.injEq, Option.some.injEq, exists_eq_left']
      rfl
    refine hrun.trans ?_
    cases ha : s.findByAuctionID (auctionOf i) with
    | none => exact iff_of_true (by simp only [BankServiceHelper.createAuction, user, ha]; rfl) ⟨rfl, rfl⟩
    | some r =>
      refine iff_of_false ?_ (by simp)
      simp only [BankServiceHelper.createAuction, user, ha]
      exact Bool.false_ne_true

/-- An operation closes an auction for those who pass the test of the runner and that of `closeAution`. -/
theorem carriedOut_closeAuction (jvm : Jvm) (now : Int64) (i : Int32) {sR : SmartContractRunner}
    {key : Int32} {owner : JString} (hkey : sR.ownerOf key = some owner) (id : Int64) :
    CarriedOut jvm now s ((Operation.closeAuction id key).call jvm sR s i u) ↔
      (u ≠ none ∧ PassesCloseTest jvm s u owner) ∧
        succeeded (BankServiceHelper.closeAution jvm (some id) u s).1 = true := by
  have hclose : CarriedOut jvm now s (.ok (some (.closeAution (some id) u))) ↔
      succeeded (BankServiceHelper.closeAution jvm (some id) u s).1 = true := by
    simp only [CarriedOut, Except.ok.injEq, Option.some.injEq, exists_eq_left']
    rfl
  rw [← hclose]
  simp only [Operation.call, hkey]
  cases u with
  | none => simp [CarriedOut, sameName, bind, Except.bind]
  | some w =>
    simp only [sameName, PassesCloseTest, bind, Except.bind, Except.ok.injEq, ne_eq, reduceCtorEq,
      not_false_eq_true, true_and]
    cases hsame : jvm.equalsIgnoreCase w owner with
    | true => simp only [true_or, true_and]; rfl
    | false =>
      -- Not the owner of the contract, so the role decides.
      simp only [Bool.false_eq_true, false_or, if_false, BankRepository.user]
      cases hu : s.findByUserName (some w) with
      | none => simp [CarriedOut]
      | some b =>
        simp only [Option.some.injEq, exists_eq_left']
        cases b.getRoles.contains "ROLE_AUCTION_MANAGER" with
        | true => simp only [true_and]; rfl
        | false => simp [CarriedOut, pure, Except.pure]

/-- The words of an operation that opens the auction of its contract. -/
theorem read_createAuction : Operation.read ["CREATE_AUCTION"] = .ok (some .createAuction) := rfl

/-- The words of an operation that closes an auction. -/
theorem read_closeAuction (id : Int64) (key : Int32) :
    Operation.read ["CLOSE_AUCTION", Long.toText id, Integer.toText key] =
      .ok (some (.closeAuction id key)) := by
  simp [Operation.read, word, intWord, longWord, bind, Except.bind, pure, Except.pure]

/-- The rights are the same exactly when the users are entitled to what requests do for them. -/
theorem sameRights_iff (jvm : Jvm) (indexed : Indexed st.bankRepo) :
    SameRights jvm st ↔ Entitled jvm st := by
  -- Each right is tested on the operation that the contract would queue for it.
  constructor
  · intro h
    refine ⟨fun u b id i hu hid hi => ?_, fun www i id r key owner hwww hcloses hbalance hkey => ?_⟩
    · have hout := h.create u b id i 0 _ hu read_createAuction hi ((accepted_createAuction hu id).mpr hid)
      rw [dispatch_of_read read_createAuction] at hout
      exact ((carriedOut_createAuction jvm 0 i hu).mp hout).1
    · have hread := read_closeAuction id key
      have hout := (h.close www i id key owner 0 _ hwww hread hkey).mpr
        ((accepted_closeAuction_iff indexed www (some id)).mpr ⟨r, hcloses, hbalance⟩)
      rw [dispatch_of_read hread] at hout
      rw [← SmartContractRunner.ownerOf_clearOperations st.sR i key] at hkey
      exact ((carriedOut_closeAuction jvm 0 i hkey id).mp hout).1
  -- The request is accepted, so the helper will not refuse the call; the test of the runner is left.
  · intro h
    refine ⟨fun u b id i now ss hu hread hi hopened => ?_,
      fun www i id key owner now ss hwww hread hkey => ?_⟩
    · have hid := (accepted_createAuction hu id).mp hopened
      rw [dispatch_of_read hread]
      exact (carriedOut_createAuction jvm now i hu).mpr ⟨h.maker u b id i hu hid hi, hi⟩
    · have hkey' := (SmartContractRunner.ownerOf_clearOperations st.sR i key).trans hkey
      rw [dispatch_of_read hread]
      refine (carriedOut_closeAuction jvm now i hkey' id).trans ?_
      rw [← accepted_closeAuction]
      refine ⟨fun hout => hout.2, fun hclosed => ⟨?_, hclosed⟩⟩
      obtain ⟨r, hcloses, hbalance⟩ := (accepted_closeAuction_iff indexed www (some id)).mp hclosed
      exact h.closer www i id r key owner hwww hcloses hbalance hkey

end Rights

/-! ## The owners of auctions -/

/-- The owner of the auction `k`, if there is one with that id. -/
def ownerAt (s : BankRepository) (k : JLong) : Option JString :=
  (s.findByAuctionID k).map fun r => (s.auction r).ownerUsername

/-- All auctions belong to users with `ROLE_AUCTION_MAKER`. -/
def OwnedByMakers (s : BankRepository) : Prop :=
  ∀ k u, ownerAt s k = some u → ∃ b, s.findByUserName u = some b ∧ isMaker b = true

/-- A request that opens an auction comes from a user with `ROLE_AUCTION_MAKER`. -/
def OpenedByMaker (s : BankRepository) (x : Action) : Prop :=
  ∀ command u id b, x = .ordered command →
    decodeOrdered command = .ok (.ledger (.createAuction u id)) → s.findByUserName u = some b →
    s.findByAuctionID id = none → isMaker b = true

section Owners

variable {jvm : Jvm} {s : BankRepository} {st : BankService}

/-- A new auction belongs to who has opened it, and the others stay with their owners. -/
theorem ownerAt_createAuction (h : Indexed s) {id : JLong} {who : JString} {b : BankEntity}
    (user : s.findByUserName who = some b) (free : s.findByAuctionID id = none) (k : JLong) :
    ownerAt (BankServiceHelper.createAuction id who s).2 k = if id = k then some who else ownerAt s k := by
  rw [BankServiceHelper.createAuction_of_free user free]
  show ((s.createAuction (AuctionEntity.new id who)).2.auctions.lookup k).map
    (fun r => ((s.createAuction (AuctionEntity.new id who)).2.auction r).ownerUsername) = _
  have hid : (AuctionEntity.new id who).id = id := rfl
  rw [BankRepository.createAuction_auctions, JavaMap.lookup_insert, hid]
  -- The new auction has the next object, and the others keep theirs.
  split_ifs
  · rw [Option.map_some, BankRepository.createAuction_auction_length]
    rfl
  · show (s.auctions.lookup k).map _ = (s.auctions.lookup k).map _
    cases hk : s.auctions.lookup k with
    | none => rfl
    | some r => rw [Option.map_some, s.createAuction_auction _ (h.object hk).1, Option.map_some]

/-- An update of an auction that keeps its owner keeps all owners. -/
theorem ownerAt_updateAuction (h : Indexed s) {id : JLong} {r : AuctionRef}
    (auction : s.findByAuctionID id = some r) (f : AuctionEntity → AuctionEntity)
    (hf : ∀ a, (f a).ownerUsername = a.ownerUsername) (k : JLong) :
    ownerAt (s.updateAuction r f) k = ownerAt s k := by
  show (s.auctions.lookup k).map _ = (s.auctions.lookup k).map _
  congr 1
  funext q
  rw [s.updateAuction_auction (h.object auction).1 f q]
  split_ifs with e
  · rw [hf, e]
  · rfl

/-- Only `createAuction` gives an auction an owner. -/
theorem ownerAt_call (jvm : Jvm) (h : Indexed s) (now : Int64) (op : LedgerOperation) :
    (∀ k, ownerAt (op.run jvm now s).2 k = ownerAt s k) ∨
      ∃ id who b, op = .createAuction id who ∧ s.findByUserName who = some b ∧
        s.findByAuctionID id = none := by
  have hleaves := leaves_run jvm h now op
  generalize (op.run jvm now s).2 = s' at hleaves ⊢
  -- Only an opened auction is new; bids and closings keep the owner.
  cases hleaves with
  | accounts us => exact .inl fun _ => rfl
  | opened user free => exact .inr ⟨_, _, _, rfl, user, free⟩
  | placed b auction =>
    exact .inl (ownerAt_updateAuction h auction (AuctionEntity.addBid · _) fun _ => rfl)
  | @closed id who r closes us =>
    left
    intro k
    have ha := (h.opened closes.1).1
    refine Eq.trans ?_ (ownerAt_updateAuction h ha AuctionEntity.close (fun _ => rfl) k)
    show (((s.updateAuction r AuctionEntity.close).closeAuction r).auctions.lookup k).map _ =
      (s.auctions.lookup k).map _
    rw [h.auctions_closeAuction ha]
    rfl

/-- Who opens an auction by a contract has the role. -/
theorem isMaker_of_dispatch {sR : SmartContractRunner} {i : Int32} {www who : JString}
    {ss : List String} {id : JLong}
    (h : sR.dispatch jvm s i www ss = .ok (some (.createAuction id who))) :
    who = www ∧ ∃ b, s.findByUserName www = some b ∧ isMaker b = true := by
  cases dispatched_of_dispatch h with
  | createAuction name =>
    refine ⟨rfl, ?_⟩
    simp only [SmartContractRunner.dispatch, name] at h
    obtain ⟨first, hfirst, h⟩ := bind_eq_ok h
    cases hfirst
    obtain ⟨b, hb, h⟩ := bind_eq_ok h
    refine ⟨b, ?_, ?_⟩
    · cases hu : s.findByUserName www with
      | none => simp [BankRepository.user, hu] at hb
      | some c => simpa [BankRepository.user, hu] using hb
    · -- Without the role, the case makes no call.
      split_ifs at h with hmaker
      · exact hmaker
      · cases h

/-- Who opens an auction has the role if the request, where it is one, comes from somebody with it. -/
theorem isMaker_of_asks {x : Action} (cond : OpenedByMaker st.bankRepo x) {id : JLong} {who : JString}
    {b : BankEntity} (hasks : x.asks jvm st = some (.call (.createAuction id who)))
    (user : st.bankRepo.findByUserName who = some b) (free : st.bankRepo.findByAuctionID id = none) :
    isMaker b = true := by
  -- A request is subject to the condition, while the runner tests the role itself.
  cases x with
  | ordered command =>
    simp only [Action.asks] at hasks
    split at hasks
    · rename_i request hdecode
      cases LedgerRequest.requested_of_asks hasks with
      | createAuction => exact cond command who id b rfl hdecode user free
    · cases hasks
  | unordered command => cases hasks
  | operation now i op =>
    simp only [Action.asks] at hasks
    split at hasks
    · cases hasks
    · split at hasks
      · rename_i www _ call hdispatch
        cases hasks
        obtain ⟨rfl, c, hc, hmaker⟩ := isMaker_of_dispatch hdispatch
        obtain rfl : b = c := Option.some.inj (user.symm.trans hc)
        exact hmaker
      · cases hasks

/-- A user owns an auction after a step who did before, or for whom the step has opened it. -/
theorem ownerAt_concat (jvm : Jvm) (ys : List Action) (x : Action) {k : JLong} {u : JString}
    (howner : ownerAt (reached jvm (ys ++ [x])) k = some u) :
    ownerAt (reached jvm ys) k = some u ∨
      ∃ b, x.asks jvm (BankService.new.runAll jvm ys) = some (.call (.createAuction k u)) ∧
        (reached jvm ys).findByUserName u = some b ∧ (reached jvm ys).findByAuctionID k = none := by
  have h : Indexed (reached jvm ys) := reached_indexed ys
  obtain ⟨version, hrun⟩ := x.run_eq jvm (BankService.new.runAll jvm ys)
  rw [← reached_concat] at hrun
  rw [hrun] at howner
  -- Without the call of an opening, every auction has the owner it had.
  cases hasks : x.asks jvm (BankService.new.runAll jvm ys) with
  | none =>
    rw [hasks] at howner
    exact .inl howner
  | some a =>
    rw [hasks] at howner
    cases a with
    | register b => exact .inl howner
    | call op =>
      change ownerAt (op.run jvm x.time (reached jvm ys)).2 k = some u at howner
      rcases ownerAt_call jvm h x.time op with hop | ⟨id, who, b, rfl, hu, hfree⟩
      · rw [hop] at howner
        exact .inl howner
      · change ownerAt (BankServiceHelper.createAuction id who (reached jvm ys)).2 k = some u at howner
        rw [ownerAt_createAuction h hu hfree] at howner
        split_ifs at howner with e
        · obtain rfl : who = u := Option.some.inj howner
          subst e
          exact .inr ⟨b, rfl, hu, hfree⟩
        · exact .inl howner

/-- A request that opens an auction makes the user its owner. -/
theorem ownerAt_request (jvm : Jvm) (ys : List Action) {command : Command} {u : JString} {id : JLong}
    {b : BankEntity} (hdecode : decodeOrdered command = .ok (.ledger (.createAuction u id)))
    (hu : (reached jvm ys).findByUserName u = some b)
    (hfree : (reached jvm ys).findByAuctionID id = none) :
    ownerAt (reached jvm (ys ++ [.ordered command])) id = some u := by
  have hasks : (Action.ordered command).asks jvm (BankService.new.runAll jvm ys) =
      some (.call (.createAuction id u)) := by
    simp only [Action.asks, hdecode, LedgerRequest.asks]
    rw [show (BankService.new.runAll jvm ys).bankRepo = reached jvm ys from rfl, hu, hfree]
  obtain ⟨version, hrun⟩ := (Action.ordered command).run_eq jvm (BankService.new.runAll jvm ys)
  rw [← reached_concat] at hrun
  rw [hrun, hasks]
  exact (ownerAt_createAuction (reached_indexed ys) hu hfree id).trans (if_pos rfl)

/-- A step keeps the auctions with users who have the role exactly when it does not open one for
somebody without. -/
theorem ownedByMakers_step (jvm : Jvm) (ys : List Action) (x : Action)
    (owned : OwnedByMakers (reached jvm ys)) :
    OwnedByMakers (reached jvm (ys ++ [x])) ↔ OpenedByMaker (reached jvm ys) x := by
  have hkept : UsersKept (reached jvm ys) (reached jvm (ys ++ [x])) :=
    .of_updates (reached_indexed ys) (reached_append ys [x])
  constructor
  · rintro howned command u id b rfl hdecode hu hfree
    -- The new auction belongs to the user, whose roles have not changed.
    obtain ⟨b', hb', hmaker⟩ := howned id u (ownerAt_request jvm ys hdecode hu hfree)
    obtain ⟨c, hc, hsame⟩ := hkept u b hu
    obtain rfl : b' = c := Option.some.inj (hb'.symm.trans hc)
    rwa [isMaker, BankEntity.getRoles, hsame.roles] at hmaker
  · intro cond k u howner
    have hmaker : ∃ b, (reached jvm ys).findByUserName u = some b ∧ isMaker b = true := by
      rcases ownerAt_concat jvm ys x howner with hold | ⟨b, hasks, hu, hfree⟩
      · exact owned k u hold
      · exact ⟨b, hu, isMaker_of_asks cond hasks hu hfree⟩
    obtain ⟨b, hb, hmaker⟩ := hmaker
    obtain ⟨c, hc, hsame⟩ := hkept u b hb
    refine ⟨c, hc, ?_⟩
    rwa [isMaker, BankEntity.getRoles, hsame.roles]

end Owners

/-- **The same authority by requests and by contracts:** after every run, requests and operations give
users the same rights, and all owners of auctions along the run have `ROLE_AUCTION_MAKER`, exactly when
the users are entitled to what requests do for them, and every request of the run that opens an auction
comes from a user with the role. -/
theorem same_authority_iff (jvm : Jvm) (xs : List Action) :
    (SameRights jvm (BankService.new.runAll jvm xs) ∧
        ∀ ys, ys <+: xs → OwnedByMakers (reached jvm ys)) ↔
      Entitled jvm (BankService.new.runAll jvm xs) ∧
        ∀ ys x, ys ++ [x] <+: xs → OpenedByMaker (reached jvm ys) x := by
  have hnil : OwnedByMakers (reached jvm []) := by
    rintro k u howner
    cases howner
  exact and_congr (sameRights_iff jvm (reached_indexed xs))
    (Run.forall_prefix_iff hnil (ownedByMakers_step jvm) xs)

/-- A machine on which every upload is a contract that keeps its owner in a field of its own. -/
def ownOwnerJvm : Jvm :=
  Jvm.plain { ContractClass.queueing [] with extendsAuction := false, ownOperations := true }

/-- `alice` has no roles and `bob` is an auction maker. The contract 0 is one of `alice`, the contract 1
is one of `bob`, and `alice` opens the auction 7 by a request. -/
def openedWithoutRole : List Action :=
  [.ordered (Proxy.registerUser (some "alice") (some "secret") (some 10) none),
    .ordered (Proxy.registerUser (some "bob") (some "secret") (some 10)
      (some [some "ROLE_AUCTION_MAKER"])),
    .ordered (Proxy.createSmartContract (some "alice") []),
    .ordered (Proxy.createSmartContract (some "bob") []),
    .ordered (Proxy.createAuction (some "alice") (some 7))]

/-- **Two ways with different rights:** a request of `alice` has opened an auction and would open another
one, and `CREATE_AUCTION` of the contract of `alice` does nothing; and a request of `bob` closes the
auction, while `CLOSE_AUCTION` of the contract of `bob` with the key of the other contract does nothing.
-/
theorem opened_without_role :
    let st := BankService.new.runAll ownOwnerJvm openedWithoutRole
    ownerAt st.bankRepo (some 7) = some (some "alice") ∧
      (st.bankRepo.findByUserName (some "alice")).map isMaker = some false ∧
      Action.onBehalfOf st 0 = some (some "alice") ∧ Action.onBehalfOf st 1 = some (some "bob") ∧
      accepted (BankService.executeCreateAuction (some "alice") (some 8) st.bankRepo).1 = true ∧
      (st.sR.clearOperations 0).dispatch ownOwnerJvm st.bankRepo 0 (some "alice") ["CREATE_AUCTION"] =
        .ok none ∧
      accepted (BankService.executeCloseAuction ownOwnerJvm (some "bob") (some 7) st.bankRepo).1 = true ∧
      (st.sR.clearOperations 1).dispatch ownOwnerJvm st.bankRepo 1 (some "bob")
        ["CLOSE_AUCTION", "7", "0"] = .ok none := by
  decide

end NovaBank.Ledger
