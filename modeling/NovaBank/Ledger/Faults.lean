import NovaBank.Ledger.Answered
import NovaBank.Money.Moves
import NovaBank.Replica.Operations
import NovaBank.Replica.Passes

/-!
# Operations that end the runner

`run` of `SmartContractRunner` reads the words of an operation, looks up users, auctions and contracts and
unpacks what it finds without a handler, so an operation that misses something ends the thread, and with
it the execution of all contracts. `Fails` says for each case of the `switch` what may be missing.

`pass_completes_iff`: a pass over the contracts ends without an exception, and executes all operations of
all contracts, exactly when no operation fails when its turn comes.
-/

namespace NovaBank.Ledger

open Java Replica Money Proxy

/-! ## What an operation needs -/

/-- There is no word with that number, or it is not the text of a `long`. -/
def NoLong (ss : List String) (n : ℕ) : Prop := ∀ v, longWord ss n ≠ .ok v

/-- `CREATE_MONEY` of a user without a balance, or without an amount. -/
def FailsCreateMoney (s : BankRepository) (www : JString) (ss : List String) : Prop :=
  balanceOf s www = none ∨ NoLong ss 1

/-- `TRANSFER_MONEY` of a user without a balance, without an amount, or, if the balance is enough, to
somebody without a balance. -/
def FailsTransferMoney (s : BankRepository) (www : JString) (ss : List String) : Prop :=
  balanceOf s www = none ∨ NoLong ss 2 ∨
    ∃ old amount, balanceOf s www = some old ∧ longWord ss 2 = .ok amount ∧ 0 ≤ old - amount ∧
      ∀ receiver, word ss 1 = .ok receiver → balanceOf s (some receiver) = none

/-- `createBid` for a registered user throws on an opened auction whose owner's name is `null`, and on
one without a bid when the bidder has no balance. -/
def BidThrows (s : BankRepository) (id : Int64) (www : JString) (r : AuctionRef) : Prop :=
  s.findByUserName www ≠ none ∧ (s.auction r).isClosed = false ∧
    ((s.auction r).ownerUsername = none ∨
      (s.auction r).bids.get id = none ∧ balanceOf s www = none)

/-- `BID` without the id of an auction, or, if there is the auction, of a user whose name is `null`, or
of somebody who is not the owner, without an amount or so that the call throws. -/
def FailsBid (jvm : Jvm) (s : BankRepository) (www : JString) (ss : List String) : Prop :=
  NoLong ss 2 ∨ ∃ id r, longWord ss 2 = .ok id ∧ s.findByAuctionID (some id) = some r ∧
    (www = none ∨ sameName jvm www (s.auction r).ownerUsername = .ok false ∧
      (NoLong ss 1 ∨ BidThrows s id www r))

/-- Who may close: the owner of the given contract, or a user with `ROLE_AUCTION_MANAGER`. -/
def PassesCloseTest (jvm : Jvm) (s : BankRepository) (www owner : JString) : Prop :=
  sameName jvm www owner = .ok true ∨
    ∃ b, s.findByUserName www = some b ∧ b.getRoles.contains "ROLE_AUCTION_MANAGER" = true

/-- `CLOSE_AUCTION` without the key of a contract, of a user whose name is `null`, of somebody who is
neither its owner nor registered, or, for those who may close, without the id of an auction or so that
the call throws. -/
def FailsCloseAuction (jvm : Jvm) (ownerOf : Int32 → Option JString) (s : BankRepository)
    (www : JString) (ss : List String) : Prop :=
  (∀ key, intWord ss 2 = .ok key → ownerOf key = none) ∨
    ∃ key owner, intWord ss 2 = .ok key ∧ ownerOf key = some owner ∧
      (www = none ∨ sameName jvm www owner = .ok false ∧ s.findByUserName www = none ∨
        PassesCloseTest jvm s www owner ∧
          (NoLong ss 1 ∨ ∃ id, longWord ss 1 = .ok id ∧ Throws jvm s (.closeAuction www (some id))))

/-- The operation with the words `ss` on behalf of `www` throws. -/
def Fails (jvm : Jvm) (ownerOf : Int32 → Option JString) (s : BankRepository) (www : JString)
    (ss : List String) : Prop :=
  match ss.head? with
  -- A text of spaces only has no words.
  | none => True
  | some name =>
    if name = "CREATE_MONEY" then FailsCreateMoney s www ss
    else if name = "TRANSFER_MONEY" then FailsTransferMoney s www ss
    else if name = "CREATE_AUCTION" then s.findByUserName www = none
    else if name = "BID" then FailsBid jvm s www ss
    else if name = "CLOSE_AUCTION" then FailsCloseAuction jvm ownerOf s www ss
    else False

section Ends

variable {jvm : Jvm} {now : Int64} {s : BankRepository} {www : JString} {ss : List String}

/-- A case of the `switch` throws, or the call that it makes. -/
def Ends (jvm : Jvm) (now : Int64) (s : BankRepository)
    (x : Except JavaException (Option LedgerOperation)) : Prop :=
  match x with
  | .error _ => True
  | .ok none => False
  | .ok (some call) => ∃ e, (call.run jvm now s).1 = .error e

/-- The runner throws when it asks for a balance that is not there. -/
theorem balance_of_none {u : JString} (h : balanceOf s u = none) : ∃ e, s.balance u = .error e := by
  cases hb : s.balance u with
  | error e => exact ⟨e, rfl⟩
  | ok v =>
    rw [balance_eq_ok_iff.mp hb] at h
    cases h

/-- A case that throws before its call ends the runner. -/
theorem ends_of_error {x : Except JavaException (Option LedgerOperation)} (h : ∃ e, x = .error e) :
    Ends jvm now s x := by
  obtain ⟨e, rfl⟩ := h
  trivial

/-- When `CREATE_MONEY` ends the runner. -/
theorem ends_createMoney (jvm : Jvm) (now : Int64) (s : BankRepository) (www : JString)
    (ss : List String) :
    Ends jvm now s (SmartContractRunner.callCreateMoney s www ss) ↔ FailsCreateMoney s www ss := by
  unfold SmartContractRunner.callCreateMoney FailsCreateMoney
  -- The balance is read before the amount.
  cases hb : balanceOf s www with
  | none =>
    obtain ⟨e, he⟩ := balance_of_none hb
    rw [he]
    exact iff_of_true trivial (.inl rfl)
  | some old =>
    rw [balance_eq_ok_iff.mpr hb]
    cases hl : longWord ss 1 with
    | error e => exact iff_of_true trivial (.inr fun v hv => by simp [hl] at hv)
    | ok amount =>
      refine iff_of_false ?_ ?_
      · rintro ⟨e, he⟩
        cases he
      · rintro (h | h)
        · cases h
        · exact h amount hl

/-- When the balance is enough, the receiver is asked for. -/
theorem ends_transferMoney_of_enough (jvm : Jvm) (now : Int64) {old amount : Int64}
    (hb : balanceOf s www = some old) (hl : longWord ss 2 = .ok amount) (henough : 0 ≤ old - amount) :
    Ends jvm now s (SmartContractRunner.callTransferMoney s www ss) ↔
      ∀ receiver, word ss 1 = .ok receiver → balanceOf s (some receiver) = none := by
  obtain ⟨b, huser, -⟩ := find_of_balanceOf hb
  have hu : s.user www = .ok b := by simp [BankRepository.user, huser]
  unfold SmartContractRunner.callTransferMoney
  rw [hu, balance_eq_ok_iff.mpr hb, hl]
  -- Only when the amount is covered does the operation look at the receiver.
  cases hw : word ss 1 with
  | error e =>
    refine iff_of_true ?_ fun _ h => by cases h
    simp [bind, Except.bind, henough, Ends]
  | ok receiver =>
    cases hr : balanceOf s (some receiver) with
    | none =>
      obtain ⟨e, he⟩ := balance_of_none hr
      refine iff_of_true ?_ fun _ h => ?_
      · simp [bind, Except.bind, henough, he, Ends]
      · cases h
        exact hr
    | some toOld =>
      obtain ⟨c, hreceiver, -⟩ := find_of_balanceOf hr
      refine iff_of_false ?_ fun h => ?_
      · simp [bind, Except.bind, pure, Except.pure, henough, balance_eq_ok_iff.mpr hr, Ends,
          LedgerOperation.run, BankServiceHelper.transferMoney, huser, hreceiver]
      · rw [h receiver rfl] at hr
        cases hr

/-- When `TRANSFER_MONEY` ends the runner. -/
theorem ends_transferMoney (jvm : Jvm) (now : Int64) (s : BankRepository) (www : JString)
    (ss : List String) :
    Ends jvm now s (SmartContractRunner.callTransferMoney s www ss) ↔ FailsTransferMoney s www ss := by
  -- The order of the code: the own account, the amount, the balance, and then the receiver.
  cases hb : balanceOf s www with
  | none =>
    obtain ⟨e, he⟩ := balance_of_none hb
    refine iff_of_true (ends_of_error ?_) (.inl hb)
    unfold SmartContractRunner.callTransferMoney
    rw [he]
    exact exists_error_bind fun _ _ => exists_error_bind fun _ _ => ⟨e, rfl⟩
  | some old =>
    obtain ⟨b, huser, -⟩ := find_of_balanceOf hb
    have hu : s.user www = .ok b := by simp [BankRepository.user, huser]
    cases hl : longWord ss 2 with
    | error e =>
      refine iff_of_true ?_ (.inr (.inl fun v hv => by simp [hl] at hv))
      unfold SmartContractRunner.callTransferMoney
      rw [hu, hl]
      trivial
    | ok amount =>
      unfold FailsTransferMoney NoLong
      simp only [hb, hl, reduceCtorEq, false_or, Option.some.injEq, Except.ok.injEq, exists_and_left,
        exists_eq_left', ne_eq, forall_eq']
      by_cases henough : 0 ≤ old - amount
      · rw [ends_transferMoney_of_enough jvm now hb hl henough, and_iff_right henough]
      · refine iff_of_false ?_ fun h => henough h.1
        unfold SmartContractRunner.callTransferMoney
        rw [hu, balance_eq_ok_iff.mpr hb, hl]
        simp [bind, Except.bind, pure, Except.pure, henough, Ends]

/-- When `CREATE_AUCTION` ends the runner. -/
theorem ends_createAuction (jvm : Jvm) (now : Int64) (s : BankRepository) (i : Int32) (www : JString) :
    Ends jvm now s (SmartContractRunner.callCreateAuction s i www) ↔ s.findByUserName www = none := by
  unfold SmartContractRunner.callCreateAuction BankRepository.user
  cases s.findByUserName www with
  | none => exact iff_of_true trivial rfl
  | some b =>
    refine iff_of_false ?_ (by simp)
    simp only [bind, Except.bind, pure, Except.pure]
    split_ifs
    · rintro ⟨e, he⟩
      cases he
    · exact id

/-- When `createBid` throws, for somebody who has passed the test of the runner. -/
theorem createBid_throws_iff (h : Indexed s) {id : Int64} {r : AuctionRef}
    (auction : s.findByAuctionID (some id) = some r)
    (other : sameName jvm www (s.auction r).ownerUsername = .ok false) (now amount : Int64) :
    (∃ e, (BankServiceHelper.createBid jvm now id id amount www s).1 = .error e) ↔
      BidThrows s id www r := by
  unfold BidThrows BankServiceHelper.createBid balanceOf
  cases hu : s.findByUserName www with
  | none => simp
  | some be =>
    -- A bid on a closed auction is refused without an exception.
    rcases h.covered auction with ho | hc
    · obtain ⟨-, hclosed, hopen⟩ := h.opened ho
      simp only [auction, BankRepository.findByOpenedAuctionID, BankRepository.findByClosedAuctionID, ho,
        hclosed, BankServiceHelper.mayBid, BankServiceHelper.isOwner, hopen]
      cases howner : (s.auction r).ownerUsername with
      | none => simp
      | some owner =>
        -- The owner test of the helper asks the owner, and that of the runner the bidder.
        have hother : jvm.equalsIgnoreCase owner www = false := by
          rw [howner] at other
          cases www with
          | none => rfl
          | some w =>
            have hsame : jvm.equalsIgnoreCase w (some owner) = false := Except.ok.inj other
            rw [Jvm.equalsIgnoreCase, equalsIgnoreCase_comm]
            exact hsame
        simp only [hother, Except.map, Bool.not_false, Bool.and_self, if_true]
        cases hbid : (s.auction r).bids.get id with
        | some old => simp
        | none =>
          cases hv : be.amount with
          | none => simp [hv]
          | some balance =>
            simp only [Option.isNone_none, if_true]
            split_ifs <;> simp [hv]
    · obtain ⟨-, hopened, hisClosed⟩ := h.closed hc
      simp [auction, BankRepository.findByOpenedAuctionID, hopened, hisClosed]

/-- When `BID` ends the runner. -/
theorem ends_bid (h : Indexed s) (jvm : Jvm) (now : Int64) (www : JString) (ss : List String) :
    Ends jvm now s (SmartContractRunner.callBid jvm s www ss) ↔ FailsBid jvm s www ss := by
  unfold SmartContractRunner.callBid FailsBid
  -- The auction is looked up before the amount is read.
  cases hl : longWord ss 2 with
  | error e => exact iff_of_true trivial (.inl fun v hv => by simp [hl] at hv)
  | ok id =>
    have hid : ¬ NoLong ss 2 := fun h => h id hl
    simp only [hid, false_or, bind, Except.bind, Except.ok.injEq, exists_and_left, exists_eq_left']
    cases ha : s.findByAuctionID (some id) with
    | none => exact iff_of_false (fun h => h) (by simp)
    | some r =>
      simp only [Option.some.injEq, exists_eq_left']
      cases www with
      | none => exact iff_of_true trivial (.inl rfl)
      | some w =>
        simp only [sameName, reduceCtorEq, false_or, Except.ok.injEq]
        cases hsame : jvm.equalsIgnoreCase w (s.auction r).ownerUsername with
        | true => simp [Ends, pure, Except.pure]
        | false =>
          simp only [Bool.false_eq_true, if_false, true_and]
          cases ham : longWord ss 1 with
          | error e => exact iff_of_true trivial (.inl fun v hv => by simp [ham] at hv)
          | ok amount =>
            have hread : ¬ NoLong ss 1 := fun h => h amount ham
            simp only [hread, false_or]
            refine createBid_throws_iff h ha ?_ now amount
            rw [sameName, hsame]

/-- When `closeAution` throws. -/
theorem closeAution_throws_iff (h : Indexed s) (who : JString) (auctionID : JLong) :
    (∃ e, (BankServiceHelper.closeAution jvm auctionID who s).1 = .error e) ↔
      Throws jvm s (.closeAuction who auctionID) := by
  -- A closing that goes through throws when the owner has no balance; another one, when there is no
  -- owner.
  by_cases hcloses : ∃ r, Closes jvm auctionID who s r
  · obtain ⟨r, hcloses⟩ := hcloses
    obtain ⟨ho, be, hu, -⟩ := id hcloses
    rw [closeAution_of_closes h hcloses]
    rcases payOwner_cases (s.auction r).close
        ((s.updateAuction r AuctionEntity.close).closeAuction r) with
      ⟨hbalance, e, hpaid, -⟩ | ⟨hbalance, hpaid⟩
    · exact iff_of_true ⟨e, by rw [hpaid]; rfl⟩ ⟨r, ho, by simp [hu], .inr ⟨hcloses, hbalance⟩⟩
    · refine iff_of_false ?_ ?_
      · rw [hpaid]
        rintro ⟨e, he⟩
        cases he
      · rintro ⟨q, hq, -, hnone | ⟨-, hnone⟩⟩ <;>
          obtain rfl : r = q := Option.some.inj (ho.symm.trans hq)
        · exact ownerUsername_of_closes hcloses hnone
        · exact hbalance hnone
  · have hkept := not_exists.mp hcloses
    rcases closeAution_of_not_closes h hkept with ⟨⟨r, ho, hu, howner⟩, hthrown⟩ | ⟨hnamed, j, hj, -⟩
    · exact iff_of_true ⟨_, hthrown⟩ ⟨r, ho, hu, .inl howner⟩
    · refine iff_of_false ?_ ?_
      · rw [hj]
        rintro ⟨e, he⟩
        cases he
      · rintro ⟨r, ho, hu, howner | ⟨hcloses, -⟩⟩
        · exact hnamed ⟨r, ho, hu, howner⟩
        · exact hkept r hcloses

/-- The call to close, once the test is passed. -/
theorem ends_close (h : Indexed s) (jvm : Jvm) (now : Int64) (www : JString) (ss : List String) :
    Ends jvm now s (do
        let id ← longWord ss 1
        return some (.closeAution (some id) www)) ↔
      NoLong ss 1 ∨ ∃ id, longWord ss 1 = .ok id ∧ Throws jvm s (.closeAuction www (some id)) := by
  cases hl : longWord ss 1 with
  | error e => exact iff_of_true trivial (.inl fun v hv => by simp [hl] at hv)
  | ok id =>
    have hid : ¬ NoLong ss 1 := fun h => h id hl
    simp only [hid, false_or, Except.ok.injEq, exists_eq_left']
    exact closeAution_throws_iff h www (some id)

/-- When `CLOSE_AUCTION` ends the runner. -/
theorem ends_closeAuction (h : Indexed s) (jvm : Jvm) (now : Int64) (sR : SmartContractRunner)
    (www : JString) (ss : List String) :
    Ends jvm now s (SmartContractRunner.callCloseAuction jvm sR s www ss) ↔
      FailsCloseAuction jvm sR.ownerOf s www ss := by
  unfold SmartContractRunner.callCloseAuction FailsCloseAuction
  -- The key of a contract is read first, and its owner is looked up at once.
  cases hkey : intWord ss 2 with
  | error e => exact iff_of_true trivial (.inl fun key hv => by cases hv)
  | ok key =>
    simp only [Except.ok.injEq, exists_and_left, exists_eq_left', forall_eq']
    dsimp only [bind, Except.bind]
    cases howner : sR.ownerOf key with
    | none => exact iff_of_true trivial (.inl rfl)
    | some owner =>
      simp only [reduceCtorEq, false_or, Option.some.injEq, exists_eq_left']
      cases www with
      | none => exact iff_of_true trivial (.inl rfl)
      | some w =>
        simp only [sameName, PassesCloseTest, reduceCtorEq, false_or, Except.ok.injEq]
        -- The id is read only after the test has passed.
        cases hsame : jvm.equalsIgnoreCase w owner with
        | true =>
          simp only [true_or, true_and, reduceCtorEq, false_and, false_or]
          exact ends_close h jvm now (some w) ss
        | false =>
          simp only [reduceCtorEq, false_or, true_and]
          simp only [BankRepository.user, if_false]
          cases hu : s.findByUserName (some w) with
          | none => exact iff_of_true trivial (.inl rfl)
          | some b =>
            simp only [reduceCtorEq, false_or, Option.some.injEq, exists_eq_left']
            cases b.getRoles.contains "ROLE_AUCTION_MANAGER" with
            | true =>
              simp only [if_true, true_and]
              exact ends_close h jvm now (some w) ss
            | false => exact iff_of_false (fun h => h) (by simp)

/-- The cases of the `switch` throw when something is missing. -/
theorem ends_dispatch_iff (h : Indexed s) (jvm : Jvm) (now : Int64) (sR : SmartContractRunner)
    (i : Int32) (www : JString) (ss : List String) :
    Ends jvm now s (sR.dispatch jvm s i www ss) ↔ Fails jvm sR.ownerOf s www ss := by
  unfold SmartContractRunner.dispatch Fails
  cases ss with
  | nil => exact Iff.rfl
  | cons name ss =>
    -- The five operations by name.
    show Ends jvm now s (if _ then _ else _) ↔ if _ then _ else _
    split_ifs
    · exact ends_createMoney jvm now s www _
    · exact ends_transferMoney jvm now s www _
    · exact ends_createAuction jvm now s i www
    · exact ends_bid h jvm now www _
    · exact ends_closeAuction h jvm now sR www _
    · exact Iff.rfl

end Ends

/-! ## Passes -/

/-- The operation of the contract `i` finds all that it needs. -/
def Sound (jvm : Jvm) (st : BankService) (i : Int32) (op : String) : Prop :=
  ∃ www, st.sR.ownerOf i = some www ∧
    ¬ Fails jvm st.sR.ownerOf st.bankRepo www (split " " op)

/-- All operations in the list `k` are executed in a pass, one after the other, by a contract that has the
list: the thread runs when the turn of each one comes. -/
def ExecutesList (jvm : Jvm) (now : Int32 → ℕ → Int64) (st : BankService) (k : Option Int32) : Prop :=
  ∃ j ys, st.sR.listOf j = some k ∧
    ys ++ visitActions now (j, st.sR.operationsIn k) <+: st.schedule jvm now ∧
    ∀ zs x, zs ++ [x] <+: visitActions now (j, st.sR.operationsIn k) →
      (st.runAll jvm (ys ++ zs)).sR.alive = true

section Passes

variable {jvm : Jvm} {st : BankService}

/-- An operation does not throw when its contract has an owner and its case does not end the runner. -/
theorem throws_eq_false_iff {now : Int64} {i : Int32} {op : String} :
    st.throws jvm now i op = false ↔ ∃ www, st.sR.ownerOf i = some www ∧
      ¬ Ends jvm now st.bankRepo (st.sR.dispatch jvm st.bankRepo i www (split " " op)) := by
  unfold BankService.throws
  cases st.sR.ownerOf i with
  | none => simp
  | some www =>
    simp only [Option.some.injEq, exists_eq_left']
    -- An operation without a call keeps the last result, and cannot throw any more.
    cases st.sR.dispatch jvm st.bankRepo i www (split " " op) with
    | error e => simp [Ends]
    | ok call =>
      cases call with
      | none => simp [Ends, BankService.callResult, Except.isOk, Except.toBool]
      | some call =>
        simp only [Ends, BankService.callResult]
        cases (call.run jvm now st.bankRepo).1 <;> simp [Except.isOk, Except.toBool]

/-- The thread runs on after an operation exactly when the operation finds all that it needs. -/
theorem alive_operation_iff (h : Indexed st.bankRepo) (halive : st.sR.alive = true) (now : Int64)
    (i : Int32) (op : String) :
    ((Action.operation now i op).run jvm st).sR.alive = true ↔ Sound jvm st i op := by
  have howner : (st.sR.clearOperations i).ownerOf = st.sR.ownerOf :=
    funext (SmartContractRunner.ownerOf_clearOperations st.sR i)
  obtain ⟨j, hsR⟩ := BankService.perform_sR jvm now i op { st with sR := st.sR.clearOperations i }
  rw [Action.run, if_pos halive, BankService.runOperation_eq_perform, hsR]
  simp only [SmartContractRunner.clearOperations_alive, halive, Bool.true_and, Bool.not_eq_true',
    throws_eq_false_iff]
  unfold Sound
  simp only [ends_dispatch_iff h, howner]

/-- The thread runs at the end of some operations exactly when it does at every point before. -/
theorem alive_runAll_iff {xs : List Action} (hxs : ∀ x ∈ xs, ∃ t i op, x = .operation t i op) :
    (st.runAll jvm xs).sR.alive = true ↔ ∀ ys, ys <+: xs → (st.runAll jvm ys).sR.alive = true := by
  constructor
  · rintro h ys ⟨zs, rfl⟩
    by_contra hdead
    rw [BankService.runAll_append, runAll_ended (Bool.eq_false_iff.mpr hdead)
      fun x hx => hxs x (List.mem_append_right ys hx)] at h
    exact hdead h
  · exact fun h => h xs List.prefix_rfl

/-- Each operation finds what it needs exactly when the thread runs at every point. -/
theorem alive_prefix_iff (h : Indexed st.bankRepo) (halive : st.sR.alive = true) {xs : List Action}
    (hxs : ∀ x ∈ xs, ∃ t i op, x = .operation t i op) :
    (∀ ys, ys <+: xs → (st.runAll jvm ys).sR.alive = true) ↔
      ∀ ys t i op, ys ++ [.operation t i op] <+: xs → Sound jvm (st.runAll jvm ys) i op := by
  have hindexed : ∀ ys, Indexed (st.runAll jvm ys).bankRepo := fun ys =>
    h.updates (BankService.runAll_updates ys st)
  constructor
  · intro hall ys t i op hprefix
    have hnext := hall _ hprefix
    rw [BankService.runAll_concat] at hnext
    exact (alive_operation_iff (hindexed ys)
      (hall ys ((List.prefix_append _ _).trans hprefix)) t i op).mp hnext
  · intro hsound ys
    -- On the operations, from the end: the ones before keep the thread alive.
    induction ys using List.reverseRecOn with
    | nil => exact fun _ => halive
    | append_singleton ys x ih =>
      intro hbegins
      obtain ⟨t, i, op, rfl⟩ := hxs x (hbegins.subset (by simp))
      rw [BankService.runAll_concat]
      exact (alive_operation_iff (hindexed ys) (ih ((List.prefix_append _ _).trans hbegins)) t i op).mpr
        (hsound ys t i op hbegins)

/-- When the thread runs at every point, the list of each contract is executed. -/
theorem executesList (now : Int32 → ℕ → Int64)
    (hall : ∀ ys, ys <+: st.schedule jvm now → (st.runAll jvm ys).sR.alive = true) {i : Int32}
    {k : Option Int32} (hk : st.sR.listOf i = some k) : ExecutesList jvm now st k := by
  have hmem : i ∈ jvm.order st.sR.contracts.keys := by
    rw [(jvm.order_perm _).mem_iff, JavaMap.mem_keys_iff]
    obtain ⟨c, hc, -⟩ := Option.map_eq_some_iff.mp hk
    exact ⟨c, hc⟩
  -- The list is read by the first of the contracts that share it.
  obtain ⟨j, hj, hvisit⟩ := exists_visit hk hmem st.sR.operationsIn
  obtain ⟨before, after, hsplit⟩ := List.append_of_mem hvisit
  have hschedule : st.schedule jvm now = before.flatMap (visitActions now) ++
      (visitActions now (j, st.sR.operationsIn k) ++ after.flatMap (visitActions now)) := by
    rw [BankService.schedule, BankService.passVisits, hsplit, List.flatMap_append, List.flatMap_cons]
  refine ⟨j, before.flatMap (visitActions now), hj, ?_, fun zs x hzs => hall _ ?_⟩
  · rw [hschedule, ← List.append_assoc]
    exact List.prefix_append _ _
  · rw [hschedule]
    exact (List.prefix_append_right_inj _).mpr
      (((List.prefix_append _ _).trans hzs).trans (List.prefix_append _ _))

end Passes

/-- **A pass that completes:** for every reachable repository, all contracts and all operations in their
lists, a pass of the runner ends without an exception, and executes the operations of all contracts,
exactly when each operation of the pass finds all that it needs when its turn comes. -/
theorem pass_completes_iff (jvm : Jvm) (xs : List Action) (sR : SmartContractRunner)
    (halive : sR.alive = true) (now : Int32 → ℕ → Int64) :
    let st : BankService := ⟨reached jvm xs, sR⟩
    ((st.pass jvm now).sR.alive = true ∧ ∀ i k, sR.listOf i = some k → ExecutesList jvm now st k) ↔
      ∀ ys t i op, ys ++ [.operation t i op] <+: st.schedule jvm now →
        Sound jvm (st.runAll jvm ys) i op := by
  intro st
  have hops : ∀ x ∈ st.schedule jvm now, ∃ t i op, x = .operation t i op :=
    fun x hx => exists_operation_of_mem hx
  have hindexed : Indexed st.bankRepo := reached_indexed xs
  rw [pass_eq_runAll_schedule, alive_runAll_iff hops, ← alive_prefix_iff hindexed halive hops]
  exact ⟨fun h => h.1, fun h => ⟨h, fun i k hk => executesList now h hk⟩⟩

/-- A contract of `alice` that has queued a deposit, and one of `bob` that has queued a deposit and a
transfer, each in a list of its own. -/
def depositing : SmartContractRunner :=
  { SmartContractRunner.new with
    contracts := (KeyedMap.empty.put (0, ⟨some (some "alice"), some ["CREATE_MONEY 5"]⟩)).put
      (1, ⟨some (some "bob"), some ["CREATE_MONEY 3", "TRANSFER_MONEY alice 2"]⟩) }

/-- Both are registered, without money. -/
def depositors : List Action :=
  [.ordered (Proxy.registerUser (some "alice") (some "secret") (some 0) none),
    .ordered (Proxy.registerUser (some "bob") (some "secret") (some 0) none)]

/-- A machine without further contracts. -/
def depositorsJvm : Jvm := Jvm.plain (ContractClass.queueing [])

/-- The replica with the two users and the two contracts. -/
def depositorsService : BankService := ⟨reached depositorsJvm depositors, depositing⟩

/-- The operations of its next pass. -/
theorem schedule_depositors :
    depositorsService.schedule depositorsJvm (fun _ _ => 0) = [.operation 0 0 "CREATE_MONEY 5",
      .operation 0 1 "CREATE_MONEY 3", .operation 0 1 "TRANSFER_MONEY alice 2"] := rfl

/-- Each of them finds what it needs. -/
theorem sound_depositors : ∀ ys x, ys ++ [x] <+: depositorsService.schedule depositorsJvm (fun _ _ => 0) →
    ∀ t i op, x = .operation t i op → Sound depositorsJvm (depositorsService.runAll depositorsJvm ys) i
      op := by
  rw [schedule_depositors]
  refine Run.forall_concat_prefix_cons ?_ (Run.forall_concat_prefix_cons ?_
    (Run.forall_concat_prefix_cons ?_ Run.forall_concat_prefix_nil))
  · rintro t i op hop
    cases hop
    refine ⟨some "alice", rfl, ?_⟩
    rintro (hbalance | hamount)
    · exact absurd hbalance (by decide)
    · exact hamount 5 (by decide)
  · rintro t i op hop
    cases hop
    refine ⟨some "bob", rfl, ?_⟩
    rintro (hbalance | hamount)
    · exact absurd hbalance (by decide)
    · exact hamount 3 (by decide)
  · -- The deposit of `bob` has been executed by now.
    rintro t i op hop
    cases hop
    refine ⟨some "bob", rfl, ?_⟩
    rintro (hbalance | hamount | ⟨old, amount, -, -, -, hreceiver⟩)
    · exact absurd hbalance (by decide)
    · exact hamount 2 (by decide)
    · exact absurd (hreceiver "alice" (by decide)) (by decide)

/-- All operations of both contracts are executed, and the money is where they put it. -/
theorem pass_completes_deposit :
    depositing.alive = true ∧
      (depositorsService.pass depositorsJvm fun _ _ => 0).sR.alive = true ∧
      ExecutesList depositorsJvm (fun _ _ => 0) depositorsService (some 0) ∧
      ExecutesList depositorsJvm (fun _ _ => 0) depositorsService (some 1) ∧
      balanceOf (depositorsService.pass depositorsJvm fun _ _ => 0).bankRepo (some "alice") = some 7 ∧
      balanceOf (depositorsService.pass depositorsJvm fun _ _ => 0).bankRepo (some "bob") = some 1 := by
  obtain ⟨halive, hlists⟩ := (pass_completes_iff depositorsJvm depositors depositing rfl fun _ _ => 0).mpr
    fun ys t i op h => sound_depositors ys _ h t i op rfl
  exact ⟨rfl, halive, hlists 0 (some 0) rfl, hlists 1 (some 1) rfl, by decide, by decide⟩

/-- A machine on which the empty byte code is a contract that queues a transfer of 1 to `nobody`, and all
other code is one that queues a deposit of 5. -/
def faultyJvm : Jvm where
  order := id
  order_perm := List.Perm.refl
  foldCase := id
  text := fun _ => ""
  defineClass := fun code =>
    .ok (ContractClass.queueing
      (if code = [] then [AuctionSmartContract.tranferMoney (some "nobody") 1]
        else [AuctionSmartContract.createMoney 5]))

/-- **One operation that ends the runner:** a contract of `alice` queues a transfer to a user who does
not exist, and one of `bob` queues a deposit. The transfer ends the thread, and the deposit is executed
neither in this pass nor in a later one. -/
theorem transfer_ends_runner :
    let st := (BankService.new.run faultyJvm
      [.ordered (Proxy.registerUser (some "alice") (some "secret") (some 10) none),
        .ordered (Proxy.registerUser (some "bob") (some "secret") (some 10) none),
        .ordered (Proxy.createSmartContract (some "alice") []),
        .ordered (Proxy.createSmartContract (some "bob") [1])]).2
    let st' := st.pass faultyJvm fun _ _ => 0
    st.sR.operationsIn none = ["TRANSFER_MONEY nobody 1", "CREATE_MONEY 5"] ∧ st.sR.alive = true ∧
      st'.sR.alive = false ∧ st'.bankRepo = st.bankRepo ∧ st'.pass faultyJvm (fun _ _ => 0) = st' := by
  decide

end NovaBank.Ledger
