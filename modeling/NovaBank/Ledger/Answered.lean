import NovaBank.Ledger.Refusals
import NovaBank.Proxy.Invoke
import NovaBank.Replica.Runs

/-!
# Which requests get an answer

The `invoke` methods test for an empty reply, but a replica that refuses a request returns `null`: the
empty array is assigned to a variable that is not the one that is returned. A request can also end in
an exception that is not caught, and then nothing is returned. `reply_cases` says for every request
when the reply is `null` (`Ignored`), when there is an exception (`Throws`), and that there are objects
in the reply else. `answered_iff`: a request gets the answer that its method can handle exactly when
neither is the case.
-/

namespace NovaBank.Ledger

open Java Replica Money Proxy

/-- A request that writes nothing to its reply. -/
def Ignored (jvm : Jvm) (s : BankRepository) : ClientRequest → Prop
  | .createNew username _ _ _ => s.findByUserName username ≠ none
  | .createMoney who _ _ => s.findByUserName who = none
  | .transferMoney sender _ receiver _ _ _ =>
    s.findByUserName sender = none ∨ s.findByUserName receiver = none
  | .createAuction who auctionID => s.findByUserName who = none ∨ s.findByAuctionID auctionID ≠ none
  | .closeAuction _ _ => False
  -- No `switch` has a case for it.
  | .createBid _ _ _ _ => True
  | .createSmartContract who code =>
    s.findByUserName who = none ∨ jvm.defineClass code.val = .error .classNotFound
  | .findUser username | .checkCurrentAmount username => s.findByUserName username = none
  | .list (.bidsFromAuction auctionID) => s.findByAuctionID auctionID = none
  | .list (.bidsFromUser who) => s.findByUserName who = none
  | .list _ => False
  | .checkWinnerBidClosedAuction auctionID =>
    s.findByAuctionID auctionID = none ∨ s.findByClosedAuctionID auctionID = none

/-- A request, not an ignored one, that ends in an exception that no handler names: a role or an
amount is `null`, the name of an owner is, or the uploaded class is none of a contract. -/
def Throws (jvm : Jvm) (s : BankRepository) : ClientRequest → Prop
  | .createNew _ _ _ roles => ∃ rs, roles = some rs ∧ none ∈ rs
  | .createMoney who _ _ | .checkCurrentAmount who => balanceOf s who = none
  | .transferMoney sender fromSaldo receiver _ _ _ => balanceOf s sender = none ∨
      balanceOf s sender = some fromSaldo ∧ balanceOf s receiver = none
  | .closeAuction who auctionID => ∃ r, s.findByOpenedAuctionID auctionID = some r ∧
      s.findByUserName who ≠ none ∧ ((s.auction r).ownerUsername = none ∨
        Closes jvm auctionID who s r ∧ balanceOf s (s.auction r).ownerUsername = none)
  | .createSmartContract _ code =>
    (∃ e, jvm.defineClass code.val = .error e ∧ BankService.isLoading e = false) ∨
      ∃ cl, jvm.defineClass code.val = .ok cl ∧ cl.hasStringConstructor = true ∧
        cl.constructorThrows = false ∧ cl.isSmartContract = false
  | _ => False

/-- What a request leads to after the epilogue, in the three cases. -/
structure Replies (ignored throws : Prop) (result : Except JavaException Reply) : Prop where
  null : ignored → finished result = .ok none
  thrown : ¬ ignored → throws → ∃ e, finished result = .error e
  objects : ¬ ignored → ¬ throws → ∃ os, finished result = .ok (some os)

namespace Replies

variable {ignored throws : Prop} {result : Except JavaException Reply}

/-- A case whose result is `null`. -/
theorem of_null (h : ignored) (hresult : finished result = .ok none) :
    Replies ignored throws result :=
  ⟨fun _ => hresult, fun hi => absurd h hi, fun hi => absurd h hi⟩

/-- A case that ends in an exception that is not caught. -/
theorem of_thrown {e : JavaException} (h : ¬ ignored) (hthrows : throws)
    (hresult : finished result = .error e) : Replies ignored throws result :=
  ⟨fun hi => absurd hi h, fun _ _ => ⟨e, hresult⟩, fun _ ht => absurd hthrows ht⟩

/-- A case that writes objects. -/
theorem of_objects {os : List ReplyObject} (h : ¬ ignored) (hthrows : ¬ throws)
    (hresult : finished result = .ok (some os)) : Replies ignored throws result :=
  ⟨fun hi => absurd hi h, fun _ ht => absurd ht hthrows, fun _ _ => ⟨os, hresult⟩⟩

end Replies

section Cases

variable {jvm : Jvm} {s : BankRepository}

/-- The roles of a registration are read unless one of them is `null`. -/
theorem appendRoles_cases (jvm : Jvm) (acc : String) (rs : List JString) :
    (none ∈ rs ∧ BankEntity.appendRoles jvm acc rs = .error .nullPointer) ∨
      none ∉ rs ∧ ∃ roles, BankEntity.appendRoles jvm acc rs = .ok roles := by
  induction rs generalizing acc with
  | nil => exact .inr ⟨by simp, acc, rfl⟩
  | cons r rs ih =>
    cases r with
    | none => exact .inl ⟨by simp, rfl⟩
    | some r =>
      simp only [BankEntity.appendRoles, List.mem_cons, reduceCtorEq, false_or]
      split_ifs
      · exact ih acc
      · exact ih _

/-- A registration of a name that is taken writes nothing, whether its arguments can be read or not. -/
theorem executeRegisterUser_of_taken {username : JString} {b : BankEntity}
    (hu : s.findByUserName username = some b)
    (rest : Except JavaException (JString × JLong × Option (List JString))) :
    (BankService.executeRegisterUser jvm username rest s).1 = .ok none := by
  simp only [BankService.executeRegisterUser, hu]

/-- The registration of a free name writes the name, unless the constructor throws. -/
theorem executeRegisterUser_of_free {username : JString} (hu : s.findByUserName username = none)
    (password : JString) (amount : JLong) (roles : Option (List JString)) :
    (BankService.executeRegisterUser jvm username (.ok (password, amount, roles)) s).1 =
      (BankEntity.new jvm username password amount roles).map fun _ => some [.name username] := by
  simp only [BankService.executeRegisterUser, hu, BankServiceHelper.registerUser]
  cases hnew : BankEntity.new jvm username password amount roles with
  | error e => rfl
  | ok b => simp only [Except.map, BankEntity.userName_of_new hnew]

/-- The constructor throws exactly when a role is `null`. -/
theorem new_cases (jvm : Jvm) (username password : JString) (amount : JLong)
    (roles : Option (List JString)) :
    ((∃ rs, roles = some rs ∧ none ∈ rs) ∧
        BankEntity.new jvm username password amount roles = .error .nullPointer) ∨
      (¬ ∃ rs, roles = some rs ∧ none ∈ rs) ∧
        ∃ b, BankEntity.new jvm username password amount roles = .ok b := by
  cases roles with
  | none => exact .inr ⟨by simp, _, rfl⟩
  | some rs =>
    simp only [BankEntity.new, Option.some.injEq, exists_eq_left']
    rcases appendRoles_cases jvm "ROLE_USER" rs with ⟨hmem, hr⟩ | ⟨hmem, roles, hr⟩
    · exact .inl ⟨hmem, by rw [hr]; rfl⟩
    · exact .inr ⟨hmem, _, by rw [hr]; rfl⟩

/-- `REGISTER_USER` is ignored for a name that is taken, and throws on a role that is `null`. -/
theorem createNew_replies (username password : JString) (amount : JLong)
    (roles : Option (List JString)) :
    Replies (s.findByUserName username ≠ none) (∃ rs, roles = some rs ∧ none ∈ rs)
      (BankService.executeRegisterUser jvm username (.ok (password, amount, roles)) s).1 := by
  -- A taken name is answered with `null`, and a `null` role throws.
  cases hu : s.findByUserName username with
  | some b =>
    rw [executeRegisterUser_of_taken hu]
    exact .of_null (by simp) rfl
  | none =>
    rw [executeRegisterUser_of_free hu]
    rcases new_cases jvm username password amount roles with ⟨hnull, hnew⟩ | ⟨hnull, b, hnew⟩
    · rw [hnew]
      exact .of_thrown (by simp) hnull rfl
    · rw [hnew]
      exact .of_objects (by simp) hnull rfl

/-- `CREATE_MONEY` is ignored for somebody who is not registered, and throws without a balance. -/
theorem createMoney_replies (who : JString) (original amount : Int64) :
    Replies (s.findByUserName who = none) (balanceOf s who = none)
      (BankService.executeCreateMoney who (.ok (original, amount)) s).1 := by
  -- An unknown user is answered with `null`, and a `null` balance throws.
  cases hu : s.findByUserName who with
  | none =>
    apply Replies.of_null rfl
    simp only [BankService.executeCreateMoney, hu]
    rfl
  | some b =>
    simp only [BankService.executeCreateMoney, BankRepository.compareAmount, balanceOf, hu,
      Option.bind_some]
    cases hv : b.amount with
    | none => exact .of_thrown (by simp) rfl rfl
    | some v =>
      dsimp only
      split_ifs <;> exact .of_objects (by simp) (by simp) rfl

/-- `TRANSFER_MONEY` is ignored unless both are registered. It throws when the sender has no balance, or
when that is compared first and is right, and the receiver has none. -/
theorem transferMoney_replies (sender : JString) (fromSaldo : Int64) (receiver : JString)
    (toSaldo fromAmount toAmount : Int64) :
    Replies (s.findByUserName sender = none ∨ s.findByUserName receiver = none)
      (balanceOf s sender = none ∨
        balanceOf s sender = some fromSaldo ∧ balanceOf s receiver = none)
      (BankService.executeTransferMoney sender fromSaldo receiver toSaldo fromAmount toAmount s).1 := by
  cases hs : s.findByUserName sender with
  | none =>
    apply Replies.of_null (.inl rfl)
    simp only [BankService.executeTransferMoney, hs]
    rfl
  | some b =>
    cases hr : s.findByUserName receiver with
    | none =>
      apply Replies.of_null (.inr rfl)
      simp only [BankService.executeTransferMoney, hs, hr]
      rfl
    | some c =>
      simp only [BankService.executeTransferMoney, BankServiceHelper.transferMoney, balanceOf, hs, hr,
        Option.bind_some, BankService.amountsAre, BankService.amountIs]
      cases hv : b.amount with
      | none => exact .of_thrown (by simp) (.inl rfl) rfl
      | some v =>
        by_cases hsaldo : v = fromSaldo
        · subst hsaldo
          simp only [beq_self_eq_true]
          -- The receiver's amount is looked at now.
          cases hw : c.amount with
          | none => exact .of_thrown (by simp) (by simp) rfl
          | some w =>
            dsimp only
            cases w == toSaldo <;> exact .of_objects (by simp) (by simp) rfl
        · simp only [beq_eq_false_iff_ne.mpr hsaldo]
          exact .of_objects (by simp) (by simp [hsaldo]) rfl

/-- Whether a user may close an auction is asked in vain when its owner's name is `null`. -/
theorem mayClose_cases (jvm : Jvm) (be : BankEntity) (who : JString) (a : AuctionEntity) :
    (a.ownerUsername = none ∧ BankServiceHelper.mayClose jvm be who a a = .error .nullPointer) ∨
      a.ownerUsername ≠ none ∧ ∃ allowed, BankServiceHelper.mayClose jvm be who a a = .ok allowed := by
  unfold BankServiceHelper.mayClose BankServiceHelper.isOwner
  cases ho : a.ownerUsername with
  | none => exact .inl ⟨rfl, rfl⟩
  | some owner =>
    refine .inr ⟨by simp, ?_⟩
    dsimp only
    cases jvm.equalsIgnoreCase owner who <;> exact ⟨_, rfl⟩

/-- The owner of an auction that is closed has a name. -/
theorem ownerUsername_of_closes {who : JString} {auctionID : JLong} {r : AuctionRef}
    (closes : Closes jvm auctionID who s r) : (s.auction r).ownerUsername ≠ none := by
  obtain ⟨-, be, -, hm⟩ := closes
  rcases mayClose_cases jvm be who (s.auction r) with ⟨-, hthrown⟩ | ⟨howner, -⟩
  · rw [hm] at hthrown
    cases hthrown
  · exact howner

/-- When nothing is closed, an auction that is opened by an owner without a name makes `closeAution`
throw, and otherwise there is an error in what it returns. -/
theorem closeAution_of_not_closes (h : Indexed s) {who : JString} {auctionID : JLong}
    (kept : ∀ r, ¬ Closes jvm auctionID who s r) :
    ((∃ r, s.findByOpenedAuctionID auctionID = some r ∧ s.findByUserName who ≠ none ∧
          (s.auction r).ownerUsername = none) ∧
        (BankServiceHelper.closeAution jvm auctionID who s).1 = .error .nullPointer) ∨
      (¬ ∃ r, s.findByOpenedAuctionID auctionID = some r ∧ s.findByUserName who ≠ none ∧
          (s.auction r).ownerUsername = none) ∧
        ∃ j, (BankServiceHelper.closeAution jvm auctionID who s).1 = .ok j ∧ j.has "error" = true := by
  cases hu : s.findByUserName who with
  | none => exact .inr ⟨by simp, by simp only [BankServiceHelper.closeAution, hu]; exact ⟨_, rfl, rfl⟩⟩
  | some be =>
    rcases h.auction_cases auctionID with ⟨ha, ho, hc⟩ | ⟨r, ha, ho, hc⟩ | ⟨r, ha, ho, hc⟩
    · simp only [BankServiceHelper.closeAution, hu, BankRepository.findByAuctionID,
        BankRepository.findByOpenedAuctionID, ha, ho]
      exact .inr ⟨by simp, _, rfl, rfl⟩
    · -- Only an opened auction has its owner looked at.
      simp only [BankServiceHelper.closeAution, hu, BankRepository.findByAuctionID,
        BankRepository.findByOpenedAuctionID, BankRepository.findByClosedAuctionID, ha, ho, hc]
      rcases mayClose_cases jvm be who (s.auction r) with ⟨howner, hm⟩ | ⟨howner, allowed, hm⟩
      · rw [hm]
        exact .inl ⟨⟨r, rfl, by simp, howner⟩, rfl⟩
      · cases allowed with
        | true => exact absurd ⟨ho, be, hu, hm⟩ (kept r)
        | false =>
          rw [hm]
          refine .inr ⟨?_, _, rfl, rfl⟩
          rintro ⟨q, hq, -, hnone⟩
          cases hq
          exact howner hnone
    · simp only [BankServiceHelper.closeAution, hu, BankRepository.findByAuctionID,
        BankRepository.findByOpenedAuctionID, ha, ho]
      exact .inr ⟨by simp, _, rfl, rfl⟩

/-- `CLOSE_AUCTION` always writes an object, except when the owner of an opened auction has no name, or
has no balance when the auction is closed. -/
theorem closeAuction_replies (h : Indexed s) (who : JString) (auctionID : JLong) :
    Replies False (∃ r, s.findByOpenedAuctionID auctionID = some r ∧ s.findByUserName who ≠ none ∧
        ((s.auction r).ownerUsername = none ∨
          Closes jvm auctionID who s r ∧ balanceOf s (s.auction r).ownerUsername = none))
      (BankService.executeCloseAuction jvm who auctionID s).1 := by
  unfold BankService.executeCloseAuction
  -- A closing that goes through can still throw when its owner is paid.
  by_cases hcloses : ∃ r, Closes jvm auctionID who s r
  · obtain ⟨r, hcloses⟩ := hcloses
    obtain ⟨ho, be, hu, -⟩ := id hcloses
    rw [closeAution_of_closes h hcloses]
    dsimp only
    rcases payOwner_cases (s.auction r).close
        ((s.updateAuction r AuctionEntity.close).closeAuction r) with
      ⟨hbalance, e, hpaid, he⟩ | ⟨hbalance, hpaid⟩
    · rw [hpaid]
      refine .of_thrown (e := e) (by simp) ⟨r, ho, by simp [hu], .inr ⟨hcloses, hbalance⟩⟩ ?_
      simp [finished, Except.map, he]
    · rw [hpaid]
      refine .of_objects (by simp) ?_ rfl
      rintro ⟨q, hq, -, hnone⟩
      obtain rfl : r = q := Option.some.inj (ho.symm.trans hq)
      rcases hnone with hnone | ⟨-, hnone⟩
      · exact ownerUsername_of_closes hcloses hnone
      · exact hbalance hnone
  · have hkept := not_exists.mp hcloses
    rcases closeAution_of_not_closes h hkept with ⟨⟨r, ho, hu, howner⟩, hthrown⟩ | ⟨hnamed, j, hj, -⟩
    · dsimp only
      rw [hthrown]
      exact .of_thrown (by simp) ⟨r, ho, hu, .inl howner⟩ rfl
    · dsimp only
      rw [hj]
      refine .of_objects (by simp) ?_ rfl
      rintro ⟨r, ho, hu, howner | ⟨hcloses, -⟩⟩
      · exact hnamed ⟨r, ho, hu, howner⟩
      · exact hkept r hcloses

/-- `CREATE_AUCTION` is ignored for somebody who is not registered and for an id that is taken. -/
theorem createAuction_replies (who : JString) (auctionID : JLong) :
    Replies (s.findByUserName who = none ∨ s.findByAuctionID auctionID ≠ none) False
      (BankService.executeCreateAuction who auctionID s).1 := by
  unfold BankService.executeCreateAuction
  cases hu : s.findByUserName who with
  | none => exact .of_null (.inl rfl) rfl
  | some b =>
    cases ha : s.findByAuctionID auctionID with
    | some r => exact .of_null (.inr (by simp)) rfl
    | none => exact .of_objects (by simp) (by simp) rfl

/-- `CREATE_SMART_CONTRACT` is ignored for somebody who is not registered and for code that names a
class which is not there. It throws when the code is refused otherwise, and when the instance is no
contract. -/
theorem createSmartContract_replies (st : BankService) (who : JString) (code : List UInt8) :
    Replies (st.bankRepo.findByUserName who = none ∨ jvm.defineClass code = .error .classNotFound)
      ((∃ e, jvm.defineClass code = .error e ∧ BankService.isLoading e = false) ∨
        ∃ cl, jvm.defineClass code = .ok cl ∧ cl.hasStringConstructor = true ∧
          cl.constructorThrows = false ∧ cl.isSmartContract = false)
      (BankService.executeCreateSmartContract jvm who code st).1 := by
  unfold BankService.executeCreateSmartContract SmartContractRunner.createObjectFromFile
  cases hu : st.bankRepo.findByUserName who with
  | none => exact .of_null (.inl rfl) rfl
  | some b =>
    -- Only some of the exceptions of the class loader are caught, and answered with an error.
    cases hcl : jvm.defineClass code with
    | error e =>
      cases e with
      | classNotFound => exact .of_null (.inr rfl) rfl
      | io | reflective => exact .of_objects (by simp) (by simp [BankService.isLoading]) rfl
      | nullPointer | classCast | negativeArraySize | indexOutOfBounds | numberFormat | noSuchElement
      | other => exact .of_thrown (by simp) (.inl ⟨_, rfl, rfl⟩) rfl
    | ok cl =>
      dsimp only
      cases hstring : cl.hasStringConstructor with
      | false => exact .of_objects (by simp) (by simp [hstring]) rfl
      | true =>
        cases hthrows : cl.constructorThrows with
        | true => exact .of_objects (by simp) (by simp [hthrows]) rfl
        | false =>
          cases hcontract : cl.isSmartContract with
          | false => exact .of_thrown (by simp) (.inr ⟨cl, rfl, hstring, hthrows, hcontract⟩) rfl
          | true => exact .of_objects (by simp) (by simp [hcontract]) rfl

/-- What every request leads to. -/
theorem reply_cases (jvm : Jvm) (st : BankService) (h : Indexed st.bankRepo)
    (encode : String → String) (q : ClientRequest) :
    Replies (Ignored jvm st.bankRepo q) (Throws jvm st.bankRepo q) ((q.case encode).result jvm st) := by
  -- One case for each request, by its own lemma where it is ordered.
  cases q with
  | createNew username password amount roles => exact createNew_replies _ _ _ _
  | createMoney who initialAmount finalAmount => exact createMoney_replies _ _ _
  | transferMoney sender fromSaldo receiver toSaldo fromAmount toAmount =>
    exact transferMoney_replies _ _ _ _ _ _
  | createAuction who auctionID => exact createAuction_replies _ _
  | closeAuction who auctionID => exact closeAuction_replies h _ _
  | createBid who auctionID bidID amount => exact .of_null trivial rfl
  | createSmartContract who code => exact createSmartContract_replies st _ _
  | findUser username =>
    simp only [Ignored, Throws, ClientRequest.case, Case.result, BankService.answer_findUser]
    cases st.bankRepo.findByUserName username with
    | none => exact .of_null rfl rfl
    | some b => exact .of_objects (by simp) (by simp) rfl
  | checkCurrentAmount username =>
    simp only [Ignored, Throws, ClientRequest.case, Case.result,
      BankService.answer_checkCurrentAmount, balanceOf]
    cases st.bankRepo.findByUserName username with
    | none => exact .of_null rfl rfl
    | some b =>
      simp only [Option.bind_some, Option.elim_some]
      cases b.amount with
      | none => exact .of_thrown (by simp) rfl rfl
      | some v => exact .of_objects (by simp) (by simp) rfl
  | list l =>
    cases l with
    | accounts myHash | openedAuctions | closedAuctions =>
      exact .of_objects (fun h => h) (fun h => h) rfl
    | bidsFromAuction auctionID =>
      simp only [Ignored, Throws, ClientRequest.case, Case.result, Listing.query, BankService.answer]
      cases st.bankRepo.findByAuctionID auctionID with
      | none => exact .of_null rfl rfl
      | some r => exact .of_objects (by simp) (by simp) rfl
    | bidsFromUser who =>
      simp only [Ignored, Throws, ClientRequest.case, Case.result, Listing.query, BankService.answer]
      cases st.bankRepo.findByUserName who with
      | none => exact .of_null rfl rfl
      | some b => exact .of_objects (by simp) (by simp) rfl
  | checkWinnerBidClosedAuction auctionID =>
    simp only [Ignored, Throws, ClientRequest.case, Case.result, BankService.answer]
    cases st.bankRepo.findByAuctionID auctionID with
    | none => exact .of_null (.inl rfl) rfl
    | some r =>
      cases st.bankRepo.findByClosedAuctionID auctionID with
      | none => exact .of_null (.inr rfl) rfl
      | some r' => exact .of_objects (by simp) (by simp) rfl

end Cases

/-- A request gets an answer: the replica `i` returns signed content, or the empty reply for which the
method returns its refused value. -/
def Answered {J : Type} (w : Wire) (p : JsonLibrary J) (jvm : Jvm) (i : ℕ) (encode : String → String)
    (st : BankService) (q : ClientRequest) : Prop :=
  ∃ reply, (st.access jvm (q.access encode)).1 = .ok reply ∧
    ∀ content, Sends w jvm i reply content →
      (∃ payload signature, content = some (payload ++ signature) ∧
        signature.length = signatureLength ∧ w.verify i payload signature = true) ∨
      content = some [] ∧ q.invoke w p jvm content = .ok q.refused

/-- A request gets an answer exactly when there are objects in its reply. -/
theorem answered_iff_objects {J : Type} (w : Wire) (p : JsonLibrary J) (jvm : Jvm) (i : ℕ)
    (encode : String → String) (st : BankService) (q : ClientRequest) :
    Answered w p jvm i encode st q ↔
      ∃ os, finished ((q.case encode).result jvm st) = .ok (some os) := by
  unfold Answered
  rw [reply_eq]
  constructor
  · rintro ⟨reply, hreply, hcontent⟩
    cases reply with
    | none =>
      -- The replica returns `null`, which is neither.
      rcases hcontent none rfl with ⟨payload, signature, hnull, -⟩ | ⟨hnull, -⟩ <;> cases hnull
    | some os => exact ⟨os, hreply⟩
  · rintro ⟨os, hos⟩
    refine ⟨some os, hos, fun content hsends => .inl ?_⟩
    obtain ⟨payload, signature, hcontent, hlength, hverify, -⟩ := hsends
    exact ⟨payload, signature, hcontent, hlength, hverify⟩

/-- **Which requests get an answer:** in every state that a replica reaches, the request of an `invoke`
method, whatever its arguments are, is answered with signed content or with the empty reply that the
method tests for exactly when the replica does not ignore it and it does not end in an exception. -/
theorem answered_iff {J : Type} (w : Wire) (p : JsonLibrary J) (jvm : Jvm) (i : ℕ)
    (encode : String → String) (xs : List Action) (q : ClientRequest) :
    Answered w p jvm i encode (BankService.new.runAll jvm xs) q ↔
      ¬ Ignored jvm (reached jvm xs) q ∧ ¬ Throws jvm (reached jvm xs) q := by
  have hcases := reply_cases jvm (BankService.new.runAll jvm xs) (reached_indexed xs) encode q
  rw [answered_iff_objects]
  -- The three kinds of replies exclude each other, so what is not the other two is an answer.
  constructor
  · rintro ⟨os, hos⟩
    have hheard : ¬ Ignored jvm (reached jvm xs) q := by
      intro hignored
      have hnull := hcases.null hignored
      rw [hos] at hnull
      cases hnull
    refine ⟨hheard, fun hthrows => ?_⟩
    obtain ⟨e, he⟩ := hcases.thrown hheard hthrows
    rw [hos] at he
    cases he
  · rintro ⟨hheard, hreturns⟩
    exact hcases.objects hheard hreturns

/-! ## Requests without an answer -/

/-- A library that reads no number. -/
def textLibrary : JsonLibrary String :=
  { textParser with getString := fun s _ => .ok s, getLong := fun _ _ => .error .other }

/-- The run in which `alice` registers. -/
def joinedRun : List Action :=
  [.ordered (registerUser (some "alice") (some abcEncoded) (some 10) none)]

/-- A transfer from `alice` to `bob`. -/
def transferToBob : ClientRequest := .transferMoney (some "alice") 10 (some "bob") 0 5 5

/-- A bid of `alice`. -/
def aliceBids : ClientRequest := .createBid (some "alice") (some 1) (some 1) (some 5)

/-- **Requests without an answer:** after `alice` has registered, the replica returns `null` to a second
registration of the name, to a transfer to the unknown `bob`, and to every bid. The methods of the last
two throw then. -/
theorem requests_unanswered :
    (∀ q ∈ [aliceRegisters, transferToBob, aliceBids],
      ((BankService.new.runAll auctionJvm joinedRun).access auctionJvm
          (q.access fun _ => abcEncoded)).1 = .ok none ∧
        ¬ Answered javaWire textLibrary auctionJvm 0 (fun _ => abcEncoded)
          (BankService.new.runAll auctionJvm joinedRun) q) ∧
      transferToBob.invoke javaWire textLibrary auctionJvm none = .error .nullPointer ∧
      aliceBids.invoke javaWire textLibrary auctionJvm none = .error .nullPointer := by
  refine ⟨fun q hq => ?_, rfl, rfl⟩
  -- All three are answered with `null`, which the client sees as no answer.
  have hnull : ((BankService.new.runAll auctionJvm joinedRun).access auctionJvm
      (q.access fun _ => abcEncoded)).1 = .ok none := by
    simp only [List.mem_cons, List.not_mem_nil, or_false] at hq
    rcases hq with rfl | rfl | rfl <;> decide
  refine ⟨hnull, fun hanswered => ?_⟩
  obtain ⟨os, hos⟩ := (answered_iff_objects _ _ _ _ _ _ _).mp hanswered
  rw [← reply_eq, hnull] at hos
  cases hos

end NovaBank.Ledger
