import NovaBank.Money.Effects

/-!
# Refused requests change nothing

A request is refused when its reply has an error, or when there is no reply because nothing was
written or an exception was thrown (`refused`). Every request decides before its first write whether
it goes through, with one exception: `CLOSE_AUCTION` closes the auction first and then looks at the
amount of the owner, and throws when there is none. `refused_unchanged_iff`: a refused request leaves
everything but the version alone exactly when it does not close the auction of such an owner.
-/

namespace NovaBank.Ledger

open Java Replica Money

/-- An exception, no reply object, or a JSON object with an error. -/
def refused : Except JavaException Reply → Bool
  | .error _ => true
  | .ok none => true
  | .ok (some [.json (.object j)]) => j.has "error"
  | .ok (some _) => false

/-- Everything but the version is as before. -/
def Unchanged (s s' : BankRepository) : Prop := ∃ v, s' = { s with version := v }

section Refused

variable {jvm : Jvm} {s : BankRepository}

/-- What the controller takes for success is not refused. -/
theorem refused_of_accepted {reply : Except JavaException Reply} (h : accepted reply = true) :
    refused reply = false := by
  unfold accepted at h
  split at h
  · simpa [refused] using h
  · cases h

/-- The epilogue neither refuses nor admits a request. -/
theorem refused_finish (r : Outcome Reply) : refused (BankService.finish r).1 = refused r.1 := by
  obtain ⟨reply, s⟩ := r
  cases reply with
  | ok reply => rfl
  | error e =>
    simp only [BankService.finish]
    split <;> rfl

/-- A registration that is refused has changed nothing. -/
theorem registerUser_unchanged (username : JString)
    (rest : Except JavaException (JString × JLong × Option (List JString)))
    (h : refused (BankService.executeRegisterUser jvm username rest s).1 = true) :
    (BankService.executeRegisterUser jvm username rest s).2 = s := by
  cases hu : s.findByUserName username with
  | some b => simp only [BankService.executeRegisterUser, hu]
  | none =>
    cases rest with
    | error e => simp only [BankService.executeRegisterUser, hu]
    | ok fields =>
      obtain ⟨password, amount, roles⟩ := fields
      simp only [BankService.executeRegisterUser, hu, BankServiceHelper.registerUser] at h ⊢
      -- The roles are read by the constructor, before the account is put.
      cases hnew : BankEntity.new jvm username password amount roles with
      | error e => rfl
      | ok b =>
        simp only [hnew] at h
        cases h

/-- A deposit that is refused has changed nothing. -/
theorem createMoney_unchanged (who : JString) (rest : Except JavaException (Int64 × Int64))
    (h : refused (BankService.executeCreateMoney who rest s).1 = true) :
    (BankService.executeCreateMoney who rest s).2 = s := by
  cases rest with
  | error e =>
    simp only [BankService.executeCreateMoney]
    split <;> rfl
  | ok amounts =>
    obtain ⟨original, final⟩ := amounts
    -- A deposit that is carried out is accepted.
    rcases executeCreateMoney_cases
        (r := BankService.executeCreateMoney who (.ok (original, final)) s) rfl with
      ⟨hs, -⟩ | ⟨b, v, -, -, -, hacc, -⟩
    · exact hs
    · rw [refused_of_accepted hacc] at h
      cases h

/-- A transfer that is refused has changed nothing. -/
theorem transferMoney_unchanged (sender : JString) (fromSaldo : Int64) (receiver : JString)
    (toSaldo fromAmount toAmount : Int64)
    (h : refused (BankService.executeTransferMoney sender fromSaldo receiver toSaldo fromAmount
      toAmount s).1 = true) :
    (BankService.executeTransferMoney sender fromSaldo receiver toSaldo fromAmount toAmount s).2 =
      s := by
  rcases executeTransferMoney_cases (r := BankService.executeTransferMoney sender fromSaldo receiver
      toSaldo fromAmount toAmount s) rfl with ⟨hs, -⟩ | ⟨b, c, -, -, -, -, hacc, -⟩
  · exact hs
  · rw [refused_of_accepted hacc] at h
    cases h

/-- An auction that is refused has changed nothing. -/
theorem createAuction_unchanged (who : JString) (auctionID : JLong)
    (h : refused (BankService.executeCreateAuction who auctionID s).1 = true) :
    (BankService.executeCreateAuction who auctionID s).2 = s := by
  cases hu : s.findByUserName who with
  | none => simp only [BankService.executeCreateAuction, hu]
  | some b =>
    cases ha : s.findByAuctionID auctionID with
    | some r => simp only [BankService.executeCreateAuction, hu, ha]
    | none =>
      simp only [BankService.executeCreateAuction, hu, ha, BankServiceHelper.createAuction] at h
      cases auctionID <;> cases h

/-- The pay-out fails when the owner has no balance, with an exception that is none of the streams. -/
theorem payOwner_cases (a : AuctionEntity) (s : BankRepository) :
    (balanceOf s a.ownerUsername = none ∧
        ∃ e, (BankServiceHelper.payOwner a s).1 = .error e ∧ e.isStream = false) ∨
      balanceOf s a.ownerUsername ≠ none ∧ (BankServiceHelper.payOwner a s).1 = .ok () := by
  unfold BankServiceHelper.payOwner balanceOf
  cases s.findByUserName a.ownerUsername with
  | none => exact .inl ⟨rfl, _, rfl, rfl⟩
  | some owner =>
    simp only [Option.bind_some]
    cases owner.amount with
    | none => exact .inl ⟨rfl, _, rfl, rfl⟩
    | some balance => exact .inr ⟨by simp, rfl⟩

/-- The pay-out succeeds exactly when the owner has a balance. -/
theorem payOwner_isOk_iff (a : AuctionEntity) (s : BankRepository) :
    (BankServiceHelper.payOwner a s).1.isOk = (balanceOf s a.ownerUsername).isSome := by
  rcases payOwner_cases a s with ⟨hbalance, e, hpaid, -⟩ | ⟨hbalance, hpaid⟩
  · rw [hpaid, hbalance]
    rfl
  · obtain ⟨v, hv⟩ := Option.ne_none_iff_exists'.mp hbalance
    rw [hpaid, hv]
    rfl

/-- `CLOSE_AUCTION` is refused without a trace exactly when it does not close an auction whose owner
has no balance. -/
theorem closeAuction_unchanged_iff (h : Indexed s) (who : JString) (auctionID : JLong) :
    (refused (BankService.executeCloseAuction jvm who auctionID s).1 = true →
      Unchanged s (BankService.executeCloseAuction jvm who auctionID s).2) ↔
    ∀ r, Closes jvm auctionID who s r → (balanceOf s (s.auction r).ownerUsername).isSome := by
  rcases closeAution_cases jvm h auctionID who with ⟨hs, hno⟩ | ⟨r, hcloses, -⟩
  · exact iff_of_true (fun _ => ⟨s.version, hs⟩) fun r hr => (hno r hr).elim
  · have heq := closeAution_of_closes h hcloses
    obtain ⟨us, hus⟩ := payOwner_eq (s.auction r).close
      ((s.updateAuction r AuctionEntity.close).closeAuction r)
    -- The auction has left the opened ones, whatever the pay-out does.
    have hchanged : ¬ Unchanged s (BankService.executeCloseAuction jvm who auctionID s).2 := by
      rintro ⟨v, hv⟩
      have hafter : (BankService.executeCloseAuction jvm who auctionID s).2.openedAuctions.lookup
          auctionID = none := by
        rw [BankService.executeCloseAuction, heq]
        dsimp only
        rw [hus]
        exact (h.openedAuctions_closeAuction (h.opened hcloses.1).1 auctionID).trans (if_pos rfl)
      rw [hv] at hafter
      exact Option.some_ne_none _ (hcloses.1.symm.trans hafter)
    have hrefused : refused (BankService.executeCloseAuction jvm who auctionID s).1 =
        !(balanceOf s (s.auction r).ownerUsername).isSome := by
      have hpaid := payOwner_isOk_iff (s.auction r).close
        ((s.updateAuction r AuctionEntity.close).closeAuction r)
      change _ = (balanceOf s (s.auction r).ownerUsername).isSome at hpaid
      rw [← hpaid, BankService.executeCloseAuction, heq]
      cases (BankServiceHelper.payOwner (s.auction r).close
        ((s.updateAuction r AuctionEntity.close).closeAuction r)).1 with
      | error e => rfl
      | ok u => cases auctionID <;> rfl
    rw [hrefused]
    constructor
    · intro hu r' hr'
      obtain rfl : r = r' := Option.some.inj (hcloses.1.symm.trans hr'.1)
      by_contra hnone
      exact hchanged (hu (by simpa using hnone))
    · intro hsome hnone
      simp [hsome r hcloses] at hnone

/-- The epilogue touches nothing but the version. -/
theorem unchanged_finish_iff (r : Outcome Reply) :
    Unchanged s (BankService.finish r).2 ↔ Unchanged s r.2 := by
  obtain ⟨v, hv⟩ := finish_eq r
  rw [hv]
  constructor
  · rintro ⟨w, hw⟩
    refine ⟨r.2.version, ?_⟩
    calc r.2 = { ({ r.2 with version := v } : BankRepository) with version := r.2.version } := rfl
      _ = { s with version := r.2.version } := by rw [hw]
  · rintro ⟨w, hw⟩
    exact ⟨v, by rw [hw]⟩

end Refused

/-- **Refused requests change nothing:** after every run, a command, however it is formed, that is
answered with an error, without a reply object or with an exception leaves everything but the version
of the repository as it was, exactly when it is not a `CLOSE_AUCTION` that closes an auction whose
owner has no amount. -/
theorem refused_unchanged_iff (jvm : Jvm) (xs : List Action) (command : Command) :
    let st := BankService.new.runAll jvm xs
    (refused (st.appExecuteOrdered jvm command).1 = true →
      Unchanged st.bankRepo (st.appExecuteOrdered jvm command).2.bankRepo) ↔
    ∀ who auctionID r, decodeOrdered command = .ok (.ledger (.closeAuction who auctionID)) →
      Closes jvm auctionID who st.bankRepo r →
      (balanceOf st.bankRepo (st.bankRepo.auction r).ownerUsername).isSome := by
  intro st
  have hindexed : Indexed st.bankRepo := reached_indexed xs
  cases hcommand : decodeOrdered command with
  | error e =>
    refine iff_of_true (fun _ => ?_) (by simp)
    simp only [BankService.appExecuteOrdered, hcommand, unchanged_finish_iff]
    exact ⟨_, rfl⟩
  | ok request =>
    cases request with
    | createSmartContract who code =>
      refine iff_of_true (fun _ => ?_) (by simp)
      simp only [BankService.appExecuteOrdered, hcommand, unchanged_finish_iff]
      exact ⟨_, rfl⟩
    | other =>
      refine iff_of_true (fun _ => ?_) (by simp)
      simp only [BankService.appExecuteOrdered, hcommand, BankService.appExecuteUnordered,
        unchanged_finish_iff]
      exact ⟨_, rfl⟩
    | ledger r =>
      simp only [BankService.appExecuteOrdered, hcommand, refused_finish, unchanged_finish_iff]
      -- A request other than `CLOSE_AUCTION` leaves the very same repository.
      have hkept : (refused (BankService.executeLedger jvm r st.bankRepo).1 = true →
          (BankService.executeLedger jvm r st.bankRepo).2 = st.bankRepo) →
          refused (BankService.executeLedger jvm r st.bankRepo).1 = true →
          Unchanged st.bankRepo (BankService.executeLedger jvm r st.bankRepo).2 :=
        fun h hr => ⟨st.bankRepo.version, h hr⟩
      cases r with
      | registerUser username rest =>
        exact iff_of_true (hkept (registerUser_unchanged username rest)) (by simp)
      | createMoney who rest => exact iff_of_true (hkept (createMoney_unchanged who rest)) (by simp)
      | transferMoney sender fromSaldo receiver toSaldo fromAmount toAmount =>
        exact iff_of_true (hkept (transferMoney_unchanged _ _ _ _ _ _)) (by simp)
      | createAuction who auctionID =>
        exact iff_of_true (hkept (createAuction_unchanged who auctionID)) (by simp)
      | closeAuction who auctionID =>
        refine (closeAuction_unchanged_iff hindexed who auctionID).trans ?_
        constructor
        · rintro h who' auctionID' q hq
          cases hq
          exact h q
        · exact fun h q => h who auctionID q rfl

/-- The run in which `alice` registers without an amount and opens the auction 7. -/
def withoutAmount : List Action :=
  [.ordered (Proxy.registerUser (some "alice") (some "secret") none none),
    .ordered (Proxy.createAuction (some "alice") (some 7))]

/-- **A failed request that closes an auction:** the request of `alice` to close it ends with
an exception, and the auction is closed. -/
theorem failed_close_closes :
    let jvm := Jvm.plain (ContractClass.queueing [])
    let st := BankService.new.runAll jvm withoutAmount
    let result := st.appExecuteOrdered jvm (Proxy.closeAuction (some "alice") (some 7))
    result.1 = .error .nullPointer ∧ st.bankRepo.openedAuctions.keys = [some 7] ∧
      st.bankRepo.closedAuctions.keys = [] ∧ result.2.bankRepo.openedAuctions.keys = [] ∧
      result.2.bankRepo.closedAuctions.keys = [some 7] := by
  decide

end NovaBank.Ledger
