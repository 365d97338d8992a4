import NovaBank.Replica.Service
import Mathlib.Logic.Relation

/-!
# What a replica can do to its repository

`Change` lists the changes that the code makes to the ledger of a repository, with what has been
checked before each of them. The operations of `BankServiceHelper` are chains of changes, and every
ordered request, every unordered one and every pass of the contract runner is a chain of changes and
new versions (`appExecuteOrdered_updates`, `pass_updates`). So an invariant of the repository is
proved once, over the constructors of `Change`.
-/

namespace NovaBank.Replica

open Java

/-- A change that the code makes to a repository, with what it has checked. -/
inductive Change : BankRepository → BankRepository → Prop where
  /-- A new account under a free name. -/
  | register (s : BankRepository) (b : BankEntity) (free : s.findByUserName b.userName = none) :
      Change s (s.newUserBankEntity b)
  /-- A new balance. -/
  | setAmount (s : BankRepository) (who : JString) (b : BankEntity) (v : Int64)
      (user : s.findByUserName who = some b) : Change s (s.newUserBankEntity (b.updateAmount v))
  /-- A new auction under a free id. -/
  | openAuction (s : BankRepository) (id : JLong) (who : JString) (b : BankEntity)
      (user : s.findByUserName who = some b) (free : s.findByAuctionID id = none) :
      Change s (BankServiceHelper.createAuction id who s).2
  /-- The end of an opened auction. -/
  | closeAuction (s : BankRepository) (id : JLong) (r q : AuctionRef)
      (auction : s.findByAuctionID id = some r) (opened : s.findByOpenedAuctionID id = some q) :
      Change s ((s.updateAuction r AuctionEntity.close).closeAuction r)
  /-- A bid on an opened auction that has no bid with the id. -/
  | placeBid (s : BankRepository) (bid : BidEntity) (r q : AuctionRef) (b : BankEntity) (v : Int64)
      (user : s.findByUserName bid.username = some b) (amount : b.amount = some v)
      (enough : bid.amount ≤ v) (auction : s.findByAuctionID (some bid.id) = some r)
      (opened : s.findByOpenedAuctionID (some bid.id) = some q)
      (free : (s.auction r).bids.get bid.id = none) :
      Change s (BankServiceHelper.acceptBid bid r s)

/-- A chain of changes. -/
abbrev Changes : BankRepository → BankRepository → Prop := Relation.ReflTransGen Change

/-- A change, or a new version from `save` or from a snapshot. -/
inductive Update : BankRepository → BankRepository → Prop where
  | change {s s' : BankRepository} (h : Change s s') : Update s s'
  | version (s : BankRepository) (v : Int32) : Update s { s with version := v }

/-- A chain of updates. -/
abbrev Updates : BankRepository → BankRepository → Prop := Relation.ReflTransGen Update

/-- A change leaves the version alone. -/
theorem Change.version_eq {s s' : BankRepository} (h : Change s s') : s'.version = s.version := by
  -- The version is counted by `save` only, which is no change of the content.
  cases h with
  | register b free => rfl
  | setAmount who b v user => rfl
  | openAuction id who b user free =>
    rw [BankServiceHelper.createAuction_of_free user free]
    rfl
  | closeAuction id r q auction opened => rfl
  | placeBid bid r q b v user amount enough auction opened free =>
    have hrefund : ∀ (x : JString) (v : Int64), (BankServiceHelper.createMoney x v s).2.version =
        s.version := by
      intro x v
      unfold BankServiceHelper.createMoney
      split <;> rfl
    simp only [BankServiceHelper.acceptBid, BankRepository.createBid,
      BankRepository.updateUser_version, BankRepository.updateAuction_version]
    split
    · rfl
    · exact hrefund _ _

/-- A change of the ledger leaves the version. -/
theorem Changes.version_eq {s s' : BankRepository} (h : Changes s s') : s'.version = s.version := by
  induction h with
  | refl => rfl
  | tail _ hc ih => exact hc.version_eq.trans ih

/-- A change is an update. -/
theorem Changes.updates {s s' : BankRepository} (h : Changes s s') : Updates s s' :=
  Relation.ReflTransGen.mono (fun _ _ => .change) _ _ h

/-! ## The operations are chains of changes -/

section Chains

variable {jvm : Jvm} {s : BankRepository}

open BankServiceHelper

/-- `createMoney` makes changes only. -/
theorem createMoney_changes (who : JString) (v : Int64) (s : BankRepository) :
    Changes s (createMoney who v s).2 := by
  unfold createMoney
  split
  · rename_i b hb
    exact .single (.setAmount s who b v hb)
  · exact .refl

/-- `registerUser` under a free name makes changes only. -/
theorem registerUser_changes (jvm : Jvm) {username : JString} (free : s.findByUserName username = none)
    (password : JString) (amount : JLong) (roles : Option (List JString)) :
    Changes s (registerUser jvm username password amount roles s).2 := by
  unfold registerUser
  split
  · exact .refl
  · rename_i b hb
    exact .single (.register s b (by rw [BankEntity.userName_of_new hb]; exact free))

/-- So does an amount that is set. -/
theorem updateAmount_changes (who : JString) (v : Int64) (s : BankRepository) :
    Changes s (s.updateUser who fun b => b.updateAmount v) := by
  unfold BankRepository.updateUser
  split
  · exact .refl
  · rename_i b hb
    exact .single (.setAmount s who b v hb)

/-- So does `transferMoney`. -/
theorem transferMoney_changes (sender : JString) (a : Int64) (receiver : JString) (c : Int64)
    (s : BankRepository) : Changes s (transferMoney sender a receiver c s).2 := by
  unfold transferMoney
  split
  · exact .refl
  · rename_i b hb _
    exact .single (.setAmount s sender b a hb)
  · rename_i b b' hb hb'
    exact .trans (.single (.setAmount s sender b a hb)) (updateAmount_changes receiver c _)

/-- So does `createAuction`. -/
theorem createAuction_changes (id : JLong) (who : JString) (s : BankRepository) :
    Changes s (createAuction id who s).2 := by
  cases hu : s.findByUserName who with
  | none => simp only [createAuction, hu]; exact .refl
  | some b =>
    cases ha : s.findByAuctionID id with
    | none => exact .single (.openAuction s id who b hu ha)
    | some r => simp only [createAuction, hu, ha]; exact .refl

/-- So does the pay-out. -/
theorem payOwner_changes (a : AuctionEntity) (s : BankRepository) :
    Changes s (payOwner a s).2 := by
  unfold payOwner
  split
  · exact .refl
  · split
    · exact .refl
    · exact createMoney_changes _ _ s

/-- So does `closeAution`. -/
theorem closeAution_changes (id : JLong) (who : JString) (s : BankRepository) :
    Changes s (closeAution jvm id who s).2 := by
  unfold closeAution
  split
  · split
    · rename_i r q ha ho hc
      split
      · exact .refl
      · split
        -- The closing, and then the payment.
        · exact .trans (.single (.closeAuction s id r q ha ho)) (payOwner_changes _ _)
        · exact .refl
      · exact .refl
    · exact .refl
  · exact .refl

/-- What `createBid` does: nothing, or it accepts the bid after all its checks. -/
theorem createBid_cases (jvm : Jvm) (now id auctionId amount : Int64) (who : JString) (s : BankRepository) :
    (createBid jvm now id auctionId amount who s).2 = s ∨
    ∃ r q b v, s.findByUserName who = some b ∧ b.amount = some v ∧ amount ≤ v ∧
      s.findByAuctionID (some id) = some r ∧ s.findByOpenedAuctionID (some id) = some q ∧
      (s.auction r).bids.get id = none ∧
      (createBid jvm now id auctionId amount who s).2 = acceptBid ⟨id, who, amount, now⟩ r s := by
  -- Every branch but the innermost one leaves the repository alone.
  unfold createBid
  split
  case h_2 => exact .inl rfl
  rename_i b hu
  split
  case h_2 => exact .inl rfl
  rename_i r ha
  split
  case h_2 => exact .inl rfl
  rename_i q ho hc
  split
  · exact .inl rfl
  · split
    · split
      · rename_i hfree
        split
        · exact .inl rfl
        · rename_i v hv
          split
          · rename_i henough
            exact .inr ⟨r, q, b, v, hu, hv, henough, ha, ho, Option.isNone_iff_eq_none.mp hfree, rfl⟩
          · exact .inl rfl
      · exact .inl rfl
    · exact .inl rfl
  · exact .inl rfl

/-- So does `createBid`. -/
theorem createBid_changes (now id auctionId amount : Int64) (who : JString) (s : BankRepository) :
    Changes s (createBid jvm now id auctionId amount who s).2 := by
  rcases createBid_cases jvm now id auctionId amount who s with
    h | ⟨r, q, b, v, hu, hv, henough, ha, ho, hfree, h⟩
  · rw [h]
  · rw [h]
    exact .single (.placeBid s ⟨id, who, amount, now⟩ r q b v hu hv henough ha ho hfree)

/-- The ordered requests make changes only. -/
theorem executeLedger_changes (r : LedgerRequest) (s : BankRepository) :
    Changes s (BankService.executeLedger jvm r s).2 := by
  -- A request that is refused changes nothing.
  cases r with
  | registerUser username rest =>
    simp only [BankService.executeLedger, BankService.executeRegisterUser]
    split
    · exact .refl
    · rename_i free
      split
      · exact .refl
      · exact registerUser_changes jvm free _ _ _
  | createMoney who rest =>
    simp only [BankService.executeLedger, BankService.executeCreateMoney]
    split
    · exact .refl
    · split
      · exact .refl
      · split
        · exact .refl
        · split
          · exact createMoney_changes who _ s
          · exact .refl
  | transferMoney sender fromSaldo receiver toSaldo fromAmount toAmount =>
    simp only [BankService.executeLedger, BankService.executeTransferMoney]
    split
    · split
      · exact .refl
      · exact transferMoney_changes sender fromAmount receiver toAmount s
      · exact .refl
    · exact .refl
  | createAuction who auctionID =>
    simp only [BankService.executeLedger, BankService.executeCreateAuction]
    split
    · exact createAuction_changes auctionID who s
    · exact .refl
  | closeAuction who auctionID => exact closeAution_changes auctionID who s

/-- The operations of contracts make changes only. -/
theorem LedgerOperation.run_changes (now : Int64) (op : LedgerOperation) (s : BankRepository) :
    Changes s (op.run jvm now s).2 := by
  cases op with
  | createMoney who amount => exact createMoney_changes who amount s
  | transferMoney sender a receiver c => exact transferMoney_changes sender a receiver c s
  | createAuction id who => exact createAuction_changes id who s
  | createBid bidId auctionId amount who => exact createBid_changes now bidId auctionId amount who s
  | closeAution id who => exact closeAution_changes id who s

/-- So does a case of the runner, which may make no call. -/
theorem callResult_changes (now : Int64) (j : JSONObject) (call : Option LedgerOperation)
    (s : BankRepository) : Changes s (BankService.callResult jvm now j call s).2 := by
  cases call with
  | none => exact .refl
  | some call => exact call.run_changes now s

/-- The epilogue of a request changes the version only. -/
theorem finish_eq (r : Outcome Reply) :
    ∃ v, (BankService.finish r).2 = { r.2 with version := v } := by
  unfold BankService.finish
  split
  · exact ⟨_, rfl⟩
  · split
    · exact ⟨_, rfl⟩
    · exact ⟨r.2.version, rfl⟩

/-- The epilogue adds the version. -/
theorem finish_updates {r : Outcome Reply} (h : Updates s r.2) :
    Updates s (BankService.finish r).2 := by
  obtain ⟨v, hv⟩ := finish_eq r
  rw [hv]
  exact h.tail (.version r.2 v)

/-- Unordered requests update nothing but the version. -/
theorem appExecuteUnordered_updates (command : Command) (s : BankRepository) :
    Updates s (BankService.appExecuteUnordered jvm command s).2 :=
  finish_updates .refl

/-- An ordered request is a chain of updates. -/
theorem appExecuteOrdered_updates (command : Command) (st : BankService) :
    Updates st.bankRepo (BankService.appExecuteOrdered jvm command st).2.bankRepo := by
  unfold BankService.appExecuteOrdered
  split
  · exact finish_updates .refl
  · exact finish_updates (executeLedger_changes _ _).updates
  · exact finish_updates .refl
  · exact appExecuteUnordered_updates _ _

/-- What follows a call changes the version only. -/
theorem afterCall_eq (sR : SmartContractRunner) (result : Outcome JSONObject) :
    ∃ v, (BankService.afterCall sR result).bankRepo = { result.2 with version := v } := by
  unfold BankService.afterCall
  split
  · exact ⟨result.2.version, rfl⟩
  · dsimp only
    split
    · exact ⟨result.2.version, rfl⟩
    · exact ⟨_, rfl⟩

/-- The runner writes nothing after a call. -/
theorem afterCall_updates {result : Outcome JSONObject} (h : Updates s result.2)
    (sR : SmartContractRunner) : Updates s (BankService.afterCall sR result).bankRepo := by
  obtain ⟨v, hv⟩ := afterCall_eq sR result
  rw [hv]
  exact h.tail (.version result.2 v)

/-- One operation of the runner is an update. -/
theorem runOperation_updates (now : Int64) (i : Int32) (op : String) (st : BankService) :
    Updates st.bankRepo (st.runOperation jvm now i op).bankRepo := by
  unfold BankService.runOperation
  dsimp only
  split
  · exact .refl
  · split
    · exact .refl
    · exact afterCall_updates (callResult_changes now _ _ _).updates _

/-- So are the operations of a contract together. -/
theorem runOperations_updates (i : Int32) (now : ℕ → Int64) (ops : List String) (st : BankService) :
    Updates st.bankRepo (st.runOperations jvm i now ops).bankRepo := by
  induction ops generalizing now st with
  | nil => exact .refl
  | cons op ops ih =>
    unfold BankService.runOperations
    split
    · exact (runOperation_updates (now 0) i op st).trans (ih _ _)
    · exact .refl

/-- A pass of the runner is a chain of updates. -/
theorem pass_updates (now : Int32 → ℕ → Int64) (st : BankService) :
    Updates st.bankRepo (st.pass jvm now).bankRepo := by
  have h : ∀ (is : List Int32) (st : BankService),
      Updates st.bankRepo (st.runContracts jvm now is).bankRepo := by
    -- On the keys that are left, for every state.
    intro is
    induction is with
    | nil => exact fun st => .refl
    | cons i is ih => exact fun st => (runOperations_updates i (now i) _ st).trans (ih _)
  exact h _ st

end Chains

end NovaBank.Replica
