import Mathlib.Data.List.Forall2
import NovaBank.Replica.Runs
import NovaBank.Replica.Snapshot

/-!
# What a replica tells of the passwords

`hide` is a repository without its passwords. No operation of the ledger reads a password, so each of
them commutes with `hide` and answers alike (`LedgerOperation.run_hide`, `executeLedger_hide`,
`dispatch_hide`), and so does every action of a replica (`Action.run_hide`). Of the queries only
`FIND_USER` prints one. So the answers to all other requests are the same after two runs that differ
in the passwords of their registrations alone, and to `FIND_USER` they are not
(`password_kept_iff`).
-/

namespace NovaBank.Replica

open Java

/-! ## A repository without its passwords -/

/-- An account without its password. -/
def BankEntity.hide (b : BankEntity) : BankEntity := { b with password := none }

/-- A hidden password leaves the name. -/
theorem BankEntity.userName_hide (b : BankEntity) : b.hide.userName = b.userName := rfl

/-- A repository without its passwords. -/
def BankRepository.hide (s : BankRepository) : BankRepository :=
  { s with users := s.users.map BankEntity.hide BankEntity.userName_hide }

/-- A replica without its passwords. -/
def BankService.hide (st : BankService) : BankService := { st with bankRepo := st.bankRepo.hide }

/-- What an operation returns, with the repository that it leaves without its passwords. -/
def Outcome.hide {α : Type} (r : Outcome α) : Outcome α := (r.1, r.2.hide)

/-- Hidden passwords stay hidden. -/
@[simp] theorem BankRepository.hide_hide (s : BankRepository) : s.hide.hide = s.hide := by
  have husers : s.hide.hide.users = s.hide.users := by
    apply KeyedMap.ext
    simp only [BankRepository.hide, KeyedMap.map_values, List.map_map]
    rfl
  exact congrArg (fun users => { s with users := users }) husers

/-- Outcomes are the same up to the passwords when their results are and their repositories. -/
theorem Outcome.hide_eq_iff {α : Type} {r r' : Outcome α} :
    Outcome.hide r = Outcome.hide r' ↔ r.1 = r'.1 ∧ r.2.hide = r'.2.hide := Prod.mk_inj

/-- A result with a repository whose passwords are hidden already. -/
theorem Outcome.hide_left {α : Type} (r : Except JavaException α) (s : BankRepository) :
    Outcome.hide (r, s.hide) = Outcome.hide (r, s) := congrArg (Prod.mk r) s.hide_hide

namespace BankRepository

variable (s : BankRepository)

/-- The same auctions are found. -/
@[simp] theorem findByAuctionID_hide (id : JLong) : s.hide.findByAuctionID id = s.findByAuctionID id := rfl

/-- The same opened auctions are found. -/
@[simp] theorem findByOpenedAuctionID_hide (id : JLong) :
    s.hide.findByOpenedAuctionID id = s.findByOpenedAuctionID id := rfl

/-- The same closed auctions are found. -/
@[simp] theorem findByClosedAuctionID_hide (id : JLong) :
    s.hide.findByClosedAuctionID id = s.findByClosedAuctionID id := rfl

/-- The same users are found, without their passwords. -/
@[simp] theorem findByUserName_hide (u : JString) :
    s.hide.findByUserName u = (s.findByUserName u).map BankEntity.hide := by
  unfold findByUserName hide
  rw [KeyedMap.get_map]

/-- Putting an account commutes with hiding. -/
theorem newUserBankEntity_hide (b : BankEntity) :
    s.hide.newUserBankEntity b.hide = (s.newUserBankEntity b).hide := by
  unfold newUserBankEntity hide
  rw [KeyedMap.map_put]

/-- An update of a user that does not touch the password. -/
theorem updateUser_hide (u : JString) {f : BankEntity → BankEntity}
    (hf : ∀ b, f b.hide = (f b).hide) : s.hide.updateUser u f = (s.updateUser u f).hide := by
  unfold updateUser
  rw [findByUserName_hide]
  cases s.findByUserName u with
  | none => rfl
  | some b =>
    simp only [Option.map_some, hf]
    exact s.newUserBankEntity_hide (f b)

/-- The comparison with a balance does not look at passwords. -/
theorem compareAmount_hide (u : JString) (v : Int64) :
    s.hide.compareAmount u v = s.compareAmount u v := by
  unfold compareAmount
  rw [findByUserName_hide]
  cases s.findByUserName u <;> rfl

/-- Nor does the runner when it asks for a balance. -/
theorem balance_hide (u : JString) : s.hide.balance u = s.balance u := by
  unfold balance user
  rw [findByUserName_hide]
  cases s.findByUserName u <;> rfl

/-- The iteration visits the same users. -/
theorem usersIterator_hide (jvm : Jvm) :
    s.hide.usersIterator jvm = (s.usersIterator jvm).map BankEntity.hide := by
  unfold usersIterator hide
  rw [KeyedMap.inOrder_map]

end BankRepository

/-! ## The operations of the ledger -/

namespace BankServiceHelper

variable {jvm : Jvm} (s : BankRepository)

/-- `createMoney` does not look at passwords. -/
theorem createMoney_hide (who : JString) (amount : Int64) :
    createMoney who amount s.hide =
      ((createMoney who amount s).1, (createMoney who amount s).2.hide) := by
  unfold createMoney
  rw [BankRepository.findByUserName_hide]
  cases s.findByUserName who with
  | none => rfl
  | some b => exact congrArg (Prod.mk _) (s.newUserBankEntity_hide (b.updateAmount amount))

/-- Nor does `transferMoney`. -/
theorem transferMoney_hide (sender receiver : JString) (fromAmount toAmount : Int64) :
    transferMoney sender fromAmount receiver toAmount s.hide =
      Outcome.hide (transferMoney sender fromAmount receiver toAmount s) := by
  unfold transferMoney
  rw [BankRepository.findByUserName_hide, BankRepository.findByUserName_hide]
  cases s.findByUserName sender with
  | none => rfl
  | some b =>
    -- The accounts are stored with their passwords, which no branch looks at.
    have hsent : s.hide.newUserBankEntity (b.hide.updateAmount fromAmount) =
        (s.newUserBankEntity (b.updateAmount fromAmount)).hide :=
      s.newUserBankEntity_hide (b.updateAmount fromAmount)
    cases s.findByUserName receiver with
    | none => exact congrArg (Prod.mk _) hsent
    | some b' =>
      simp only [Option.map_some, hsent]
      exact congrArg (Prod.mk _) (BankRepository.updateUser_hide _ receiver fun _ => rfl)

/-- Nor does `createAuction`. -/
theorem createAuction_hide (id : JLong) (who : JString) :
    createAuction id who s.hide =
      ((createAuction id who s).1, (createAuction id who s).2.hide) := by
  unfold createAuction
  rw [BankRepository.findByUserName_hide]
  cases s.findByUserName who with
  | none => rfl
  | some b =>
    simp only [Option.map_some, BankRepository.findByAuctionID_hide]
    cases s.findByAuctionID id with
    | some r => rfl
    | none =>
      -- The auction names its owner only.
      have hadd : ∀ b : BankEntity, b.hide.addAuction id s.objects.length =
          (b.addAuction id s.objects.length).hide := fun _ => rfl
      exact congrArg (Prod.mk _)
        (BankRepository.updateUser_hide (s.createAuction (AuctionEntity.new id who)).2 who hadd)

/-- Nor does the pay-out. -/
theorem payOwner_hide (a : AuctionEntity) : payOwner a s.hide = Outcome.hide (payOwner a s) := by
  unfold payOwner
  rw [BankRepository.findByUserName_hide]
  cases s.findByUserName a.ownerUsername with
  | none => rfl
  | some owner =>
    obtain ⟨userName, password, amount, auctions, bids, roles⟩ := owner
    cases amount with
    | none => rfl
    | some balance =>
      exact congrArg (Prod.mk _) (congrArg Prod.snd (createMoney_hide s _ _))

/-- Nor does `closeAution`. -/
theorem closeAution_hide (id : JLong) (who : JString) :
    closeAution jvm id who s.hide = Outcome.hide (closeAution jvm id who s) := by
  have hauction : ∀ r, s.hide.auction r = s.auction r := fun _ => rfl
  unfold closeAution
  simp only [BankRepository.findByUserName_hide, BankRepository.findByAuctionID_hide,
    BankRepository.findByOpenedAuctionID_hide, BankRepository.findByClosedAuctionID_hide, hauction]
  cases s.findByUserName who with
  | none => rfl
  | some be =>
    -- Of the user only the roles are looked at.
    have hmay : ∀ a o, mayClose jvm be.hide who a o = mayClose jvm be who a o := fun _ _ => rfl
    simp only [Option.map_some, hmay]
    cases s.findByAuctionID id with
    | none => rfl
    | some r =>
      cases s.findByOpenedAuctionID id with
      | none => rfl
      | some o =>
        cases s.findByClosedAuctionID id with
        | some q => rfl
        | none =>
          dsimp only
          cases mayClose jvm be who (s.auction r) (s.auction o) with
          | error e => rfl
          | ok may =>
            cases may with
            | false => rfl
            | true =>
              dsimp only
              split_ifs with h
              -- The owner is paid in the repository in which the auction is closed.
              · have hpay := payOwner_hide ((s.updateAuction r AuctionEntity.close).closeAuction r)
                  (((s.updateAuction r AuctionEntity.close).closeAuction r).auction r)
                exact congrArg (fun o : Outcome Unit => (o.1.map fun _ => _, o.2)) hpay
              · rfl

/-- Nor does a bid that is accepted. -/
theorem acceptBid_hide (bid : BidEntity) (r : AuctionRef) :
    acceptBid bid r s.hide = (acceptBid bid r s).hide := by
  have hfreeze : ∀ b : BankEntity, b.hide.freezeBid bid = (b.freezeBid bid).hide := fun _ => rfl
  have hlast : s.hide.auction r = s.auction r := rfl
  unfold acceptBid
  rw [hlast]
  -- The refund goes to the last bidder, by name.
  cases (s.auction r).getLastBid with
  | none =>
    exact congrArg (fun t : BankRepository => t.createBid bid)
      (BankRepository.updateUser_hide (s.updateAuction r fun a => a.addBid bid) bid.username hfreeze)
  | some lastBid =>
    simp only [createMoney_hide]
    exact congrArg (fun t : BankRepository => t.createBid bid)
      (BankRepository.updateUser_hide
        ((createMoney lastBid.username lastBid.amount s).2.updateAuction r fun a => a.addBid bid)
        bid.username hfreeze)

/-- Nor does `createBid`. -/
theorem createBid_hide (now bidId auctionId amount : Int64) (who : JString) :
    createBid jvm now bidId auctionId amount who s.hide =
      Outcome.hide (createBid jvm now bidId auctionId amount who s) := by
  have hauction : ∀ r, s.hide.auction r = s.auction r := fun _ => rfl
  unfold createBid
  simp only [BankRepository.findByUserName_hide, BankRepository.findByAuctionID_hide,
    BankRepository.findByOpenedAuctionID_hide, BankRepository.findByClosedAuctionID_hide, hauction]
  cases s.findByUserName who with
  | none => rfl
  | some be =>
    -- Of the bidder only the amount is looked at.
    have hamount : be.hide.amount = be.amount := rfl
    simp only [Option.map_some, hamount]
    cases s.findByAuctionID bidId with
    | none => rfl
    | some r =>
      cases s.findByOpenedAuctionID bidId with
      | none => rfl
      | some o =>
        cases s.findByClosedAuctionID bidId with
        | some q => rfl
        | none =>
          dsimp only
          cases mayBid jvm who (s.auction r) (s.auction o) with
          | error e => rfl
          | ok may =>
            cases may with
            | false => rfl
            | true =>
              dsimp only
              split_ifs
              · cases be.amount with
                | none => rfl
                | some balance =>
                  dsimp only
                  split_ifs
                  · exact congrArg (Prod.mk _) (acceptBid_hide s ⟨bidId, who, amount, now⟩ r)
                  · rfl
              · rfl
              · rfl

end BankServiceHelper

/-- An operation of the ledger reads no password and changes none. -/
theorem LedgerOperation.run_hide (jvm : Jvm) (now : Int64) (op : LedgerOperation)
    (s : BankRepository) : op.run jvm now s.hide = Outcome.hide (op.run jvm now s) := by
  -- No call reads a password.
  cases op with
  | createMoney who amount =>
    exact congrArg (fun p : JSONObject × BankRepository => (Except.ok p.1, p.2))
      (BankServiceHelper.createMoney_hide s who amount)
  | transferMoney sender fromAmount receiver toAmount =>
    exact BankServiceHelper.transferMoney_hide s sender receiver fromAmount toAmount
  | createAuction id who =>
    exact congrArg (fun p : JSONObject × BankRepository => (Except.ok p.1, p.2))
      (BankServiceHelper.createAuction_hide s id who)
  | createBid bidId auctionId amount who =>
    exact BankServiceHelper.createBid_hide s now bidId auctionId amount who
  | closeAution id who => exact BankServiceHelper.closeAution_hide s id who

/-! ## The operations of contracts -/

section Contracts

variable {jvm : Jvm} (sR : SmartContractRunner) (s : BankRepository)

/-- What is read of a user besides the password. -/
theorem user_bind_hide {α : Type} (u : JString) {f : BankEntity → Except JavaException α}
    (hf : ∀ b, f b.hide = f b) : (s.hide.user u >>= f) = (s.user u >>= f) := by
  unfold BankRepository.user
  rw [BankRepository.findByUserName_hide]
  cases s.findByUserName u with
  | none => rfl
  | some b => exact hf b

/-- The `switch` of the runner reads no password. -/
theorem dispatch_hide (i : Int32) (www : JString) (ss : List String) :
    sR.dispatch jvm s.hide i www ss = sR.dispatch jvm s i www ss := by
  -- The runner reads balances and roles only.
  have hmoney : SmartContractRunner.callCreateMoney s.hide www ss =
      SmartContractRunner.callCreateMoney s www ss := by
    simp only [SmartContractRunner.callCreateMoney, BankRepository.balance_hide]
  have htransfer : SmartContractRunner.callTransferMoney s.hide www ss =
      SmartContractRunner.callTransferMoney s www ss := by
    simp only [SmartContractRunner.callTransferMoney, BankRepository.balance_hide]
    exact user_bind_hide s www fun _ => rfl
  have hauction : SmartContractRunner.callCreateAuction s.hide i www =
      SmartContractRunner.callCreateAuction s i www := user_bind_hide s www fun _ => rfl
  have hbid : SmartContractRunner.callBid jvm s.hide www ss =
      SmartContractRunner.callBid jvm s www ss := rfl
  have hclose : SmartContractRunner.callCloseAuction jvm sR s.hide www ss =
      SmartContractRunner.callCloseAuction jvm sR s www ss := by
    unfold SmartContractRunner.callCloseAuction
    have huser : ∀ f : BankEntity → Except JavaException (Option LedgerOperation),
        (∀ b, f b.hide = f b) → (s.hide.user www >>= f) = (s.user www >>= f) :=
      fun f hf => user_bind_hide s www hf
    rw [huser _ fun _ => rfl]
  simp only [SmartContractRunner.dispatch, hmoney, htransfer, hauction, hbid, hclose]

/-- Nor does an operation of the runner. -/
theorem runOperation_hide (now : Int64) (i : Int32) (op : String) (st : BankService) :
    st.hide.runOperation jvm now i op = (st.runOperation jvm now i op).hide := by
  have hrunner : st.hide.sR = st.sR := rfl
  have hrepo : st.hide.bankRepo = st.bankRepo.hide := rfl
  unfold BankService.runOperation
  simp only [hrunner, hrepo, dispatch_hide]
  cases (st.sR.clearOperations i).ownerOf i with
  | none => rfl
  | some www =>
    dsimp only
    cases (st.sR.clearOperations i).dispatch jvm st.bankRepo i www (split " " op) with
    | error e => rfl
    | ok call =>
      -- The result of the call is the same, and the states differ in passwords only.
      have hcall : BankService.callResult jvm now (st.sR.clearOperations i).j call st.bankRepo.hide =
          Outcome.hide
            (BankService.callResult jvm now (st.sR.clearOperations i).j call st.bankRepo) := by
        cases call with
        | none => rfl
        | some call => exact call.run_hide jvm now st.bankRepo
      dsimp only
      rw [hcall]
      cases hresult : BankService.callResult jvm now (st.sR.clearOperations i).j call st.bankRepo with
      | mk result s =>
        cases result with
        | error e => rfl
        | ok j =>
          simp only [BankService.afterCall, Outcome.hide, BankService.hide]
          split_ifs <;> rfl

end Contracts

/-! ## Requests -/

section Requests

variable {jvm : Jvm} (s : BankRepository)

/-- Nor does the epilogue. -/
theorem finish_hide (r : Outcome Reply) :
    BankService.finish (Outcome.hide r) = Outcome.hide (BankService.finish r) := by
  obtain ⟨reply, s⟩ := r
  cases reply with
  | ok reply => rfl
  | error e =>
    simp only [BankService.finish, Outcome.hide]
    split_ifs <;> rfl

/-- Apart from `FIND_USER`, no answer depends on a password. -/
theorem answer_hide {q : Query} (hq : ∀ u, q ≠ .findUser u) :
    BankService.answer jvm s.hide q = BankService.answer jvm s q := by
  cases q with
  | findUser u => exact absurd rfl (hq u)
  -- The listing shows the accounts without their passwords.
  | listAllBankAccounts =>
    have hjson : ∀ b : BankEntity, b.hide.getJSONSecure = b.getJSONSecure := fun _ => rfl
    have hcomp : BankEntity.getJSONSecure ∘ BankEntity.hide = BankEntity.getJSONSecure := rfl
    simp only [BankService.answer, BankRepository.usersIterator_hide, BankService.accountsHash,
      List.foldl_map, List.map_map, hjson, hcomp]
  | checkCurrentAmount who =>
    rw [BankService.answer_checkCurrentAmount, BankService.answer_checkCurrentAmount,
      BankRepository.findByUserName_hide]
    cases s.findByUserName who <;> rfl
  | listAllBidsFromUser who =>
    simp only [BankService.answer, BankRepository.findByUserName_hide]
    cases s.findByUserName who <;> rfl
  | listAllCurrentOpenedAuctions => rfl
  | listAllCurrentClosedAuctions => rfl
  | listAllBidsFromAuction auctionID => rfl
  | checkWinnerBidClosedAuction auctionID => rfl
  | unsupported => rfl

/-- An answer fails or not whatever the passwords are. -/
theorem error_of_answer_hide (q : Query) {e : JavaException} :
    BankService.answer jvm s.hide q = .error e ↔ BankService.answer jvm s q = .error e := by
  by_cases hq : ∃ u, q = .findUser u
  · obtain ⟨u, rfl⟩ := hq
    simp [BankService.answer_findUser]
  · rw [answer_hide s fun u hu => hq ⟨u, hu⟩]

/-- The reading of a query and its answer fail or not whatever the passwords are. -/
theorem appExecuteUnordered_hide (command : Command) :
    (BankService.appExecuteUnordered jvm command s.hide).2 =
      (BankService.appExecuteUnordered jvm command s).2.hide := by
  unfold BankService.appExecuteUnordered BankService.query
  cases decodeUnordered command with
  | error e => exact congrArg Prod.snd (finish_hide (.error e, s))
  | ok q =>
    change (BankService.finish (BankService.answer jvm s.hide q, s.hide)).2 =
      (BankService.finish (BankService.answer jvm s q, s)).2.hide
    -- Whether the query throws does not depend on a password, and so neither does the version.
    cases hanswer : BankService.answer jvm s q with
    | error e =>
      rw [(error_of_answer_hide s q).mpr hanswer]
      exact congrArg Prod.snd (finish_hide (.error e, s))
    | ok reply =>
      cases hhide : BankService.answer jvm s.hide q with
      | error e =>
        rw [(error_of_answer_hide s q).mp hhide] at hanswer
        cases hanswer
      | ok reply' => rfl

/-- The constructor stores the password and does nothing else with it. -/
theorem BankEntity.new_hide (u p p' : JString) (a : JLong) (roles : Option (List JString)) :
    (BankEntity.new jvm u p a roles).map BankEntity.hide =
      (BankEntity.new jvm u p' a roles).map BankEntity.hide := by
  unfold BankEntity.new
  cases roles with
  | none => rfl
  | some roles =>
    dsimp only
    cases BankEntity.appendRoles jvm "ROLE_USER" roles <;> rfl

/-- Two registrations that differ in the password at most. -/
theorem executeRegisterUser_hide (u p p' : JString) (a : JLong) (roles : Option (List JString)) :
    Outcome.hide (BankService.executeRegisterUser jvm u (.ok (p, a, roles)) s.hide) =
      Outcome.hide (BankService.executeRegisterUser jvm u (.ok (p', a, roles)) s) := by
  unfold BankService.executeRegisterUser
  rw [BankRepository.findByUserName_hide]
  cases s.findByUserName u with
  | some b => exact Outcome.hide_left _ s
  | none =>
    -- Both constructors fail, or both make an account.
    have hnew := @BankEntity.new_hide jvm u p p' a roles
    simp only [Option.map_none, BankServiceHelper.registerUser]
    cases hp : BankEntity.new jvm u p a roles with
    | error e =>
      cases hp' : BankEntity.new jvm u p' a roles with
      | error e' =>
        rw [hp, hp'] at hnew
        cases hnew
        exact Outcome.hide_left _ s
      | ok b' =>
        rw [hp, hp'] at hnew
        cases hnew
    | ok b =>
      cases hp' : BankEntity.new jvm u p' a roles with
      | error e' =>
        rw [hp, hp'] at hnew
        cases hnew
      | ok b' =>
        rw [hp, hp'] at hnew
        have hb : b.hide = b'.hide := Except.ok.inj hnew
        have hname : b.userName = b'.userName := by
          rw [← b.userName_hide, hb, b'.userName_hide]
        have hrepo : (s.hide.newUserBankEntity b).hide = (s.newUserBankEntity b').hide := by
          rw [← BankRepository.newUserBankEntity_hide, ← BankRepository.newUserBankEntity_hide,
            BankRepository.hide_hide, hb]
        simp only [Except.map, Outcome.hide, hname, hrepo]

/-- A request on the ledger answers whatever the passwords are, and changes what it changes. -/
theorem executeLedger_hide (r : LedgerRequest) :
    Outcome.hide (BankService.executeLedger jvm r s.hide) =
      Outcome.hide (BankService.executeLedger jvm r s) := by
  -- One case for each request; only a registration stores a password.
  cases r with
  | registerUser username rest =>
    cases rest with
    | ok fields => exact executeRegisterUser_hide s username _ _ _ _
    | error e =>
      simp only [BankService.executeLedger, BankService.executeRegisterUser,
        BankRepository.findByUserName_hide]
      cases s.findByUserName username <;> exact Outcome.hide_left _ s
  | createMoney who rest =>
    simp only [BankService.executeLedger, BankService.executeCreateMoney,
      BankRepository.findByUserName_hide, BankRepository.compareAmount_hide,
      BankServiceHelper.createMoney_hide]
    cases s.findByUserName who with
    | none => exact Outcome.hide_left _ s
    | some b =>
      cases rest with
      | error e => exact Outcome.hide_left _ s
      | ok amounts =>
        simp only [Option.map_some]
        cases s.compareAmount who amounts.1 with
        | error e => exact Outcome.hide_left _ s
        | ok orig =>
          dsimp only
          split_ifs
          · exact Outcome.hide_left _ _
          · exact Outcome.hide_left _ s
  | transferMoney sender fromSaldo receiver toSaldo fromAmount toAmount =>
    simp only [BankService.executeLedger, BankService.executeTransferMoney,
      BankRepository.findByUserName_hide, BankServiceHelper.transferMoney_hide]
    cases s.findByUserName sender with
    | none => exact Outcome.hide_left _ s
    | some beFrom =>
      cases s.findByUserName receiver with
      | none => exact Outcome.hide_left _ s
      | some beTo =>
        have hare : BankService.amountsAre beFrom.hide beTo.hide fromSaldo toSaldo =
            BankService.amountsAre beFrom beTo fromSaldo toSaldo := rfl
        simp only [Option.map_some, hare]
        cases BankService.amountsAre beFrom beTo fromSaldo toSaldo with
        | error e => exact Outcome.hide_left _ s
        | ok same =>
          cases same with
          | false => exact Outcome.hide_left _ s
          | true => exact Outcome.hide_left _ _
  | createAuction who auctionID =>
    simp only [BankService.executeLedger, BankService.executeCreateAuction,
      BankRepository.findByUserName_hide, BankRepository.findByAuctionID_hide,
      BankServiceHelper.createAuction_hide]
    cases s.findByUserName who with
    | none => exact Outcome.hide_left _ s
    | some b =>
      cases s.findByAuctionID auctionID with
      | none => exact Outcome.hide_left _ _
      | some r => exact Outcome.hide_left _ s
  | closeAuction who auctionID =>
    simp only [BankService.executeLedger, BankService.executeCloseAuction,
      BankServiceHelper.closeAution_hide]
    exact Outcome.hide_left _ _

end Requests

/-! ## Runs -/

/-- Two actions that differ at most in the password of a registration. -/
inductive Action.SameButPassword : Action → Action → Prop where
  | same (x : Action) : SameButPassword x x
  | registration {command command' : Command} (username password password' : JString)
      (amount : JLong) (roles : Option (List JString))
      (left : decodeOrdered command =
        .ok (.ledger (.registerUser username (.ok (password, amount, roles)))))
      (right : decodeOrdered command' =
        .ok (.ledger (.registerUser username (.ok (password', amount, roles))))) :
      SameButPassword (.ordered command) (.ordered command')

/-- The query that a request makes, if it makes one. An ordered command of another kind is read again
as a query. -/
def Access.asked : Access → Option Query
  | .ordered command =>
    match decodeOrdered command with
    | .ok .other => (decodeUnordered command).toOption
    | _ => none
  | .unordered command => (decodeUnordered command).toOption

section Secrets

variable {jvm : Jvm}

/-- Hidden passwords stay hidden. -/
theorem BankService.hide_hide (st : BankService) : st.hide.hide = st.hide :=
  congrArg (fun s => { st with bankRepo := s }) st.bankRepo.hide_hide

/-- The epilogue after a request on the ledger. -/
theorem finish_congr {r r' : Outcome Reply} (h : Outcome.hide r = Outcome.hide r') :
    Outcome.hide (BankService.finish r) = Outcome.hide (BankService.finish r') := by
  rw [← finish_hide, ← finish_hide, h]

/-- The reply to a query other than `FIND_USER`. -/
theorem reply_unordered_hide (s : BankRepository) {command : Command}
    (hq : ∀ u, (decodeUnordered command).toOption ≠ some (.findUser u)) :
    (BankService.appExecuteUnordered jvm command s.hide).1 =
      (BankService.appExecuteUnordered jvm command s).1 := by
  -- Every query but that of a user gives the same answer.
  have hquery : BankService.query jvm command s.hide = BankService.query jvm command s := by
    unfold BankService.query
    cases hcommand : decodeUnordered command with
    | error e => rfl
    | ok q =>
      have hne : ∀ u, q ≠ .findUser u := by
        intro u hu
        rw [hcommand, hu] at hq
        exact hq u rfl
      exact answer_hide s hne
  unfold BankService.appExecuteUnordered
  rw [hquery]
  have hfinish := congrArg Prod.fst (finish_hide (BankService.query jvm command s, s))
  exact hfinish

/-- An upload does not look at passwords. -/
theorem executeCreateSmartContract_hide (who : JString) (code : List UInt8) (st : BankService) :
    BankService.executeCreateSmartContract jvm who code st.hide =
      BankService.executeCreateSmartContract jvm who code st := by
  have hfind : st.hide.bankRepo.findByUserName who =
      (st.bankRepo.findByUserName who).map BankEntity.hide := st.bankRepo.findByUserName_hide who
  unfold BankService.executeCreateSmartContract
  rw [hfind]
  cases st.bankRepo.findByUserName who <;> rfl

/-- What a request leaves, whatever the passwords are, and what it answers, if it does not ask for
one. -/
theorem access_hide (a : Access) (st : BankService) :
    (st.hide.access jvm a).2.hide = (st.access jvm a).2.hide ∧
      ((∀ u, a.asked ≠ some (.findUser u)) → (st.hide.access jvm a).1 = (st.access jvm a).1) := by
  -- The runner is not touched, so a replica is hidden when its repository is.
  have hleave : ∀ {s t : BankRepository} {sR : SmartContractRunner}, s.hide = t.hide →
      (BankService.mk s sR).hide = (BankService.mk t sR).hide :=
    fun h => congrArg (fun s => BankService.mk s _) h
  have hunordered : ∀ command : Command,
      (BankService.appExecuteUnordered jvm command st.bankRepo.hide).2.hide =
        (BankService.appExecuteUnordered jvm command st.bankRepo).2.hide := by
    intro command
    rw [appExecuteUnordered_hide, BankRepository.hide_hide]
  have hfinish : ∀ reply : Except JavaException Reply,
      Outcome.hide (BankService.finish (reply, st.bankRepo.hide)) =
        Outcome.hide (BankService.finish (reply, st.bankRepo)) :=
    fun reply => finish_congr (Outcome.hide_left reply st.bankRepo)
  cases a with
  | unordered command =>
    exact ⟨hleave (hunordered command), fun hq => reply_unordered_hide st.bankRepo hq⟩
  | ordered command =>
    simp only [BankService.access, BankService.appExecuteOrdered, Access.asked]
    cases hcommand : decodeOrdered command with
    | error e =>
      obtain ⟨hreply, hrepo⟩ := Outcome.hide_eq_iff.mp (hfinish (.error e))
      exact ⟨hleave hrepo, fun _ => hreply⟩
    | ok request =>
      cases request with
      | ledger r =>
        obtain ⟨hreply, hrepo⟩ := Outcome.hide_eq_iff.mp
          (finish_congr (@executeLedger_hide jvm st.bankRepo r))
        exact ⟨hleave hrepo, fun _ => hreply⟩
      | createSmartContract who code =>
        obtain ⟨hreply, hrepo⟩ := Outcome.hide_eq_iff.mp
          (hfinish (BankService.executeCreateSmartContract jvm who code st).1)
        simp only [executeCreateSmartContract_hide]
        exact ⟨hleave hrepo, fun _ => hreply⟩
      | other =>
        exact ⟨hleave (hunordered command), fun hq => reply_unordered_hide st.bankRepo hq⟩

/-- An action leaves the same, whatever the passwords are. -/
theorem Action.run_hide (x : Action) (st : BankService) :
    (x.run jvm st.hide).hide = (x.run jvm st).hide := by
  cases x with
  | ordered command => exact (access_hide (.ordered command) st).1
  | unordered command => exact (access_hide (.unordered command) st).1
  | operation now i op =>
    have halive : st.hide.sR.alive = st.sR.alive := rfl
    simp only [Action.run, halive]
    split_ifs
    · rw [runOperation_hide, BankService.hide_hide]
    · exact st.hide_hide

/-- Two registrations that differ in the password at most, from one state. -/
theorem registration_hide {command command' : Command} {u p p' : JString} {a : JLong}
    {roles : Option (List JString)}
    (left : decodeOrdered command = .ok (.ledger (.registerUser u (.ok (p, a, roles)))))
    (right : decodeOrdered command' = .ok (.ledger (.registerUser u (.ok (p', a, roles)))))
    (st : BankService) :
    (st.appExecuteOrdered jvm command).1 = (st.appExecuteOrdered jvm command').1 ∧
      (st.appExecuteOrdered jvm command).2.hide = (st.appExecuteOrdered jvm command').2.hide := by
  have hledger : Outcome.hide (BankService.executeRegisterUser jvm u (.ok (p, a, roles)) st.bankRepo) =
      Outcome.hide (BankService.executeRegisterUser jvm u (.ok (p', a, roles)) st.bankRepo) := by
    rw [← executeRegisterUser_hide st.bankRepo u p, ← executeRegisterUser_hide st.bankRepo u p]
  obtain ⟨hreply, hrepo⟩ := Outcome.hide_eq_iff.mp (finish_congr hledger)
  simp only [BankService.appExecuteOrdered, left, right]
  exact ⟨hreply, congrArg (fun s => BankService.mk s st.sR) hrepo⟩

/-- Two actions that differ in a password at most, from states that differ in the passwords at most.
-/
theorem Action.SameButPassword.run {x y : Action} (h : x.SameButPassword y) {st st' : BankService}
    (hst : st.hide = st'.hide) : (x.run jvm st).hide = (y.run jvm st').hide := by
  have hx : (x.run jvm st).hide = (x.run jvm st').hide := by
    rw [← Action.run_hide, hst, Action.run_hide]
  rw [hx]
  cases h with
  | same => rfl
  | registration username password password' amount roles left right =>
    exact (registration_hide left right st').2

/-- Two runs that differ in the passwords of their registrations at most. -/
theorem runAll_hide {xs ys : List Action} (h : List.Forall₂ Action.SameButPassword xs ys)
    {st st' : BankService} (hst : st.hide = st'.hide) :
    (st.runAll jvm xs).hide = (st'.runAll jvm ys).hide := by
  induction h generalizing st st' with
  | nil => exact hst
  | cons hxy _ ih => exact ih (hxy.run hst)

/-- The replies to two requests that differ in a password at most and do not ask for one. -/
theorem reply_hide {a b : Access} (h : a.action.SameButPassword b.action)
    (hq : ∀ u, a.asked ≠ some (.findUser u)) {st st' : BankService} (hst : st.hide = st'.hide) :
    (st.access jvm a).1 = (st'.access jvm b).1 := by
  -- First by the states, then by the requests.
  have ha : (st.access jvm a).1 = (st'.access jvm a).1 := by
    rw [← (access_hide a st).2 hq, hst, (access_hide a st').2 hq]
  rw [ha]
  cases a with
  | ordered command =>
    cases b with
    | ordered command' =>
      cases h with
      | same => rfl
      | registration username password password' amount roles left right =>
        exact (registration_hide left right st').1
    | unordered command' => cases h
  | unordered command =>
    cases b with
    | ordered command' => cases h
    | unordered command' =>
      cases h
      rfl

/-- The reply to `FIND_USER`, ordered or not. -/
theorem reply_findUser {a : Access} {u : JString} (h : a.asked = some (.findUser u))
    {st : BankService} {b : BankEntity} (hb : st.bankRepo.findByUserName u = some b) :
    (st.access jvm a).1 = .ok (some [.json (.object b.getJSON)]) := by
  have hunordered : ∀ command : Command, (decodeUnordered command).toOption = some (.findUser u) →
      (BankService.appExecuteUnordered jvm command st.bankRepo).1 =
        .ok (some [.json (.object b.getJSON)]) := by
    intro command hcommand
    have hdecode : decodeUnordered command = .ok (.findUser u) := by
      cases hd : decodeUnordered command with
      | error e =>
        rw [hd] at hcommand
        cases hcommand
      | ok q =>
        rw [hd] at hcommand
        cases hcommand
        rfl
    have hanswer : BankService.answer jvm st.bankRepo (.findUser u) =
        .ok (some [.json (.object b.getJSON)]) := by
      rw [BankService.answer_findUser, hb]
      rfl
    exact congrArg Prod.fst (BankService.access_of_answer jvm st hdecode hanswer)
  -- An ordered request that is not one of the ledger is answered as a query.
  cases a with
  | unordered command => exact hunordered command h
  | ordered command =>
    simp only [Access.asked] at h
    cases hcommand : decodeOrdered command with
    | error e =>
      rw [hcommand] at h
      cases h
    | ok request =>
      rw [hcommand] at h
      cases request with
      | ledger r => cases h
      | createSmartContract who code => cases h
      | other =>
        simp only [BankService.access, BankService.appExecuteOrdered, hcommand]
        exact hunordered command h

/-- The object of an account has its password. -/
theorem BankEntity.get_password (b : BankEntity) :
    b.getJSON.get "password" = b.password.map .text := by
  obtain ⟨userName, password, amount, auctions, bids, roles⟩ := b
  cases userName <;> cases password <;> cases amount <;> rfl

/-- A replica with one account. -/
theorem findByUserName_registered (u p : JString) :
    ((BankService.new.runAll jvm [.ordered (Proxy.registerUser u p none none)]).bankRepo).findByUserName
      u = some ⟨u, p, none, KeyedMap.empty, KeyedMap.empty, "ROLE_USER" ++ roleSeparator⟩ := by
  have hnone : BankRepository.new.findByUserName u = none := rfl
  simp only [BankService.runAll, List.foldl_cons, List.foldl_nil, Action.run,
    BankService.appExecuteOrdered, Proxy.decodeOrdered_registerUser, BankService.executeLedger,
    BankService.executeRegisterUser, BankService.new, hnone, BankServiceHelper.registerUser,
    BankEntity.new, BankService.finish, Except.map, BankRepository.save]
  exact (BankRepository.newUserBankEntity_findByUserName _ _ u).trans (if_pos rfl)

/-- **Who can learn a password:** the reply to a request is the same after every two runs of a replica
that differ in the passwords of their registrations alone, and whatever password the request itself
registers, exactly when the request is not `FIND_USER`. -/
theorem password_kept_iff (jvm : Jvm) (a : Access) :
    (∀ xs ys b, List.Forall₂ Action.SameButPassword xs ys →
        Action.SameButPassword a.action (Access.action b) →
        ((BankService.new.runAll jvm xs).access jvm a).1 =
          ((BankService.new.runAll jvm ys).access jvm b).1) ↔
      ∀ u, a.asked ≠ some (.findUser u) := by
  constructor
  · intro h u hu
    -- The account of `u`, registered with two passwords.
    have hregister : Action.SameButPassword (.ordered (Proxy.registerUser u (some "a") none none))
        (.ordered (Proxy.registerUser u (some "b") none none)) :=
      .registration u _ _ none none (Proxy.decodeOrdered_registerUser u _ none none)
        (Proxy.decodeOrdered_registerUser u _ none none)
    have hreply := h _ _ a (.cons hregister .nil) (.same a.action)
    rw [reply_findUser hu (findByUserName_registered u _),
      reply_findUser hu (findByUserName_registered u _)] at hreply
    simp only [Except.ok.injEq, Option.some.injEq, List.cons.injEq, ReplyObject.json.injEq,
      Json.object.injEq, and_true] at hreply
    have hpassword := congrArg (fun j => j.get "password") hreply
    rw [BankEntity.get_password, BankEntity.get_password] at hpassword
    have hsame : some (Scalar.text "a") = some (Scalar.text "b") := hpassword
    exact absurd hsame (by decide)
  · intro hq xs ys b hruns hb
    exact reply_hide hb hq (runAll_hide hruns rfl)

end Secrets

end NovaBank.Replica
