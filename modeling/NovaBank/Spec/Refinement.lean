import NovaBank.Common.Run
import NovaBank.Money.Effects
import NovaBank.Spec.Bank

/-!
# A replica is the bank

`bank` reads the bank of `Spec/Bank.lean` off a repository, and `office` off a replica. Where the maps
of the repository agree (`Indexed`), each operation of the ledger returns what the bank's operation
returns and leaves the bank that it leaves (`run_refines`), and so do the ordered requests
(`execute_refines`) and the steps of the runner of the contracts. So a replica is the office at every
point of every run, and its replies are those of the office (`replica_is_office`).
-/

namespace NovaBank.Spec

open Java Replica

/-! ## The bank of a repository -/

/-- The account of an entity, without what it lists of auctions and bids. -/
def holder (b : BankEntity) : Holder := ⟨b.password, b.amount, b.roles⟩

/-- The auction of an entity. It has one bid or none. -/
def sale (a : AuctionEntity) : Sale := ⟨a.ownerUsername, a.isClosed, a.bids.values.head?⟩

/-- The bank that a repository holds. -/
def bank (s : BankRepository) : Bank where
  holders := fun u => (s.findByUserName u).map holder
  sales := fun k => (s.findByAuctionID k).map fun r => sale (s.auction r)

/-- The office that a replica is. -/
def office (st : BankService) : Office := ⟨bank st.bankRepo, st.sR⟩

section Bank

variable {s : BankRepository}

/-- The holders of the bank are the accounts of the repository. -/
@[simp] theorem bank_holders (u : JString) : (bank s).holders u = (s.findByUserName u).map holder :=
  rfl

/-- The sales of the bank are the auctions of the repository. -/
@[simp] theorem bank_sales (k : JLong) :
    (bank s).sales k = (s.findByAuctionID k).map fun r => sale (s.auction r) := rfl

/-- The bank has no version. -/
@[simp] theorem bank_version (v : Int32) : bank { s with version := v } = bank s := rfl

/-- A holder has the roles of the account. -/
@[simp] theorem getRoles_holder (b : BankEntity) : (holder b).getRoles = b.getRoles := rfl

/-- A holder has the amount of the account. -/
@[simp] theorem amount_holder (b : BankEntity) : (holder b).amount = b.amount := rfl

/-- A user must exist in both. -/
theorem user_bank (u : JString) : (bank s).user u = (s.user u).map holder := by
  unfold Bank.user BankRepository.user
  rw [bank_holders]
  cases s.findByUserName u <;> rfl

/-- A balance is the same in both. -/
theorem balance_bank (u : JString) : (bank s).balance u = s.balance u := by
  unfold Bank.balance BankRepository.balance
  rw [user_bank]
  cases s.user u <;> rfl

/-- A put of an entity is an account of the bank. -/
theorem bank_newUserBankEntity (b : BankEntity) :
    bank (s.newUserBankEntity b) = (bank s).enrol b.userName (holder b) := by
  apply Bank.ext
  · funext u
    simp only [bank_holders, BankRepository.newUserBankEntity_findByUserName, Bank.enrol,
      Function.update_apply, eq_comm (a := u)]
    split_ifs <;> rfl
  · rfl

/-- A new amount of an entity is a balance of the bank. -/
theorem bank_setAmount {who : JString} {b : BankEntity} (hb : s.findByUserName who = some b)
    (v : Int64) : bank (s.newUserBankEntity (b.updateAmount v)) = (bank s).assign who v := by
  rw [bank_newUserBankEntity, BankRepository.userName_updateAmount hb, Bank.enrol, Bank.assign,
    bank_holders, hb]
  rfl

/-- The update of a user who need not exist. -/
theorem bank_updateAmount (who : JString) (v : Int64) :
    bank (s.updateUser who fun b => b.updateAmount v) = (bank s).assign who v := by
  cases hb : s.findByUserName who with
  | none =>
    have hnone : (bank s).holders who = none := by rw [bank_holders, hb]; rfl
    rw [BankRepository.updateUser, hb, Bank.assign, hnone, Option.map_none, ← hnone,
      Function.update_eq_self]
  | some b => rw [s.updateUser_of_find hb, bank_setAmount hb]

/-- A bank whose auctions differ in one place. -/
theorem bank_eq_list {t : BankRepository} {id : JLong} {x : Sale}
    (hholders : (bank t).holders = (bank s).holders)
    (hsales : ∀ k, (bank t).sales k = if k = id then some x else (bank s).sales k) :
    bank t = (bank s).list id x := by
  apply Bank.ext
  · exact hholders
  · funext k
    rw [hsales k]
    exact (Function.update_apply _ _ _ _).symm

/-- A new auction is one of the bank. -/
theorem bank_createAuction (h : Indexed s) {id : JLong} {who : JString} {b : BankEntity}
    (user : s.findByUserName who = some b) (free : s.findByAuctionID id = none) :
    bank (BankServiceHelper.createAuction id who s).2 = (bank s).list id ⟨who, false, none⟩ := by
  rw [BankServiceHelper.createAuction_of_free user free]
  apply bank_eq_list
  · funext u
    simp only [bank_holders, BankRepository.newUserBankEntity_findByUserName,
      BankRepository.createAuction_findByUserName, BankEntity.addAuction_userName,
      BankRepository.userName_of_find user]
    split_ifs with e
    · rw [← e, user]
      rfl
    · rfl
  · intro k
    simp only [bank_sales, BankRepository.findByAuctionID, BankRepository.newUserBankEntity_auctions,
      BankRepository.createAuction_auctions, JavaMap.lookup_insert, AuctionEntity.new,
      BankRepository.newUserBankEntity_auction, eq_comm (a := k)]
    split_ifs
    · rw [Option.map_some, BankRepository.createAuction_auction_length]
      rfl
    · -- The objects of the other auctions have not moved.
      cases hk : s.auctions.lookup k with
      | none => rfl
      | some r => rw [Option.map_some, Option.map_some, s.createAuction_auction _ (h.object hk).1]

/-- The end of an auction. -/
theorem bank_closeAuction (h : Indexed s) {id : JLong} {r : AuctionRef}
    (ha : s.findByAuctionID id = some r) :
    bank ((s.updateAuction r AuctionEntity.close).closeAuction r) =
      (bank s).list id (sale (s.auction r)).close := by
  apply bank_eq_list
  · rfl
  -- The auction objects are shared, so the one with another id is another object.
  · intro k
    have hlookup := h.auctions_closeAuction ha k
    have hobject := h.auction_closeAuction ha
    simp only [bank_sales, BankRepository.findByAuctionID] at ha ⊢
    rw [hlookup]
    split_ifs with e
    · rw [e, ha, Option.map_some, hobject, if_pos rfl]
      rfl
    · cases hk : s.auctions.lookup k with
      | none => rfl
      | some q =>
        rw [Option.map_some, Option.map_some, hobject, if_neg (h.ref_ne hk ha e)]

/-- The bid that is taken, when there is none yet. -/
theorem bank_acceptBid (h : Indexed s) {bid : BidEntity} {r : AuctionRef} {b : BankEntity} {v : Int64}
    (user : s.findByUserName bid.username = some b) (amount : b.amount = some v)
    (auction : s.findByAuctionID (some bid.id) = some r)
    (free : (s.auction r).bids.get bid.id = none) :
    bank (BankServiceHelper.acceptBid bid r s) =
      ((bank s).assign bid.username (v - bid.amount)).list (some bid.id)
        ((sale (s.auction r)).addBid bid) := by
  have hempty : (s.auction r).bids = KeyedMap.empty := h.bids_eq_empty auction free
  rw [h.acceptBid_eq user auction free]
  -- The frozen bid is not part of the account that the abstract bank keeps.
  have hholders : bank (s.newUserBankEntity (b.freezeBid bid)) =
      (bank s).assign bid.username (v - bid.amount) := by
    rw [bank_newUserBankEntity, BankEntity.freezeBid_userName, BankRepository.userName_of_find user,
      Bank.enrol, Bank.assign, bank_holders, user]
    simp [holder, BankEntity.freezeBid, amount]
  rw [← hholders]
  apply bank_eq_list
  · rfl
  · intro k
    have hobject : ∀ q, ((s.updateAuction r fun a => a.addBid bid).auction q) = _ :=
      s.updateAuction_auction (h.object auction).1 _
    show (s.findByAuctionID k).map (fun q => sale ((s.updateAuction r fun a => a.addBid bid).auction q)) =
      if k = some bid.id then _ else (s.findByAuctionID k).map fun q => sale (s.auction q)
    split_ifs with e
    · rw [e, auction, Option.map_some, hobject, if_pos rfl]
      simp [sale, Sale.addBid, AuctionEntity.addBid, hempty, KeyedMap.put, KeyedMap.putList]
    · cases hk : s.findByAuctionID k with
      | none => rfl
      | some q => rw [Option.map_some, Option.map_some, hobject, if_neg (h.ref_ne hk auction e)]

/-- The bid that counts as the last one. -/
theorem lastBid_sale (h : Indexed s) {id : JLong} {r : AuctionRef} (ha : s.auctions.lookup id = some r) :
    (sale (s.auction r)).lastBid id = (s.auction r).getLastBid := by
  rcases Money.standing_cases h ha with hv | ⟨b, hv, hid⟩
  · simp [Sale.lastBid, sale, AuctionEntity.getLastBid, KeyedMap.get, hv]
  · have hzero : Int64.ofInt (((s.auction r).bids.size : Int) - 1) = 0 := by
      simp [KeyedMap.size, hv]
    simp only [Sale.lastBid, sale, AuctionEntity.getLastBid, hzero, KeyedMap.get, hv, List.head?_cons,
      List.find?_cons, List.find?_nil, hid, Option.some.injEq]
    by_cases e : b.id = 0 <;> simp [e]

/-- What is paid out. -/
theorem prize_sale (h : Indexed s) {id : JLong} {r : AuctionRef} (ha : s.auctions.lookup id = some r) :
    (sale (s.auction r)).prize id = (s.auction r).getLastBidAmount := by
  rw [Sale.prize, lastBid_sale h ha]
  rfl

end Bank

/-! ## The operations -/

/-- What the code does and what the bank does: the same result, and the same bank afterwards. -/
structure Matches {α : Type} (x : Except JavaException α × BankRepository)
    (y : Except JavaException α × Bank) : Prop where
  result : x.1 = y.1
  state : bank x.2 = y.2

section Operations

variable {jvm : Jvm} {s : BankRepository}

/-- An operation that changes nothing. -/
theorem Matches.same {α : Type} (r : Except JavaException α) : Matches (r, s) (r, bank s) :=
  ⟨rfl, rfl⟩

/-- What is done with the result of an operation is done on both sides. -/
theorem Matches.map {α β : Type} {x : Except JavaException α × BankRepository}
    {y : Except JavaException α × Bank} (h : Matches x y) (f : α → β) :
    Matches (x.1.map f, x.2) (y.1.map f, y.2) := ⟨congrArg (Except.map f) h.result, h.state⟩

/-- The owner of an auction, up to the case of letters. -/
theorem isOwner_sale (a : AuctionEntity) (who : JString) :
    (sale a).isOwner jvm who = BankServiceHelper.isOwner jvm a who := rfl

/-- Who may close: an auction that is opened is one object, so its owner is asked for twice. -/
theorem mayClose_sale (a : AuctionEntity) (b : BankEntity) (who : JString) :
    (sale a).mayClose jvm (holder b) who = BankServiceHelper.mayClose jvm b who a a := by
  unfold Sale.mayClose BankServiceHelper.mayClose
  rw [isOwner_sale]
  rcases BankServiceHelper.isOwner jvm a who with _ | ⟨_ | _⟩ <;> rfl

/-- Who may bid. -/
theorem mayBid_eq (a : AuctionEntity) (who : JString) :
    BankServiceHelper.mayBid jvm who a a = ((sale a).isOwner jvm who).map not := by
  unfold BankServiceHelper.mayBid
  rw [isOwner_sale]
  rcases BankServiceHelper.isOwner jvm a who with _ | ⟨_ | _⟩ <;> rfl

/-- `createMoney` sets a balance of the bank. -/
theorem createMoney_refines (who : JString) (amount : Int64) :
    (BankServiceHelper.createMoney who amount s).1 = ((bank s).createMoney who amount).1 ∧
      bank (BankServiceHelper.createMoney who amount s).2 = ((bank s).createMoney who amount).2 := by
  unfold BankServiceHelper.createMoney Bank.createMoney
  rw [bank_holders]
  cases hb : s.findByUserName who with
  | none => exact ⟨rfl, rfl⟩
  | some b => exact ⟨rfl, bank_setAmount hb amount⟩

/-- `transferMoney` sets two balances of the bank. -/
theorem transferMoney_refines (sender : JString) (fromAmount : Int64) (receiver : JString)
    (toAmount : Int64) :
    Matches (BankServiceHelper.transferMoney sender fromAmount receiver toAmount s)
      ((bank s).transferMoney sender fromAmount receiver toAmount) := by
  unfold BankServiceHelper.transferMoney Bank.transferMoney
  -- A missing receiver does not keep the sender from being charged.
  rw [bank_holders, bank_holders]
  cases hb : s.findByUserName sender with
  | none => exact .same _
  | some b =>
    cases hc : s.findByUserName receiver with
    | none => exact ⟨rfl, bank_setAmount hb fromAmount⟩
    | some c =>
      refine ⟨rfl, ?_⟩
      show bank (BankRepository.updateUser _ receiver _) = _
      rw [bank_updateAmount, bank_setAmount hb]
      rfl

/-- `createAuction` lists an auction of the bank. -/
theorem createAuction_refines (h : Indexed s) (id : JLong) (who : JString) :
    (BankServiceHelper.createAuction id who s).1 = ((bank s).createAuction id who).1 ∧
      bank (BankServiceHelper.createAuction id who s).2 = ((bank s).createAuction id who).2 := by
  cases hb : s.findByUserName who with
  | none => simp [BankServiceHelper.createAuction, Bank.createAuction, hb]
  | some b =>
    cases ha : s.findByAuctionID id with
    | some r => simp [BankServiceHelper.createAuction, Bank.createAuction, hb, ha]
    | none =>
      rw [bank_createAuction h hb ha]
      simp [BankServiceHelper.createAuction, Bank.createAuction, hb, ha]

/-- The pay-out. The object of the auction is the one that is listed under the id, closed by now. -/
theorem payOwner_refines (h : Indexed s) {id : JLong} {r : AuctionRef}
    (ha : s.findByAuctionID id = some r) :
    Matches (BankServiceHelper.payOwner (s.auction r).close
        ((s.updateAuction r AuctionEntity.close).closeAuction r))
      (((bank s).list id (sale (s.auction r)).close).payOwner id (sale (s.auction r))) := by
  -- The auction is closed before its owner is looked up.
  rw [← bank_closeAuction h ha, Bank.payOwner, balance_bank, prize_sale h ha]
  unfold BankServiceHelper.payOwner BankRepository.balance BankRepository.user
  have howner : (s.auction r).close.ownerUsername = (sale (s.auction r)).owner := rfl
  rw [howner]
  cases hb : ((s.updateAuction r AuctionEntity.close).closeAuction r).findByUserName
      (sale (s.auction r)).owner with
  | none => exact .same _
  | some b =>
    dsimp only [bind, Except.bind]
    cases hv : b.amount with
    | none => exact .same _
    | some v =>
      refine ⟨rfl, ?_⟩
      dsimp only
      rw [(createMoney_refines _ _).2, Bank.createMoney, bank_holders, hb]
      rfl

/-- `closeAution` ends an auction of the bank. -/
theorem closeAution_refines (h : Indexed s) (id : JLong) (who : JString) :
    Matches (BankServiceHelper.closeAution jvm id who s) ((bank s).closeAution jvm id who) := by
  unfold Bank.closeAution
  rw [bank_holders, bank_sales]
  cases hb : s.findByUserName who with
  | none =>
    simp only [BankServiceHelper.closeAution, hb]
    exact .same _
  | some b =>
    -- Unknown, opened or closed: by the invariant, an id is in one of the two maps at most.
    rcases h.auction_cases id with ⟨ha, ho, hc⟩ | ⟨r, ha, ho, hc⟩ | ⟨r, ha, ho, hc⟩
    · simp only [BankServiceHelper.closeAution, BankRepository.findByAuctionID, hb, ha]
      exact .same _
    · have hopen : (sale (s.auction r)).closed = false := (h.opened ho).2.2
      have hauction : s.findByAuctionID id = some r := ha
      simp only [hauction, Option.map_some, hopen, mayClose_sale, Bool.false_eq_true, if_false]
      cases hm : BankServiceHelper.mayClose jvm b who (s.auction r) (s.auction r) with
      | error e =>
        simp only [BankServiceHelper.closeAution, hb, hauction, BankRepository.findByOpenedAuctionID,
          BankRepository.findByClosedAuctionID, ho, hc, hm]
        exact .same _
      | ok allowed =>
        cases allowed with
        | false =>
          simp only [BankServiceHelper.closeAution, hb, hauction,
            BankRepository.findByOpenedAuctionID, BankRepository.findByClosedAuctionID, ho, hc, hm]
          exact .same _
        | true =>
          rw [Money.closeAution_of_closes h ⟨ho, b, hb, hm⟩]
          exact (payOwner_refines h ha).map _
    · have hclosed : (sale (s.auction r)).closed = true := (h.closed hc).2.2
      simp only [BankServiceHelper.closeAution, BankRepository.findByAuctionID,
        BankRepository.findByOpenedAuctionID, hb, ha, ho, Option.map_some, hclosed, if_true]
      exact .same _

/-- `createBid` takes a bid of the bank. -/
theorem createBid_refines (h : Indexed s) (now id auctionId amount : Int64) (who : JString) :
    Matches (BankServiceHelper.createBid jvm now id auctionId amount who s)
      ((bank s).createBid jvm now id auctionId amount who) := by
  unfold Bank.createBid BankServiceHelper.createBid
  rw [bank_holders, bank_sales]
  cases hb : s.findByUserName who with
  | none => exact .same _
  | some b =>
    rcases h.auction_cases (some id) with ⟨ha, ho, hc⟩ | ⟨r, ha, ho, hc⟩ | ⟨r, ha, ho, hc⟩
    · simp only [BankRepository.findByAuctionID, ha]
      exact .same _
    · have hopen : (s.auction r).isClosed = false := (h.opened ho).2.2
      have hopen' : (sale (s.auction r)).closed = false := hopen
      have hauction : s.findByAuctionID (some id) = some r := ha
      simp only [hauction, BankRepository.findByOpenedAuctionID, BankRepository.findByClosedAuctionID,
        ho, hc, Option.map_some, hopen, hopen', mayBid_eq, Bool.false_eq_true, if_false, Bool.not_false,
        Bool.and_self, if_true]
      cases hm : (sale (s.auction r)).isOwner jvm who with
      | error e => exact .same _
      | ok own =>
        cases own with
        | true => exact .same _
        | false =>
          have hmay : Except.map not (.ok false : Except JavaException Bool) = .ok true := rfl
          rw [hmay]
          dsimp only
          -- The bids of the auction have its id, so one is found there if there is any.
          have hbid : (sale (s.auction r)).bid = (s.auction r).bids.get id := by
            rcases Money.standing_cases h ha with hv | ⟨x, hv, hid⟩
            · simp [sale, KeyedMap.get, hv]
            · simp [sale, KeyedMap.get, hv, Option.some.inj hid]
          rw [hbid]
          cases hfree : (s.auction r).bids.get id with
          | some old => exact .same _
          | none =>
            simp only [Option.isNone_none, Option.isSome_none, if_true, Bool.false_eq_true, if_false,
              amount_holder]
            cases hv : b.amount with
            | none => exact .same _
            | some v =>
              dsimp only
              split_ifs
              · have hstate : bank (BankServiceHelper.acceptBid ⟨id, who, amount, now⟩ r s) = _ :=
                  bank_acceptBid h hb hv ha hfree
                exact ⟨rfl, hstate⟩
              · exact .same _
    · have hclosed : (sale (s.auction r)).closed = true := (h.closed hc).2.2
      simp only [BankRepository.findByAuctionID, BankRepository.findByOpenedAuctionID, ha, ho,
        Option.map_some, hclosed, if_true]
      exact .same _

/-- Every operation of the ledger does to a repository what it does to the bank. -/
theorem run_refines (h : Indexed s) (now : Int64) (op : LedgerOperation) :
    Matches (op.run jvm now s) ((bank s).run jvm now op) := by
  cases op with
  | createMoney who amount =>
    obtain ⟨hresult, hstate⟩ := createMoney_refines (s := s) who amount
    exact ⟨congrArg Except.ok hresult, hstate⟩
  | transferMoney sender fromAmount receiver toAmount =>
    exact transferMoney_refines sender fromAmount receiver toAmount
  | createAuction id who =>
    obtain ⟨hresult, hstate⟩ := createAuction_refines h id who
    exact ⟨congrArg Except.ok hresult, hstate⟩
  | createBid id auctionId amount who => exact createBid_refines h now id auctionId amount who
  | closeAution id who => exact closeAution_refines h id who

end Operations

/-! ## The requests -/

section Requests

variable {jvm : Jvm} {s : BankRepository}

open BankService (executeLedger executeRegisterUser executeCreateMoney executeTransferMoney
  executeCreateAuction amountsAre amountIs)

/-- The account of a new entity. -/
theorem holder_of_new {username password : JString} {amount : JLong} {roles : Option (List JString)}
    {b : BankEntity} (h : BankEntity.new jvm username password amount roles = .ok b) :
    holder b = ⟨password, amount, b.roles⟩ := by
  unfold BankEntity.new at h
  -- The roles are joined to one text, and a `null` among them throws.
  cases roles with
  | none =>
    cases h
    rfl
  | some rs =>
    cases hr : BankEntity.appendRoles jvm "ROLE_USER" rs with
    | error e => simp [hr, Except.map] at h
    | ok r =>
      simp only [hr, Except.map, Except.ok.injEq] at h
      rw [← h]
      rfl

/-- `REGISTER_USER`. -/
theorem register_refines (username : JString)
    (rest : Except JavaException (JString × JLong × Option (List JString))) :
    Matches (executeRegisterUser jvm username rest s) ((bank s).register jvm username rest) := by
  unfold executeRegisterUser Bank.register
  rw [bank_holders]
  -- The account is made only when the name is free and the fields could be read.
  cases hb : s.findByUserName username with
  | some b => exact .same _
  | none =>
    cases rest with
    | error e => exact .same _
    | ok fields =>
      obtain ⟨password, amount, roles⟩ := fields
      simp only [BankServiceHelper.registerUser, Option.map_none]
      cases hnew : BankEntity.new jvm username password amount roles with
      | error e => exact .same _
      | ok b =>
        have hname : b.userName = username := BankEntity.userName_of_new hnew
        have hstate := bank_newUserBankEntity (s := s) b
        rw [holder_of_new hnew, hname] at hstate
        refine ⟨?_, hstate⟩
        dsimp only [Except.map]
        rw [hname]

/-- `CREATE_MONEY` of a user with a balance. The texts of two amounts are compared. -/
theorem deposit_refines {who : JString} {b : BankEntity} {v : Int64}
    (hb : s.findByUserName who = some b) (hv : b.amount = some v) (original amount : Int64) :
    Matches (executeCreateMoney who (.ok (original, amount)) s)
      ((bank s).deposit who v original amount) := by
  have hbalance : Money.balanceOf s who = some v := by rw [Money.balanceOf, hb, Option.bind_some, hv]
  simp only [executeCreateMoney, hb, Money.compareAmount_eq hbalance, Bank.deposit]
  split_ifs
  any_goals exact .same _
  all_goals
    obtain ⟨hresult, hstate⟩ := createMoney_refines (s := s) who amount
    exact ⟨congrArg (fun j => Except.ok (BankService.jsonReply j)) hresult, hstate⟩

/-- `TRANSFER_MONEY` between two users. -/
theorem transfer_refines {sender receiver : JString} {b c : BankEntity}
    (hb : s.findByUserName sender = some b) (hc : s.findByUserName receiver = some c)
    (fromSaldo toSaldo fromAmount toAmount : Int64) :
    Matches (executeTransferMoney sender fromSaldo receiver toSaldo fromAmount toAmount s)
      ((bank s).transfer sender receiver fromSaldo toSaldo fromAmount toAmount (holder b)
        (holder c)) := by
  have hdone := (transferMoney_refines (s := s) sender fromAmount receiver toAmount).map
    BankService.jsonReply
  simp only [executeTransferMoney, hb, hc, Bank.transfer, amount_holder, amountsAre, amountIs]
  -- The second amount is compared only when the first one is as given, and throws when it is `null`.
  cases hv : b.amount with
  | none => exact .same _
  | some v =>
    dsimp only
    by_cases e : v = fromSaldo
    · cases hw : c.amount with
      | none =>
        simp only [e, beq_self_eq_true, if_true]
        exact .same _
      | some w =>
        by_cases e' : w = toSaldo
        · simp only [e, e', beq_self_eq_true, and_self, if_true]
          exact hdone
        · have hne : (w == toSaldo) = false := beq_false_of_ne e'
          simp only [e, e', beq_self_eq_true, hne, and_false, if_false]
          exact .same _
    · have hne : (v == fromSaldo) = false := beq_false_of_ne e
      cases hw : c.amount with
      | none =>
        simp only [e, hne, if_false]
        exact .same _
      | some w =>
        simp only [e, hne, false_and, if_false]
        exact .same _

/-- Every request on the ledger does to a repository what it does to the bank. -/
theorem execute_refines (h : Indexed s) (r : LedgerRequest) :
    Matches (executeLedger jvm r s) ((bank s).execute jvm r) := by
  -- One case for each request; in each, both sides look at the same accounts and auctions.
  cases r with
  | registerUser username rest => exact register_refines username rest
  | createMoney who rest =>
    simp only [executeLedger, Bank.execute, bank_holders, balance_bank, BankRepository.balance,
      BankRepository.user]
    cases hb : s.findByUserName who with
    | none =>
      simp only [executeCreateMoney, hb]
      exact .same _
    | some b =>
      cases rest with
      | error e =>
        simp only [executeCreateMoney, hb]
        exact .same _
      | ok amounts =>
        obtain ⟨original, amount⟩ := amounts
        cases hv : b.amount with
        | none =>
          simp only [executeCreateMoney, hb, BankRepository.compareAmount, hv, bind, Except.bind]
          exact .same _
        | some v =>
          simp only [hv, bind, Except.bind]
          exact deposit_refines hb hv original amount
  | transferMoney sender fromSaldo receiver toSaldo fromAmount toAmount =>
    simp only [executeLedger, Bank.execute, bank_holders]
    cases hb : s.findByUserName sender with
    | none =>
      simp only [executeTransferMoney, hb]
      exact .same _
    | some b =>
      cases hc : s.findByUserName receiver with
      | none =>
        simp only [executeTransferMoney, hb, hc]
        exact .same _
      | some c => exact transfer_refines hb hc fromSaldo toSaldo fromAmount toAmount
  | createAuction who auctionID =>
    simp only [executeLedger, executeCreateAuction, Bank.execute, bank_holders, bank_sales]
    cases hb : s.findByUserName who with
    | none => exact .same _
    | some b =>
      cases ha : s.findByAuctionID auctionID with
      | some r => exact .same _
      | none =>
        obtain ⟨hresult, hstate⟩ := createAuction_refines h auctionID who
        exact ⟨congrArg (fun j => Except.ok (BankService.jsonReply j)) hresult, hstate⟩
  | closeAuction who auctionID =>
    exact (closeAution_refines h auctionID who).map BankService.jsonReply

/-- The answer to a query about one thing is that of the bank. -/
theorem answer_refines (h : Indexed s) {q : Query} {reply : Except JavaException Reply}
    (hq : (bank s).answer q = some reply) : BankService.answer jvm s q = reply := by
  cases q with
  | findUser username =>
    obtain rfl := Option.some.inj hq
    rw [BankService.answer_findUser, bank_holders]
    cases hb : s.findByUserName username with
    | none => rfl
    | some b =>
      have hname := BankRepository.userName_of_find hb
      simp only [Option.map_some, BankEntity.getJSON, Holder.getJSON, hname, holder]
  | checkCurrentAmount who =>
    obtain rfl := Option.some.inj hq
    simp only [BankService.answer_checkCurrentAmount, bank_holders, balance_bank,
      BankRepository.balance, BankRepository.user]
    cases hb : s.findByUserName who with
    | none => rfl
    | some b =>
      dsimp only [Option.elim_some, Option.map_some, bind, Except.bind]
      cases b.amount <;> rfl
  | checkWinnerBidClosedAuction id =>
    obtain rfl := Option.some.inj hq
    simp only [BankService.answer, bank_sales]
    rcases h.auction_cases id with ⟨ha, ho, hc⟩ | ⟨r, ha, ho, hc⟩ | ⟨r, ha, ho, hc⟩
    · simp [BankRepository.findByAuctionID, ha]
    · have hopen : (sale (s.auction r)).closed = false := (h.opened ho).2.2
      simp [BankRepository.findByAuctionID, BankRepository.findByClosedAuctionID, ha, hc, hopen,
        Option.filter]
    · have hclosed : (sale (s.auction r)).closed = true := (h.closed hc).2.2
      simp [BankRepository.findByAuctionID, BankRepository.findByClosedAuctionID, ha, hc, hclosed,
        Option.filter, lastBid_sale h ha, BankRepository.checkWinnerBidFromAuction]
  | unsupported =>
    obtain rfl := Option.some.inj hq
    rfl
  -- The listings.
  | _ => cases hq

/-- What an operation of a contract asks for is asked of the bank. -/
theorem call_refines (sR : SmartContractRunner) (i : Int32) (www : JString) (ss : List String) :
    (bank s).call jvm sR i www ss = sR.dispatch jvm s i www ss := by
  unfold Bank.call SmartContractRunner.dispatch
  cases word ss 0 with
  | error e => rfl
  | ok name =>
    dsimp only [bind, Except.bind]
    -- The five operations by name, and an unknown one.
    split_ifs
    · simp only [balance_bank, SmartContractRunner.callCreateMoney, bind, Except.bind]
    · simp only [balance_bank, user_bank, SmartContractRunner.callTransferMoney, bind, Except.bind]
      cases s.user www <;> rfl
    · simp only [user_bank, SmartContractRunner.callCreateAuction, bind, Except.bind]
      cases s.user www <;> rfl
    · simp only [bank_sales, SmartContractRunner.callBid, bind, Except.bind]
      cases longWord ss 2 with
      | error e => rfl
      | ok id =>
        dsimp only
        cases s.findByAuctionID (some id) <;> rfl
    · simp only [user_bank, SmartContractRunner.callCloseAuction, bind, Except.bind]
      cases s.user www <;> rfl
    · rfl

end Requests

/-! ## The steps of a replica -/

section Steps

variable {jvm : Jvm} {st : BankService}

/-- The epilogue of a request settles the reply and leaves the bank. -/
theorem finish_refines {x : Outcome Reply} {y : Except JavaException Reply × Bank}
    (h : Matches x y) : Matches (BankService.finish x) (Office.settle y.1, y.2) := by
  unfold BankService.finish Office.settle
  rw [h.result]
  cases y.1 with
  | ok reply => exact ⟨rfl, h.state⟩
  | error e =>
    dsimp only
    split_ifs
    · exact ⟨rfl, h.state⟩
    · exact ⟨rfl, h.state⟩

/-- The verdict of the verifier never holds an error. -/
theorem validateCode_has_error (cl : ContractClass) :
    (BankServiceHelper.validateCode jvm cl).has "error" = false := by
  unfold BankServiceHelper.validateCode
  split <;> rfl

/-- The upload of a contract. -/
theorem upload_refines (who : JString) (code : List UInt8) :
    (BankService.executeCreateSmartContract jvm who code st).1 = ((office st).upload jvm who code).1 ∧
      (⟨bank st.bankRepo, (BankService.executeCreateSmartContract jvm who code st).2⟩ : Office) =
        ((office st).upload jvm who code).2 := by
  simp only [BankService.executeCreateSmartContract, Office.upload, office, bank_holders]
  cases st.bankRepo.findByUserName who with
  | none => exact ⟨rfl, rfl⟩
  | some b =>
    dsimp only [Option.map_some]
    -- A class that cannot be loaded or made is answered with its error.
    cases h : st.sR.createObjectFromFile jvm who code with
    | mk result sR =>
      cases result with
      | error e => exact ⟨rfl, rfl⟩
      | ok cl =>
        simp only [validateCode_has_error, Bool.false_eq_true, if_false]
        exact ⟨trivial, trivial⟩

/-- The answer to an unordered command, where the bank determines it. -/
theorem query_refines (h : Indexed st.bankRepo) {command : Command}
    {reply : Except JavaException Reply} (hq : (office st).query command = some reply) :
    (BankService.appExecuteUnordered jvm command st.bankRepo).1 = reply := by
  unfold Office.query at hq
  unfold BankService.appExecuteUnordered BankService.query
  -- A command that cannot be read is answered like one whose query fails.
  cases hd : decodeUnordered command with
  | error e =>
    rw [hd] at hq
    obtain rfl := Option.some.inj hq
    exact (finish_refines (.same (s := st.bankRepo) (.error e))).result
  | ok q =>
    rw [hd] at hq
    obtain ⟨answer, hanswer, rfl⟩ := Option.map_eq_some_iff.mp hq
    have hreply : BankService.answer jvm st.bankRepo q = answer := answer_refines h hanswer
    rw [← hreply]
    exact (finish_refines (.same (s := st.bankRepo) _)).result

/-- An ordered command: its reply, where the bank determines it, and the office after it. -/
theorem ordered_refines (h : Indexed st.bankRepo) (command : Command) :
    (∀ reply, ((office st).ordered jvm command).1 = some reply →
      (st.appExecuteOrdered jvm command).1 = reply) ∧
    office (st.appExecuteOrdered jvm command).2 = ((office st).ordered jvm command).2 := by
  unfold BankService.appExecuteOrdered Office.ordered
  cases decodeOrdered command with
  | error e =>
    have hfinish := finish_refines (.same (s := st.bankRepo) (.error e))
    refine ⟨?_, ?_⟩
    · rintro reply ⟨⟩
      exact hfinish.result
    · exact congrArg (fun B => (⟨B, st.sR⟩ : Office)) hfinish.state
  | ok request =>
    cases request with
    | ledger r =>
      have hfinish := finish_refines (@execute_refines jvm _ h r)
      refine ⟨?_, ?_⟩
      · rintro reply ⟨⟩
        exact hfinish.result
      · exact congrArg (fun B => (⟨B, st.sR⟩ : Office)) hfinish.state
    | createSmartContract who code =>
      obtain ⟨hresult, hoffice⟩ := @upload_refines jvm st who code
      have hfinish := finish_refines (.same (s := st.bankRepo)
        (BankService.executeCreateSmartContract jvm who code st).1)
      refine ⟨?_, ?_⟩
      · rintro reply ⟨⟩
        rw [← hresult]
        exact hfinish.result
      · rw [← hoffice]
        exact congrArg (fun B => (⟨B, _⟩ : Office)) hfinish.state
    -- Any other command is answered like an unordered one.
    | other =>
      have hsame : bank (BankService.appExecuteUnordered jvm command st.bankRepo).2 =
          bank st.bankRepo := by
        obtain ⟨v, hv⟩ := finish_eq (BankService.query jvm command st.bankRepo, st.bankRepo)
        rw [BankService.appExecuteUnordered, hv, bank_version]
      exact ⟨fun reply hq => query_refines h hq, congrArg (fun B => (⟨B, st.sR⟩ : Office)) hsame⟩

/-- The replies of a replica are those of the office, where the bank determines them. -/
theorem reply_refines (h : Indexed st.bankRepo) {a : Access} {reply : Except JavaException Reply}
    (hr : (office st).reply jvm a = some reply) : (st.access jvm a).1 = reply := by
  cases a with
  | ordered command => exact (ordered_refines h command).1 reply hr
  | unordered command => exact query_refines h hr

/-- An operation of a contract. -/
theorem operation_refines (h : Indexed st.bankRepo) (now : Int64) (i : Int32) (op : String) :
    office (st.runOperation jvm now i op) = (office st).operation jvm now i op := by
  simp only [BankService.runOperation, Office.operation, office]
  cases (st.sR.clearOperations i).ownerOf i with
  | none => rfl
  | some www =>
    dsimp only
    rw [call_refines]
    cases (st.sR.clearOperations i).dispatch jvm st.bankRepo i www (split " " op) with
    | error e => rfl
    | ok call =>
      -- The counters and the last result belong to the runner, which both sides keep as it is.
      cases call with
      | none =>
        dsimp only [BankService.callResult, BankService.afterCall]
        split_ifs <;> rfl
      | some call =>
        have hrun := @run_refines jvm _ h now call
        dsimp only [BankService.callResult]
        generalize call.run jvm now st.bankRepo = x at hrun ⊢
        generalize (bank st.bankRepo).run jvm now call = y at hrun ⊢
        obtain ⟨result, s⟩ := x
        obtain ⟨result', B⟩ := y
        obtain ⟨rfl, rfl⟩ := hrun
        cases result with
        | error e => rfl
        | ok j =>
          dsimp only [BankService.afterCall]
          split_ifs <;> rfl

/-- A step of a replica is a step of the office. -/
theorem step_refines (h : Indexed st.bankRepo) (x : Action) :
    office (x.run jvm st) = (office st).step jvm x := by
  cases x with
  | ordered command => exact (ordered_refines h command).2
  | unordered command =>
    obtain ⟨v, hv⟩ := finish_eq (BankService.query jvm command st.bankRepo, st.bankRepo)
    simp only [Action.run, Office.step, office, BankService.appExecuteUnordered, hv, bank_version]
  | operation now i op =>
    simp only [Action.run, Office.step]
    -- A runner whose thread has ended executes nothing.
    cases halive : st.sR.alive with
    | false => simp [office, halive]
    | true =>
      simp only [office, halive, if_true]
      exact operation_refines h now i op

end Steps

/-! ## Runs -/

/-- The office after a run of a replica is the one after the run of the office. -/
theorem office_runAll {jvm : Jvm} {st : BankService} (h : Indexed st.bankRepo) (xs : List Action) :
    office (st.runAll jvm xs) = xs.foldl (Office.step jvm) (office st) :=
  Run.foldl_refines (I := fun st => Indexed st.bankRepo) (fun _ x hst => step_refines hst x)
    (fun st x hst => hst.updates (x.run_updates st)) xs h

/-- **A replica is the bank:** after every run of ordered and unordered requests and of operations of
contracts, in any order, what the replica holds is the bank of the abstract run, and every reply to a
request that asks for one thing is the reply of that bank. -/
theorem replica_is_office (jvm : Jvm) (xs : List Action) :
    office (BankService.new.runAll jvm xs) = xs.foldl (Office.step jvm) Office.new ∧
      ∀ a reply, (xs.foldl (Office.step jvm) Office.new).reply jvm a = some reply →
        ((BankService.new.runAll jvm xs).access jvm a).1 = reply := by
  have hoffice : office (BankService.new.runAll jvm xs) = xs.foldl (Office.step jvm) Office.new :=
    office_runAll Indexed.new xs
  refine ⟨hoffice, ?_⟩
  intro a reply hreply
  rw [← hoffice] at hreply
  exact reply_refines (reached_indexed xs) hreply

end NovaBank.Spec
