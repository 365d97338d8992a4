import NovaBank.Replica.Index

/-!
# Runs of a replica

A run is a list of actions: ordered and unordered requests, and single operations of contracts, so
that requests may fall between the operations of one pass (`pass_eq_runAll`). What an action asks of
the ledger is read off the request, or off the words of the operation, and the state that it meets
(`Action.asks`), and that is all that it does to the repository, up to the version
(`Action.run_eq`). So what holds of every run is proved over the few things that can be asked.
-/

namespace NovaBank.Replica

open Java

/-! ## Actions -/

/-- A step of a replica. -/
inductive Action where
  | ordered (command : Command)
  | unordered (command : Command)
  /-- The operation `op` of the contract `i`, executed at the time `now`. -/
  | operation (now : Int64) (i : Int32) (op : String)

/-- The replica after an action. -/
def Action.run (jvm : Jvm) (x : Action) (st : BankService) : BankService :=
  match x with
  | .ordered command => (st.appExecuteOrdered jvm command).2
  | .unordered command =>
    { st with bankRepo := (BankService.appExecuteUnordered jvm command st.bankRepo).2 }
  -- A thread that has ended executes nothing.
  | .operation now i op => if st.sR.alive then st.runOperation jvm now i op else st

/-- The replica after some actions. -/
def BankService.runAll (jvm : Jvm) (xs : List Action) (st : BankService) : BankService :=
  xs.foldl (fun st x => x.run jvm st) st

/-- The repository that a replica reaches from the empty one. -/
def reached (jvm : Jvm) (xs : List Action) : BankRepository := (BankService.new.runAll jvm xs).bankRepo

/-- The action of a request. -/
def Access.action : Access → Action
  | ordered command => .ordered command
  | unordered command => .unordered command

section Runs

variable {jvm : Jvm}

/-- A request is an action. -/
theorem BankService.access_eq_run (a : Access) (st : BankService) :
    (st.access jvm a).2 = a.action.run jvm st := by
  cases a <;> rfl

/-- A run can be cut in two. -/
theorem BankService.runAll_append (xs ys : List Action) (st : BankService) :
    st.runAll jvm (xs ++ ys) = (st.runAll jvm xs).runAll jvm ys := List.foldl_append

/-- The last action of a run. -/
theorem BankService.runAll_concat (xs : List Action) (x : Action) (st : BankService) :
    st.runAll jvm (xs ++ [x]) = x.run jvm (st.runAll jvm xs) := runAll_append xs [x] st

/-- The inner loop of the runner is a run of its operations. -/
theorem runOperations_eq_runAll (jvm : Jvm) (i : Int32) (now : ℕ → Int64) (ops : List String)
    (st : BankService) : ∃ xs, st.runOperations jvm i now ops = st.runAll jvm xs := by
  induction ops generalizing now st with
  | nil => exact ⟨[], rfl⟩
  | cons op ops ih =>
    unfold BankService.runOperations
    split
    · rename_i halive
      obtain ⟨xs, hxs⟩ := ih (fun n => now (n + 1)) (st.runOperation jvm (now 0) i op)
      refine ⟨.operation (now 0) i op :: xs, ?_⟩
      rw [hxs]
      simp [BankService.runAll, Action.run, halive]
    · exact ⟨[], rfl⟩

/-- A pass of the runner is a run of its operations. -/
theorem pass_eq_runAll (now : Int32 → ℕ → Int64) (st : BankService) :
    ∃ xs, st.pass jvm now = st.runAll jvm xs := by
  -- On the contracts that are left, from any state.
  have h : ∀ (is : List Int32) (st : BankService),
      ∃ xs, st.runContracts jvm now is = st.runAll jvm xs := by
    intro is
    induction is with
    | nil => exact fun st => ⟨[], rfl⟩
    | cons i is ih =>
      intro st
      unfold BankService.runContracts
      dsimp only
      obtain ⟨xs, hxs⟩ := runOperations_eq_runAll jvm i (now i)
        (((st.sR.contracts.lookup i).map st.sR.getOperations).getD []) st
      obtain ⟨ys, hys⟩ := ih (st.runAll jvm xs)
      exact ⟨xs ++ ys, by rw [hxs, hys, BankService.runAll_append]⟩
  exact h _ st

/-- An action is a chain of updates. -/
theorem Action.run_updates (x : Action) (st : BankService) :
    Updates st.bankRepo (x.run jvm st).bankRepo := by
  cases x with
  | ordered command => exact appExecuteOrdered_updates command st
  | unordered command => exact appExecuteUnordered_updates command st.bankRepo
  | operation now i op =>
    simp only [Action.run]
    split
    · exact runOperation_updates now i op st
    · exact .refl

/-- A run is a chain of updates. -/
theorem BankService.runAll_updates (xs : List Action) (st : BankService) :
    Updates st.bankRepo (st.runAll jvm xs).bankRepo := by
  induction xs generalizing st with
  | nil => exact .refl
  | cons x xs ih => exact (x.run_updates st).trans (ih (x.run jvm st))

/-- What is reached by a longer run is reached from what the shorter one reaches. -/
theorem reached_append (xs ys : List Action) : Updates (reached jvm xs) (reached jvm (xs ++ ys)) := by
  rw [reached, reached, BankService.runAll_append]
  exact BankService.runAll_updates ys _

/-- The repository after one more action. -/
theorem reached_concat (xs : List Action) (x : Action) :
    reached jvm (xs ++ [x]) = (x.run jvm (BankService.new.runAll jvm xs)).bankRepo :=
  congrArg BankService.bankRepo (BankService.runAll_concat xs x BankService.new)

/-- After every run from the empty repository, the maps agree. -/
theorem reached_indexed (xs : List Action) : Indexed (reached jvm xs) :=
  Indexed.new.updates (BankService.runAll_updates xs BankService.new)

end Runs

/-! ## What an action asks for -/

/-- What an action asks of the ledger. -/
inductive Ask where
  | register (b : BankEntity)
  | call (op : LedgerOperation)

/-- The repository after what was asked for, at the time `now`. -/
def Ask.run (jvm : Jvm) (now : Int64) (a : Ask) (s : BankRepository) : BankRepository :=
  match a with
  | .register b => s.newUserBankEntity b
  | .call op => (op.run jvm now s).2

/-- What an ordered request asks for after its checks, if anything. -/
def LedgerRequest.asks (jvm : Jvm) (s : BankRepository) : LedgerRequest → Option Ask
  | .registerUser username rest =>
    match s.findByUserName username, rest with
    | none, .ok (password, amount, roles) =>
      ((BankEntity.new jvm username password amount roles).toOption).map .register
    | _, _ => none
  | .createMoney who rest =>
    match s.findByUserName who, rest with
    | some _, .ok (original, amount) =>
      match s.compareAmount who original with
      | .ok orig => if 0 ≤ orig then some (.call (.createMoney who amount)) else none
      | .error _ => none
    | _, _ => none
  | .transferMoney sender fromSaldo receiver toSaldo fromAmount toAmount =>
    match s.findByUserName sender, s.findByUserName receiver with
    | some beFrom, some beTo =>
      match BankService.amountsAre beFrom beTo fromSaldo toSaldo with
      | .ok true => some (.call (.transferMoney sender fromAmount receiver toAmount))
      | _ => none
    | _, _ => none
  | .createAuction who auctionID =>
    match s.findByUserName who, s.findByAuctionID auctionID with
    | some _, none => some (.call (.createAuction auctionID who))
    | _, _ => none
  | .closeAuction who auctionID => some (.call (.closeAution auctionID who))

namespace Action

/-- The user for whom an operation of the contract `i` is executed, if the thread gets to it. -/
def onBehalfOf (st : BankService) (i : Int32) : Option JString :=
  if st.sR.alive then (st.sR.clearOperations i).ownerOf i else none

/-- What an action asks for after its checks, if anything. -/
def asks (jvm : Jvm) (st : BankService) : Action → Option Ask
  | ordered command =>
    match decodeOrdered command with
    | .ok (.ledger r) => r.asks jvm st.bankRepo
    | _ => none
  | unordered _ => none
  | operation _ i op =>
    match onBehalfOf st i with
    | none => none
    | some www =>
      match (st.sR.clearOperations i).dispatch jvm st.bankRepo i www (split " " op) with
      | .ok (some call) => some (.call call)
      | _ => none

/-- The time at which a bid of the action would be placed. -/
def time : Action → Int64
  | operation now _ _ => now
  | _ => 0

end Action

section Asks

variable {jvm : Jvm} {s : BankRepository}

/-- A request on the ledger does what it asks for. -/
theorem executeLedger_eq (r : LedgerRequest) (s : BankRepository) :
    (BankService.executeLedger jvm r s).2 = (r.asks jvm s).elim s fun a => a.run jvm 0 s := by
  -- A request asks for its change exactly on the branch that carries it out.
  cases r with
  | registerUser username rest =>
    simp only [BankService.executeLedger, BankService.executeRegisterUser, LedgerRequest.asks]
    cases s.findByUserName username with
    | some b => rfl
    | none =>
      cases rest with
      | error e => rfl
      | ok fields =>
        obtain ⟨password, amount, roles⟩ := fields
        simp only [BankServiceHelper.registerUser]
        cases BankEntity.new jvm username password amount roles <;> rfl
  | createMoney who rest =>
    simp only [BankService.executeLedger, BankService.executeCreateMoney, LedgerRequest.asks]
    cases s.findByUserName who with
    | none => rfl
    | some b =>
      cases rest with
      | error e => rfl
      | ok amounts =>
        obtain ⟨original, amount⟩ := amounts
        dsimp only
        cases s.compareAmount who original with
        | error e => rfl
        | ok orig =>
          dsimp only
          split_ifs <;> rfl
  | transferMoney sender fromSaldo receiver toSaldo fromAmount toAmount =>
    simp only [BankService.executeLedger, BankService.executeTransferMoney, LedgerRequest.asks]
    cases s.findByUserName sender with
    | none => rfl
    | some beFrom =>
      cases s.findByUserName receiver with
      | none => rfl
      | some beTo =>
        dsimp only
        cases BankService.amountsAre beFrom beTo fromSaldo toSaldo with
        | error e => rfl
        | ok same => cases same <;> rfl
  | createAuction who auctionID =>
    simp only [BankService.executeLedger, BankService.executeCreateAuction, LedgerRequest.asks]
    cases s.findByUserName who with
    | none => rfl
    | some b => cases s.findByAuctionID auctionID <;> rfl
  | closeAuction who auctionID => rfl

/-- An action does what it asks for, and sets the version. -/
theorem Action.run_eq (jvm : Jvm) (x : Action) (st : BankService) :
    ∃ v, (x.run jvm st).bankRepo =
      { ((x.asks jvm st).elim st.bankRepo fun a => a.run jvm x.time st.bankRepo) with version := v } := by
  -- Only a ledger request and an operation change more than the version.
  cases x with
  | ordered command =>
    simp only [Action.run, BankService.appExecuteOrdered, Action.asks, Action.time]
    cases decodeOrdered command with
    | error e => exact finish_eq (.error e, st.bankRepo)
    | ok request =>
      cases request with
      | ledger r =>
        dsimp only
        rw [← executeLedger_eq]
        exact finish_eq (BankService.executeLedger jvm r st.bankRepo)
      | createSmartContract who code => exact finish_eq (_, st.bankRepo)
      | other => exact finish_eq (_, st.bankRepo)
  | unordered command => exact finish_eq (_, st.bankRepo)
  | operation now i op =>
    simp only [Action.run, Action.asks, Action.time, Action.onBehalfOf]
    cases st.sR.alive with
    | false => exact ⟨st.bankRepo.version, rfl⟩
    | true =>
      simp only [BankService.runOperation, if_true]
      cases (st.sR.clearOperations i).ownerOf i with
      | none => exact ⟨st.bankRepo.version, rfl⟩
      | some www =>
        dsimp only
        cases (st.sR.clearOperations i).dispatch jvm st.bankRepo i www (split " " op) with
        | error e => exact ⟨st.bankRepo.version, rfl⟩
        | ok call =>
          cases call with
          | none => exact afterCall_eq _ _
          | some call => exact afterCall_eq _ (call.run jvm now st.bankRepo)

/-- What the ordered requests ask for. -/
inductive Requested (jvm : Jvm) (s : BankRepository) : LedgerRequest → Ask → Prop where
  | registerUser (username password : JString) (amount : JLong) (roles : Option (List JString))
      (b : BankEntity) (free : s.findByUserName username = none)
      (account : BankEntity.new jvm username password amount roles = .ok b) :
      Requested jvm s (.registerUser username (.ok (password, amount, roles))) (.register b)
  | createMoney (who : JString) (original amount : Int64) :
      Requested jvm s (.createMoney who (.ok (original, amount))) (.call (.createMoney who amount))
  | transferMoney (sender receiver : JString) (fromSaldo toSaldo fromAmount toAmount : Int64) :
      Requested jvm s (.transferMoney sender fromSaldo receiver toSaldo fromAmount toAmount)
        (.call (.transferMoney sender fromAmount receiver toAmount))
  | createAuction (who : JString) (auctionID : JLong) :
      Requested jvm s (.createAuction who auctionID) (.call (.createAuction auctionID who))
  | closeAuction (who : JString) (auctionID : JLong) :
      Requested jvm s (.closeAuction who auctionID) (.call (.closeAution auctionID who))

/-- A request that asks for something asks for one of these. -/
theorem LedgerRequest.requested_of_asks {r : LedgerRequest} {a : Ask} (h : r.asks jvm s = some a) :
    Requested jvm s r a := by
  -- One case for each request; the branches that refuse ask for nothing.
  cases r with
  | registerUser username rest =>
    simp only [LedgerRequest.asks] at h
    split at h
    · rename_i password amount roles hfree
      cases hnew : BankEntity.new jvm username password amount roles with
      | error e => simp [hnew, Except.toOption] at h
      | ok b =>
        obtain rfl : .register b = a := by simpa [hnew, Except.toOption] using h
        exact .registerUser username password amount roles b hfree hnew
    · cases h
  | createMoney who rest =>
    simp only [LedgerRequest.asks] at h
    split at h
    · split at h
      · split_ifs at h
        cases h
        exact .createMoney who _ _
      · cases h
    · cases h
  | transferMoney sender fromSaldo receiver toSaldo fromAmount toAmount =>
    simp only [LedgerRequest.asks] at h
    split at h
    · split at h
      · cases h
        exact .transferMoney sender receiver fromSaldo toSaldo fromAmount toAmount
      · cases h
    · cases h
  | createAuction who auctionID =>
    simp only [LedgerRequest.asks] at h
    split at h
    · cases h
      exact .createAuction who auctionID
    · cases h
  | closeAuction who auctionID =>
    cases h
    exact .closeAuction who auctionID

/-- An account is registered under a free name. -/
theorem LedgerRequest.free_of_register {r : LedgerRequest} {b : BankEntity}
    (h : r.asks jvm s = some (.register b)) : s.findByUserName b.userName = none := by
  cases requested_of_asks h with
  | registerUser username password amount roles _ free account =>
    rw [BankEntity.userName_of_new account]
    exact free

/-- The calls that an operation with the words `ss` of the contract `i` asks for on behalf of `www`,
with what has been read. -/
inductive Dispatched (s : BankRepository) (i : Int32) (www : JString) (ss : List String) :
    Option LedgerOperation → Prop where
  | nothing : Dispatched s i www ss none
  | createMoney (old amount : Int64) (name : word ss 0 = .ok "CREATE_MONEY")
      (balance : s.balance www = .ok old) (asked : longWord ss 1 = .ok amount) :
      Dispatched s i www ss (some (.createMoney www (old + amount)))
  | transferMoney (old toOld amount : Int64) (receiver : String)
      (name : word ss 0 = .ok "TRANSFER_MONEY") (balance : s.balance www = .ok old)
      (asked : longWord ss 2 = .ok amount) (enough : 0 ≤ old - amount)
      (target : word ss 1 = .ok receiver) (toBalance : s.balance (some receiver) = .ok toOld) :
      Dispatched s i www ss
        (some (.transferMoney www (old - amount) (some receiver) (amount + toOld)))
  | createAuction (name : word ss 0 = .ok "CREATE_AUCTION") :
      Dispatched s i www ss (some (.createAuction (some (Int64.ofInt i.toInt)) www))
  | createBid (id amount : Int64) (name : word ss 0 = .ok "BID") (auction : longWord ss 2 = .ok id)
      (asked : longWord ss 1 = .ok amount) : Dispatched s i www ss (some (.createBid id id amount www))
  | closeAution (id : Int64) (name : word ss 0 = .ok "CLOSE_AUCTION")
      (auction : longWord ss 1 = .ok id) : Dispatched s i www ss (some (.closeAution (some id) www))

/-- The `switch` of the runner asks for one of these calls. -/
theorem dispatched_of_dispatch {sR : SmartContractRunner} {i : Int32} {www : JString}
    {ss : List String} {call : Option LedgerOperation} (h : sR.dispatch jvm s i www ss = .ok call) :
    Dispatched s i www ss call := by
  obtain ⟨name, hname, h⟩ := bind_eq_ok h
  -- The five operations by name, with what each of them reads before its call.
  split_ifs at h with h1 h2 h3 h4 h5
  · obtain ⟨old, hold, h⟩ := bind_eq_ok h
    obtain ⟨amount, hamount, h⟩ := bind_eq_ok h
    cases h
    exact .createMoney old amount (h1 ▸ hname) hold hamount
  · obtain ⟨-, -, h⟩ := bind_eq_ok h
    obtain ⟨amount, hamount, h⟩ := bind_eq_ok h
    obtain ⟨old, hold, h⟩ := bind_eq_ok h
    split_ifs at h with henough
    · obtain ⟨receiver, hreceiver, h⟩ := bind_eq_ok h
      obtain ⟨toOld, hto, h⟩ := bind_eq_ok h
      cases h
      exact .transferMoney old toOld amount receiver (h2 ▸ hname) hold hamount henough hreceiver hto
    · cases h
      exact .nothing
  · obtain ⟨b, -, h⟩ := bind_eq_ok h
    split_ifs at h
    · cases h
      exact .createAuction (h3 ▸ hname)
    · cases h
      exact .nothing
  · obtain ⟨id, hid, h⟩ := bind_eq_ok h
    split at h
    · cases h
      exact .nothing
    · obtain ⟨same, -, h⟩ := bind_eq_ok h
      split_ifs at h
      · cases h
        exact .nothing
      · obtain ⟨amount, hamount, h⟩ := bind_eq_ok h
        cases h
        exact .createBid id amount (h4 ▸ hname) hid hamount
  · obtain ⟨key, -, h⟩ := bind_eq_ok h
    split at h
    · cases h
    · obtain ⟨same, -, h⟩ := bind_eq_ok h
      split_ifs at h
      · obtain ⟨id, hid, h⟩ := bind_eq_ok h
        cases h
        exact .closeAution id (h5 ▸ hname) hid
      · obtain ⟨b, -, h⟩ := bind_eq_ok h
        split_ifs at h
        · obtain ⟨id, hid, h⟩ := bind_eq_ok h
          cases h
          exact .closeAution id (h5 ▸ hname) hid
        · cases h
          exact .nothing
  · cases h
    exact .nothing

/-- An operation asks for one of these calls on behalf of the owner of its contract. -/
theorem Action.asks_operation {now : Int64} {i : Int32} {op : String} {st : BankService} {a : Ask}
    (h : (Action.operation now i op).asks jvm st = some a) :
    ∃ www call, a = .call call ∧ Action.onBehalfOf st i = some www ∧
      Dispatched st.bankRepo i www (split " " op) (some call) := by
  simp only [Action.asks] at h
  cases hwww : Action.onBehalfOf st i with
  | none => simp [hwww] at h
  | some www =>
    simp only [hwww] at h
    -- An operation without a call, or one that throws, asks for nothing.
    split at h
    · rename_i call hcall
      cases h
      exact ⟨www, call, rfl, rfl, dispatched_of_dispatch hcall⟩
    · cases h

/-- Who is registered by an action had a free name. -/
theorem Action.free_of_register {x : Action} {st : BankService} {b : BankEntity}
    (h : x.asks jvm st = some (.register b)) : st.bankRepo.findByUserName b.userName = none := by
  cases x with
  | ordered command =>
    simp only [Action.asks] at h
    split at h
    · exact LedgerRequest.free_of_register h
    · cases h
  | unordered command => cases h
  | operation now i op =>
    obtain ⟨www, call, hcall, -⟩ := Action.asks_operation h
    cases hcall

end Asks

/-! ## The auction index -/

/-- **Auction index:** after every run of requests and contract operations from the empty repository,
the opened and the closed auctions are disjoint and together are all auctions; the three maps hold
one object for an id, whose own id it is and whose flag says in which map it is; the owner is a user
who lists the auction; and the bids of the auctions are those of the repository and of the bidders.
-/
theorem auction_index (jvm : Jvm) (xs : List Action) :
    let s := reached jvm xs
    (∀ k, ¬ (k ∈ s.openedAuctions.keys ∧ k ∈ s.closedAuctions.keys)) ∧
    (∀ k, k ∈ s.auctions.keys ↔ k ∈ s.openedAuctions.keys ∨ k ∈ s.closedAuctions.keys) ∧
    (∀ k r, s.auctions.lookup k = some r →
      (∀ q, s.openedAuctions.lookup k = some q ∨ s.closedAuctions.lookup k = some q → q = r) ∧
      (s.auction r).id = k ∧
      ((s.auction r).isClosed = true ↔ k ∈ s.closedAuctions.keys) ∧
      (∃ owner, s.findByUserName (s.auction r).ownerUsername = some owner ∧
        owner.auctions.lookup k = some r) ∧
      ∀ i bid, (s.auction r).bids.get i = some bid → s.bids.get i = some bid ∧
        ∃ bidder, s.findByUserName bid.username = some bidder ∧ bidder.bids.get i = some bid) ∧
    ∀ i bid, s.bids.get i = some bid →
      ∃ r, s.auctions.lookup (some i) = some r ∧ (s.auction r).bids.get i = some bid := by
  intro s
  have h : Indexed s := reached_indexed xs
  simp only [JavaMap.mem_keys_iff]
  refine ⟨?_, ?_, ?_, ?_⟩
  · rintro k ⟨⟨r, ho⟩, q, hc⟩
    rw [(h.opened ho).2.1] at hc
    cases hc
  · intro k
    constructor
    · rintro ⟨r, hr⟩
      exact (h.covered hr).imp (fun ho => ⟨r, ho⟩) fun hc => ⟨r, hc⟩
    · rintro (⟨r, ho⟩ | ⟨r, hc⟩)
      · exact ⟨r, (h.opened ho).1⟩
      · exact ⟨r, (h.closed hc).1⟩
  · intro k r hr
    refine ⟨?_, (h.object hr).2, ?_, h.owner hr, ?_⟩
    · rintro q (ho | hc)
      · exact Option.some.inj ((h.opened ho).1.symm.trans hr)
      · exact Option.some.inj ((h.closed hc).1.symm.trans hr)
    · constructor
      · -- A flag that is set rules out the map of opened auctions.
        intro hflag
        rcases h.covered hr with ho | hc
        · rw [(h.opened ho).2.2] at hflag
          cases hflag
        · exact ⟨r, hc⟩
      · rintro ⟨q, hc⟩
        obtain ⟨hq, -, hflag⟩ := h.closed hc
        obtain rfl : q = r := Option.some.inj (hq.symm.trans hr)
        exact hflag
    · intro i bid hbid
      obtain rfl : bid.id = i := KeyedMap.key_of_get hbid
      exact (h.bid hr (KeyedMap.mem_of_get hbid)).2
  · intro i bid hbid
    obtain ⟨r, hr, hmem⟩ := h.bids hbid
    obtain rfl : bid.id = i := KeyedMap.key_of_get hbid
    exact ⟨r, hr, KeyedMap.get_of_mem hmem⟩

end NovaBank.Replica
