import NovaBank.Money.Effects

/-!
# Accounts are isolated

No action removes a user, registers one again, or touches a name, a password or roles: an account is
only ever put back under its own name (`Change.sameUser`). Its balance changes only when the action
concerns the user (`Concerned`), which is read off the request or off the words of the operation.
-/

namespace NovaBank.Ledger

open Java Replica Money

/-! ## Who a user is -/

/-- Two versions of one account: the name, the password and the roles are the same. -/
structure SameUser (b c : BankEntity) : Prop where
  userName : c.userName = b.userName
  password : c.password = b.password
  roles : c.roles = b.roles

/-- Every account is of the same user as itself. -/
theorem SameUser.refl (b : BankEntity) : SameUser b b := ⟨rfl, rfl, rfl⟩

/-- The same user at two steps is the same user at both together. -/
theorem SameUser.trans {b c d : BankEntity} (h : SameUser b c) (h' : SameUser c d) : SameUser b d :=
  ⟨h'.userName.trans h.userName, h'.password.trans h.password, h'.roles.trans h.roles⟩

/-- Every user is still there, as the same user. -/
def UsersKept (s s' : BankRepository) : Prop :=
  ∀ u b, s.findByUserName u = some b → ∃ c, s'.findByUserName u = some c ∧ SameUser b c

/-- A step that leaves the users alone keeps them. -/
theorem UsersKept.of_users {s s' : BankRepository} (h : s'.users = s.users) : UsersKept s s' := by
  intro u b hb
  exact ⟨b, by rw [← hb, BankRepository.findByUserName, h]; rfl, .refl b⟩

section Kept

variable {s s' : BankRepository}

/-- A put of an account keeps the users when it puts a user back as the same user. -/
theorem UsersKept.put {c : BankEntity}
    (h : ∀ b, s.findByUserName c.userName = some b → SameUser b c) :
    UsersKept s (s.newUserBankEntity c) := by
  intro u b hb
  rw [BankRepository.newUserBankEntity_findByUserName]
  split_ifs with e
  · exact ⟨c, rfl, h b (e ▸ hb)⟩
  · exact ⟨b, hb, .refl b⟩

/-- A put of a user's own account under the user's name keeps the users. -/
theorem UsersKept.put_same {who : JString} {b c : BankEntity} (user : s.findByUserName who = some b)
    (same : SameUser b c) : UsersKept s (s.newUserBankEntity c) := by
  apply UsersKept.put
  intro b' hb'
  rw [same.userName, BankRepository.userName_of_find user, user] at hb'
  exact Option.some.inj hb' ▸ same

/-- Users who are kept by two steps are kept by both together. -/
theorem UsersKept.trans {s'' : BankRepository} (h : UsersKept s s') (h' : UsersKept s' s'') :
    UsersKept s s'' := by
  intro u b hb
  obtain ⟨c, hc, hbc⟩ := h u b hb
  obtain ⟨d, hd, hcd⟩ := h' u c hc
  exact ⟨d, hd, hbc.trans hcd⟩

/-- Every change keeps the users. -/
theorem UsersKept.of_change (h : Indexed s) (hc : Change s s') : UsersKept s s' := by
  -- No change but a registration makes an account, and the others keep its name, password and roles.
  cases hc with
  | register b free =>
    apply UsersKept.put
    intro b' hb'
    rw [free] at hb'
    cases hb'
  | setAmount who b v user => exact .put_same user ⟨rfl, rfl, rfl⟩
  | openAuction id who b user free =>
    rw [BankServiceHelper.createAuction_of_free user free]
    exact .put_same (c := b.addAuction id s.objects.length) user ⟨rfl, rfl, rfl⟩
  | closeAuction id r q auction opened => exact .of_users rfl
  | placeBid bid r q b v user amount enough auction opened free =>
    rw [h.acceptBid_eq user auction free]
    exact .put_same (c := b.freezeBid bid) user ⟨rfl, rfl, rfl⟩

/-- A chain of updates keeps the users. -/
theorem UsersKept.of_updates (h : Indexed s) (hu : Updates s s') : UsersKept s s' := by
  induction hu with
  | refl => exact .of_users rfl
  | tail hu hstep ih =>
    refine ih.trans ?_
    cases hstep with
    | change hc => exact .of_change (h.updates hu) hc
    | version v => exact .of_users rfl

end Kept

/-! ## Whose balance may change -/

/-- The users whom an action concerns: those that a request names, the user for whom an operation is
executed, and those whom the operation names or who take part in the auction that it is about. -/
inductive Concerned (jvm : Jvm) (st : BankService) : Action → JString → Prop where
  /-- The user of `CREATE_MONEY`. -/
  | depositor (command : Command) (who : JString) (rest : Except JavaException (Int64 × Int64))
      (request : decodeOrdered command = .ok (.ledger (.createMoney who rest))) :
      Concerned jvm st (.ordered command) who
  /-- The sender of `TRANSFER_MONEY`. -/
  | sender (command : Command) (sender receiver : JString) (fromSaldo toSaldo fromAmount toAmount : Int64)
      (request : decodeOrdered command =
        .ok (.ledger (.transferMoney sender fromSaldo receiver toSaldo fromAmount toAmount))) :
      Concerned jvm st (.ordered command) sender
  /-- The receiver of `TRANSFER_MONEY`. -/
  | receiver (command : Command) (sender receiver : JString)
      (fromSaldo toSaldo fromAmount toAmount : Int64)
      (request : decodeOrdered command =
        .ok (.ledger (.transferMoney sender fromSaldo receiver toSaldo fromAmount toAmount))) :
      Concerned jvm st (.ordered command) receiver
  /-- The owner of the auction that `CLOSE_AUCTION` closes. -/
  | owner (command : Command) (who : JString) (id : JLong) (r : AuctionRef)
      (request : decodeOrdered command = .ok (.ledger (.closeAuction who id)))
      (closes : Closes jvm id who st.bankRepo r) :
      Concerned jvm st (.ordered command) (st.bankRepo.auction r).ownerUsername
  /-- The user for whom `CREATE_MONEY`, `TRANSFER_MONEY` or `BID` of a contract is executed. -/
  | executing (now : Int64) (i : Int32) (op name : String) (www : JString)
      (user : Action.onBehalfOf st i = some www) (word0 : word (split " " op) 0 = .ok name)
      (moves : name = "CREATE_MONEY" ∨ name = "TRANSFER_MONEY" ∨ name = "BID") :
      Concerned jvm st (.operation now i op) www
  /-- The receiver of `TRANSFER_MONEY` of a contract. -/
  | target (now : Int64) (i : Int32) (op receiver : String)
      (word0 : word (split " " op) 0 = .ok "TRANSFER_MONEY")
      (word1 : word (split " " op) 1 = .ok receiver) :
      Concerned jvm st (.operation now i op) (some receiver)
  /-- The bidder of the last bid on the auction of `BID`. -/
  | outbid (now : Int64) (i : Int32) (op : String) (id : Int64) (r : AuctionRef) (last : BidEntity)
      (word0 : word (split " " op) 0 = .ok "BID") (word2 : longWord (split " " op) 2 = .ok id)
      (auction : st.bankRepo.findByAuctionID (some id) = some r)
      (standing : (st.bankRepo.auction r).getLastBid = some last) :
      Concerned jvm st (.operation now i op) last.username
  /-- The owner of the auction that `CLOSE_AUCTION` of a contract closes. -/
  | contractOwner (now : Int64) (i : Int32) (op : String) (www : JString) (id : Int64) (r : AuctionRef)
      (user : Action.onBehalfOf st i = some www)
      (word0 : word (split " " op) 0 = .ok "CLOSE_AUCTION")
      (word1 : longWord (split " " op) 1 = .ok id) (closes : Closes jvm (some id) www st.bankRepo r) :
      Concerned jvm st (.operation now i op) (st.bankRepo.auction r).ownerUsername

section Concerned

variable {jvm : Jvm} {st : BankService} {u : JString}

/-- An operation that a request asks for concerns the users of the request. -/
theorem concerned_of_request {command : Command} {r : LedgerRequest} {op : LedgerOperation}
    (hcommand : decodeOrdered command = .ok (.ledger r))
    (hasks : r.asks jvm st.bankRepo = some (.call op)) (hu : Concerns jvm st.bankRepo u op) :
    Concerned jvm st (.ordered command) u := by
  -- Each request names the accounts that it concerns, or the auction whose owner is paid.
  cases LedgerRequest.requested_of_asks hasks with
  | createMoney who original amount => exact hu ▸ .depositor command who _ hcommand
  | transferMoney sender receiver fromSaldo toSaldo fromAmount toAmount =>
    rcases hu with rfl | rfl
    · exact .sender command _ _ _ _ _ _ hcommand
    · exact .receiver command _ _ _ _ _ _ hcommand
  | createAuction who auctionID => exact hu.elim
  | closeAuction who auctionID =>
    obtain ⟨r, hcloses, rfl⟩ := hu
    exact .owner command who auctionID r hcommand hcloses

/-- An operation that an action asks for concerns the users of the action. -/
theorem concerned_of_asks {x : Action} {op : LedgerOperation} (hasks : x.asks jvm st = some (.call op))
    (hu : Concerns jvm st.bankRepo u op) : Concerned jvm st x u := by
  cases x with
  | ordered command =>
    simp only [Action.asks] at hasks
    split at hasks
    · rename_i r hr
      exact concerned_of_request hr hasks hu
    · cases hasks
  | unordered command => cases hasks
  | operation now i op' =>
    obtain ⟨www, call, hcall, hwww, hdispatched⟩ := Action.asks_operation hasks
    cases hcall
    -- The user that the operation is carried out for, the one that it names, or the one of the auction.
    cases hdispatched with
    | createMoney old amount name balance asked =>
      exact hu ▸ .executing now i op' _ www hwww name (.inl rfl)
    | transferMoney old toOld amount receiver name balance asked enough target toBalance =>
      rcases hu with rfl | rfl
      · exact .executing now i op' _ _ hwww name (.inr (.inl rfl))
      · exact .target now i op' receiver name target
    | createAuction name => exact hu.elim
    | createBid id amount name auction asked =>
      rcases hu with rfl | ⟨r, last, hr, hlast, rfl⟩
      · exact .executing now i op' _ _ hwww name (.inr (.inr rfl))
      · exact .outbid now i op' id r last name auction hr hlast
    | closeAution id name auction =>
      obtain ⟨r, hcloses, rfl⟩ := hu
      exact .contractOwner now i op' www id r hwww name auction hcloses

/-- An action changes the balance of a user only when it concerns the user. -/
theorem concerned_of_balance (h : Indexed st.bankRepo) (x : Action) {b : BankEntity}
    (user : st.bankRepo.findByUserName u = some b)
    (hne : balanceOf (x.run jvm st).bankRepo u ≠ balanceOf st.bankRepo u) : Concerned jvm st x u := by
  cases hasks : x.asks jvm st with
  | none =>
    rw [balanceOf_run, hasks] at hne
    exact (hne rfl).elim
  | some a =>
    cases a with
    | register c =>
      rw [balanceOf_run, hasks] at hne
      -- The new account has another name, since its own is free.
      have hname : c.userName ≠ u := by
        rintro rfl
        rw [Action.free_of_register hasks] at user
        cases user
      exact (hne ((balanceOf_newUserBankEntity st.bankRepo c u).trans (if_neg hname))).elim
    | call op => exact concerned_of_asks hasks (concerns_of_ne h hasks hne)

/-- A registration under a name that is taken asks for nothing. -/
theorem asks_of_registered {command : Command} {username : JString}
    {rest : Except JavaException (JString × JLong × Option (List JString))}
    (hcommand : decodeOrdered command = .ok (.ledger (.registerUser username rest)))
    (taken : (st.bankRepo.findByUserName username).isSome) :
    (Action.ordered command).asks jvm st = none := by
  obtain ⟨b, hb⟩ := Option.isSome_iff_exists.mp taken
  simp [Action.asks, hcommand, LedgerRequest.asks, hb]

end Concerned

/-- **Account isolation:** after every run, every action keeps every user under the user's own name,
with the password and the roles that the user had, and changes the balance of a user only if it
concerns the user; and a registration under a name that is taken changes nothing. -/
theorem account_isolation (jvm : Jvm) (xs : List Action) (x : Action) :
    let st := BankService.new.runAll jvm xs
    (∀ u b, st.bankRepo.findByUserName u = some b → b.userName = u ∧
      ∃ c, (x.run jvm st).bankRepo.findByUserName u = some c ∧ c.userName = u ∧
        c.password = b.password ∧ c.roles = b.roles ∧
        (c.amount ≠ b.amount → Concerned jvm st x u)) ∧
    ∀ command username rest, x = .ordered command →
      decodeOrdered command = .ok (.ledger (.registerUser username rest)) →
      (st.bankRepo.findByUserName username).isSome →
      ∃ v, (x.run jvm st).bankRepo = { st.bankRepo with version := v } := by
  intro st
  have hindexed : Indexed st.bankRepo := reached_indexed xs
  constructor
  · intro u b hb
    obtain ⟨c, hc, hsame⟩ := UsersKept.of_updates hindexed (x.run_updates st) u b hb
    refine ⟨BankRepository.userName_of_find hb, c, hc, BankRepository.userName_of_find hc,
      hsame.password, hsame.roles, fun hne => concerned_of_balance hindexed x hb ?_⟩
    simpa [balanceOf, hb, hc] using hne
  -- A registration under a taken name asks for nothing.
  · rintro command username rest rfl hcommand taken
    obtain ⟨v, hrun⟩ := (Action.ordered command).run_eq jvm st
    rw [asks_of_registered hcommand taken] at hrun
    exact ⟨v, hrun⟩

end NovaBank.Ledger
