import NovaBank.Java.Split
import NovaBank.Ledger.Answered
import NovaBank.Ledger.Counterparts

/-!
# Replies of correct replicas at the proxy

The replies of two correct replicas in the same state are compared by the first object, and one of them
is decoded by the `invoke` method of the request. `readable_iff`: the replies compare equal and the method
returns what the state holds exactly for the requests that `Readable` says.

What stands in the way are a `null` reply, for which most methods do not test, a `null` object, a
winning bid, whose class does not exist at the proxy, an account with a field that is `null` or with a
role that the constructor of the proxy drops, and a list that is not as long as its number says.
-/

namespace NovaBank.Ledger

open Java Replica Money Proxy

/-! ## What the state holds -/

section Held

variable {J : Type}

/-- The object of a reply, `null` without one. -/
def objectIn (value : Json → J) : Reply → Invoked J
  | some [.json (.object j)] => .object (value (.object j))
  | _ => .null

/-- The method returns what the state holds: the name that was registered or the refused value, the
object that the request has led to, the account, the balance, the elements in any order, or the winning
bid. `reply` is the result of an ordered request. -/
def Held (value : Json → J) (jvm : Jvm) (s : BankRepository) (reply : Reply) :
    ClientRequest → Invoked J → Prop
  | .createNew username _ _ _, v =>
    v = .text (if s.findByUserName username = none then JString.toText username else "")
  | .createMoney _ _ _, v | .transferMoney _ _ _ _ _ _, v | .createAuction _ _, v
  | .closeAuction _ _, v | .createBid _ _ _ _, v | .createSmartContract _ _, v =>
    v = objectIn value reply
  | .findUser username, v =>
    match s.findByUserName username with
    | none => v = .null
    | some b => ∃ u, v = .user u ∧ b.userName = some u.userName ∧ b.password = some u.password ∧
        b.amount = some u.amount ∧ b.getRoles = u.getRoles
  | .checkCurrentAmount username, v => v = (balanceOf s username).elim .null .amount
  | .list (.accounts myHash), v =>
    if BankService.accountsHash jvm s.users.values = myHash then v = .unchanged
    else ∃ list, v = .list list ∧
      list.Perm (s.users.values.map fun b => value (.object b.getJSONSecure))
  | .list l, v =>
    match elements s l with
    | none => v = .null
    | some es => ∃ list, v = .list list ∧ list.Perm (es.map value)
  | .checkWinnerBidClosedAuction auctionID, v =>
    match (s.findByAuctionID auctionID).bind s.checkWinnerBidFromAuction,
      s.findByClosedAuctionID auctionID with
    | some b, some _ => ∃ username timestamp,
        b.username = some username ∧ v = .bid b.id username b.amount timestamp
    | _, _ => v = .null

/-- The requests whose replies are read. -/
def Readable (jvm : Jvm) (s : BankRepository) : ClientRequest → Prop
  | .createNew username _ _ _ => s.findByUserName username ≠ none ∨ username ≠ none
  | .createMoney _ _ _ | .closeAuction _ _ | .checkCurrentAmount _ | .list (.accounts _) => True
  | .transferMoney sender _ receiver _ _ _ =>
    s.findByUserName sender ≠ none ∧ s.findByUserName receiver ≠ none
  | .createAuction who auctionID => s.findByUserName who ≠ none ∧ s.findByAuctionID auctionID = none
  | .createSmartContract who code =>
    s.findByUserName who ≠ none ∧ jvm.defineClass code.val ≠ .error .classNotFound
  | .findUser username => ∀ b, s.findByUserName username = some b →
      b.userName ≠ none ∧ b.password ≠ none ∧ b.amount ≠ none ∧
        ∃ roles, b.getRoles = "ROLE_USER" :: roles ∧
          ∀ r ∈ roles, Java.equalsIgnoreCase jvm.foldCase r "ROLE_USER" = false
  | .list l => elements s l ≠ none ∧ Counted s l
  -- No `switch` has a case for the one, and no class is there for the other.
  | .createBid _ _ _ _ | .checkWinnerBidClosedAuction _ => False

end Held

/-! ## The methods -/

section Methods

variable {J : Type} {w : Wire} {p : JsonLibrary J} {jvm : Jvm} {value : Json → J} {st : BankService}
  {encode : String → String} {reply : Reply} {message : Content}

/-- The method decodes a message to what the state holds. -/
def Decodes (w : Wire) (p : JsonLibrary J) (jvm : Jvm) (value : Json → J) (s : BankRepository)
    (reply : Reply) (q : ClientRequest) (message : Content) : Prop :=
  ∃ v, q.invoke w p jvm message = .ok v ∧ Held value jvm s reply q v

/-- A request whose method returns the object of the reply. -/
def returnsObject : ClientRequest → Bool
  | .createMoney _ _ _ | .transferMoney _ _ _ _ _ _ | .createAuction _ _ | .closeAuction _ _
  | .createBid _ _ _ _ | .createSmartContract _ _ => true
  | _ => false

/-- A reply that is `null` or one object. -/
def ObjectReply (reply : Reply) : Prop := reply = none ∨ ∃ j, reply = some [.json (.object j)]

/-- What `jsonReply` makes is a reply with one object. -/
theorem objectReply_of_map {x : Except JavaException JSONObject}
    (h : x.map BankService.jsonReply = .ok reply) : ObjectReply reply := by
  obtain ⟨j, -, rfl⟩ := map_eq_ok h
  exact .inr ⟨j, rfl⟩

/-- The reply to such a request is `null` or one object. -/
theorem objectReply_of_result {q : ClientRequest} (hq : returnsObject q = true)
    (h : (q.case encode).result jvm st = .ok reply) : ObjectReply reply := by
  -- One case for each request that is answered with an object.
  cases q with
  | createMoney who initialAmount finalAmount =>
    simp only [ClientRequest.case, Case.result, BankService.executeLedger,
      BankService.executeCreateMoney] at h
    cases hu : st.bankRepo.findByUserName who with
    | none =>
      simp only [hu] at h
      cases h
      exact .inl rfl
    | some b =>
      simp only [hu] at h
      cases hv : st.bankRepo.compareAmount who initialAmount with
      | error e =>
        simp only [hv] at h
        cases h
      | ok orig =>
        simp only [hv] at h
        split_ifs at h <;> cases h <;> exact .inr ⟨_, rfl⟩
  | transferMoney sender fromSaldo receiver toSaldo fromAmount toAmount =>
    simp only [ClientRequest.case, Case.result, BankService.executeLedger,
      BankService.executeTransferMoney] at h
    split at h
    · split at h
      · cases h
      · exact objectReply_of_map h
      · cases h
        exact .inr ⟨_, rfl⟩
    · cases h
      exact .inl rfl
  | createAuction who auctionID =>
    simp only [ClientRequest.case, Case.result, BankService.executeLedger,
      BankService.executeCreateAuction] at h
    split at h
    · cases h
      exact .inr ⟨_, rfl⟩
    · cases h
      exact .inl rfl
  | closeAuction who auctionID => exact objectReply_of_map h
  | createBid who auctionID bidID amount =>
    cases h
    exact .inl rfl
  | createSmartContract who code =>
    simp only [ClientRequest.case, Case.result, BankService.executeCreateSmartContract] at h
    split at h
    · cases h
      exact .inl rfl
    · split at h
      · split_ifs at h
        cases h
        exact .inr ⟨_, rfl⟩
      · cases h
        exact .inr ⟨_, rfl⟩
  | createNew _ _ _ _ | findUser _ | checkCurrentAmount _ | list _ | checkWinnerBidClosedAuction _ =>
    cases hq

/-- The method finds the object, but for a `null` reply it must have tested for it. -/
theorem decodes_object_iff {q : ClientRequest} (hq : returnsObject q = true)
    (hreply : ObjectReply reply) (printed : ReadsValues jvm p value reply)
    (hmessage : Delivered w jvm reply message) :
    Decodes w p jvm value st.bankRepo reply q message ↔ (reply = none → q.testsNull = true) := by
  have hinvoke : q.invoke w p jvm = w.decodeObject p q.testsNull := by
    cases q <;> first | rfl | cases hq
  have hheld : ∀ v, Held value jvm st.bankRepo reply q v ↔ v = objectIn value reply := by
    intro v
    cases q <;> first | rfl | cases hq
  simp only [Decodes, hheld, exists_eq_right]
  -- `null` is tested by some of the requests only, and read as an object by the others.
  rcases hreply with rfl | ⟨j, rfl⟩
  · have hrefused : (q.refused : Invoked J) = .null := by
      cases q <;> first | rfl | cases hq
    cases hmessage
    rw [ClientRequest.invoke_none, hrefused]
    cases q.testsNull <;> simp [objectIn]
  · rw [hinvoke, decodeObject_of_value printed hmessage rfl]
    simp [objectIn]

/-- The method of a registration, unless the name is `null`. -/
theorem decodes_createNew_iff {username password : JString} {plain : String} {amount : JLong}
    {roles : Option (List JString)}
    (h : (BankService.executeRegisterUser jvm username (.ok (password, amount, roles))
      st.bankRepo).1 = .ok reply) (hmessage : Delivered w jvm reply message) :
    Decodes w p jvm value st.bankRepo reply (.createNew username plain amount roles) message ↔
      st.bankRepo.findByUserName username ≠ none ∨ username ≠ none := by
  simp only [Decodes, Held, exists_eq_right, ClientRequest.invoke]
  cases hu : st.bankRepo.findByUserName username with
  | some b =>
    rw [executeRegisterUser_of_taken hu] at h
    cases h
    rw [invokeCreateNew_of_value hmessage rfl]
    simp
  | none =>
    rw [executeRegisterUser_of_free hu] at h
    obtain ⟨b, -, rfl⟩ := map_eq_ok h
    cases username with
    | some name =>
      rw [invokeCreateNew_of_value hmessage rfl]
      simp [JString.toText]
    | none =>
      -- `null.toString()`.
      obtain ⟨payload, rfl, hwritten⟩ := hmessage
      rw [Wire.invokeCreateNew, decodeReply_written hwritten]
      simp only [hwritten.readObject_zero (o := .null) (by simp)]
      simp [bind, Except.bind, textOf, JavaException.isStream]

/-- The constructor of the proxy drops the roles that are `ROLE_USER`. -/
theorem appendRoles_some (jvm : Jvm) (acc : String) (rs : List String) :
    BankEntity.appendRoles jvm acc (rs.map some) =
      .ok (rejoin roleSeparator acc
        (rs.filter fun r => !Java.equalsIgnoreCase jvm.foldCase r "ROLE_USER")) := by
  induction rs generalizing acc with
  | nil => rfl
  | cons r rs ih =>
    cases hr : Java.equalsIgnoreCase jvm.foldCase r "ROLE_USER" with
    | true => simp [BankEntity.appendRoles, hr, ih]
    | false =>
      simp only [List.map_cons, BankEntity.appendRoles, hr, ih, List.filter_cons, Bool.not_false,
        if_true, Bool.false_eq_true, if_false]
      rfl

/-- The roles that the proxy puts together are those of the account exactly when no role is dropped.
-/
theorem roles_kept_iff (jvm : Jvm) (roles : String) :
    split roleSeparator (rejoin roleSeparator "ROLE_USER" ((split roleSeparator roles).filter
        fun r => !Java.equalsIgnoreCase jvm.foldCase r "ROLE_USER")) = split roleSeparator roles ↔
      ∃ rest, split roleSeparator roles = "ROLE_USER" :: rest ∧
        ∀ r ∈ rest, Java.equalsIgnoreCase jvm.foldCase r "ROLE_USER" = false := by
  have hfirst : (!Java.equalsIgnoreCase jvm.foldCase "ROLE_USER" "ROLE_USER") = false := by
    simp [Java.equalsIgnoreCase]
  have hbegins : ∀ c ∈ "ROLE_USER".toList, roleSeparator.toList.head? ≠ some c := by
    simp [roleSeparator]
  rw [split_rejoin_filter_iff (by decide) (by decide) hbegins hfirst]
  simp only [Bool.not_eq_eq_eq_not, Bool.not_true]

/-- The account that the proxy builds from its JSON, when no field is missing. -/
theorem toUser_getJSON {b : BankEntity} (printed : ReadsValue jvm p value (.object b.getJSON)) :
    Wire.toUser p jvm (value (.object b.getJSON)) =
      match b.userName, b.password, b.amount with
      | some userName, some password, some amount =>
        .ok ⟨userName, password, amount, rejoin roleSeparator "ROLE_USER" (b.getRoles.filter
          fun r => !Java.equalsIgnoreCase jvm.foldCase r "ROLE_USER")⟩
      | _, _, _ => .error .other := by
  simp only [Wire.toUser, printed.2]
  obtain ⟨userName, password, amount, auctions, bids, roles⟩ := b
  -- A `null` field is left out of the object, and so reading it throws.
  cases userName with
  | none => cases password <;> cases amount <;> rfl
  | some userName =>
    cases password with
    | none => cases amount <;> rfl
    | some password =>
      cases amount with
      | none => rfl
      | some amount =>
        simp [BankEntity.getJSON, JSONObject.getString, JSONObject.getLong, JSONObject.get,
          JSONObject.put, JSONObject.empty, List.lookup_cons, BankEntity.getRoles, appendRoles_some,
          bind, Except.bind, pure, Except.pure]

/-- `invokeFindUser` for a user whom the replicas know. -/
theorem invokeFindUser_of_user {s : BankRepository} {username : JString} {b : BankEntity}
    (user : s.findByUserName username = some b)
    (h : BankService.answer jvm s (.findUser username) = .ok reply)
    (printed : ReadsValues jvm p value reply) (hmessage : Delivered w jvm reply message) :
    w.invokeFindUser p jvm message =
      match b.userName, b.password, b.amount with
      | some userName, some password, some amount =>
        .ok (.user ⟨userName, password, amount, rejoin roleSeparator "ROLE_USER" (b.getRoles.filter
          fun r => !Java.equalsIgnoreCase jvm.foldCase r "ROLE_USER")⟩)
      | _, _, _ => .error .other := by
  rw [BankService.answer_findUser, user] at h
  cases h
  obtain ⟨payload, rfl, hwritten⟩ := hmessage
  have hprinted : ReadsValue jvm p value (.object b.getJSON) := printed _ _ rfl (by simp)
  rw [Wire.invokeFindUser, decodeReply_written hwritten, readJSONObject_written hprinted hwritten]
  simp only [bind, Except.bind, toUser_getJSON hprinted]
  -- A field that is missing is an exception of `org.json`.
  cases b.userName with
  | none => rfl
  | some userName =>
    cases b.password with
    | none => rfl
    | some password => cases b.amount <;> rfl

/-- When the account of `FIND_USER` can be read. -/
theorem decodes_findUser_iff {username : JString}
    (h : BankService.answer jvm st.bankRepo (.findUser username) = .ok reply)
    (printed : ReadsValues jvm p value reply) (hmessage : Delivered w jvm reply message) :
    Decodes w p jvm value st.bankRepo reply (.findUser username) message ↔
      Readable jvm st.bankRepo (.findUser username) := by
  simp only [Decodes, Held, Readable, ClientRequest.invoke]
  cases hu : st.bankRepo.findByUserName username with
  | none =>
    rw [BankService.answer_findUser, hu] at h
    cases h
    cases hmessage
    exact iff_of_true ⟨.null, rfl, rfl⟩ (by simp)
  | some b =>
    simp only [invokeFindUser_of_user hu h printed hmessage, Option.some.injEq, forall_eq']
    -- Any of the three fields may be `null`.
    cases hname : b.userName with
    | none => simp
    | some userName =>
      cases hpassword : b.password with
      | none => simp
      | some password =>
        cases hamount : b.amount with
        | none => simp
        | some amount =>
          constructor
          · rintro ⟨v, hv, u, rfl, -, -, -, hroles⟩
            cases hv
            exact ⟨by simp, by simp, by simp, (roles_kept_iff jvm b.roles).mp hroles.symm⟩
          · rintro ⟨-, -, -, hroles⟩
            exact ⟨_, rfl, _, rfl, rfl, rfl, rfl, ((roles_kept_iff jvm b.roles).mpr hroles).symm⟩

/-- The amount of `CHECK_CURRENT_AMOUNT` can always be read. -/
theorem decodes_checkCurrentAmount {username : JString}
    (h : BankService.answer jvm st.bankRepo (.checkCurrentAmount username) = .ok reply)
    (hmessage : Delivered w jvm reply message) :
    Decodes w p jvm value st.bankRepo reply (.checkCurrentAmount username) message := by
  simp only [Decodes, Held, exists_eq_right, ClientRequest.invoke, balanceOf]
  rw [BankService.answer_checkCurrentAmount] at h
  -- An unknown user is a `null` reply, which this request does test.
  cases hu : st.bankRepo.findByUserName username with
  | none =>
    rw [hu] at h
    cases h
    exact invokeCheckCurrentAmount_of_value hmessage rfl
  | some b =>
    rw [hu, Option.elim_some] at h
    cases hv : b.amount with
    | none =>
      rw [hv] at h
      cases h
    | some v =>
      rw [hv] at h
      cases h
      simp only [Option.bind_some, hv]
      exact invokeCheckCurrentAmount_of_value hmessage rfl

/-- The list of all accounts can always be read. -/
theorem decodes_accounts {myHash : Int32}
    (h : BankService.answer jvm st.bankRepo .listAllBankAccounts = .ok reply)
    (printed : ReadsValues jvm p value reply) (hmessage : Delivered w jvm reply message) :
    Decodes w p jvm value st.bankRepo reply (.list (.accounts myHash)) message := by
  cases h
  simp only [Decodes, Held, ClientRequest.invoke, ← accountsHash_usersIterator]
  by_cases hsame : BankService.accountsHash jvm (st.bankRepo.usersIterator jvm) = myHash
  · rw [invokeListAllBankAccounts_of_value printed hmessage (if_neg (not_not.mpr hsame))]
    exact ⟨_, rfl, by simp [hsame, arrayOf]⟩
  · rw [invokeListAllBankAccounts_of_value printed hmessage (if_pos hsame)]
    refine ⟨_, rfl, ?_⟩
    simp only [hsame, if_false, arrayOf, Invoked.list.injEq, exists_eq_left', List.map_map]
    exact (inOrder_perm jvm st.bankRepo.users).map _

/-- A listing other than that of the accounts has no number when it has no elements. -/
theorem numberOf_eq_none {s : BankRepository} {l : Listing} (hl : ∀ myHash, l ≠ .accounts myHash)
    (h : elements s l = none) : numberOf jvm s l = none := by
  cases l with
  | accounts myHash => exact absurd rfl (hl myHash)
  | openedAuctions | closedAuctions => cases h
  | bidsFromAuction auctionID => simpa [elements, numberOf] using h
  | bidsFromUser who => simpa [elements, numberOf] using h

/-- The elements of a list that is there are all returned exactly when the number is theirs. -/
theorem decodes_list_iff (hindexed : Indexed st.bankRepo) {l : Listing}
    (hl : ∀ myHash, l ≠ .accounts myHash)
    (h : BankService.answer jvm st.bankRepo l.query = .ok reply)
    (printed : ReadsValues jvm p value reply) (hmessage : Delivered w jvm reply message) :
    Decodes w p jvm value st.bankRepo reply (.list l) message ↔
      elements st.bankRepo l ≠ none ∧ Counted st.bankRepo l := by
  cases hes : elements st.bankRepo l with
  | none =>
    -- The reply is `null`, for which the method does not test.
    obtain ⟨xs, hanswer⟩ := answer_number jvm st.bankRepo l
    rw [numberOf_eq_none hl hes, h] at hanswer
    cases hanswer
    cases hmessage
    have htests : (ClientRequest.list l).testsNull = false := by
      cases l <;> first | rfl | exact absurd rfl (hl _)
    simp [Decodes, ClientRequest.invoke_none, htests]
  | some es =>
    obtain ⟨n, js, hanswer, hperm, hcounted⟩ := answer_listing jvm hindexed hes
    rw [h] at hanswer
    cases hanswer
    obtain ⟨payload, rfl, hwritten⟩ := hmessage
    have hread : ∀ j ∈ js, p.object (jvm.text j) = .ok (value j) := by
      intro j hj
      have hprinted := printed _ j rfl (List.mem_cons_of_mem _ (List.mem_map_of_mem hj))
      rcases element_cases hes (hperm.mem_iff.mp hj) with ⟨o, rfl⟩ | ⟨a, rfl⟩
      · exact hprinted.1
      · exact hprinted
    have hheld : ∀ v, Held value jvm st.bankRepo
        (some (.int (Int32.ofNat n) :: js.map ReplyObject.json)) (.list l) v ↔
        ∃ list, v = .list list ∧ list.Perm (es.map value) := by
      intro v
      cases l with
      | accounts myHash => exact absurd rfl (hl myHash)
      | openedAuctions | closedAuctions | bidsFromAuction auctionID | bidsFromUser who =>
        simp only [Held, hes]
    simp only [Decodes, hheld, ClientRequest.invoke, Wire.invokeList,
      decode_elements hes hread hwritten, ← hcounted]
    rw [← take_perm_iff value hperm]
    split_ifs with hle
    · simp [Except.map, Decoded.toInvoked, hle]
    · simp [Except.map, Decoded.toInvoked, hle]

/-- A winner is never read: there is no test for a `null` reply, the text of a `null` bid is asked for,
and the class of a bid is not found. -/
theorem not_decodes_checkWinner {auctionID : JLong}
    (h : BankService.answer jvm st.bankRepo (.checkWinnerBidClosedAuction auctionID) = .ok reply)
    (hmessage : Delivered w jvm reply message) :
    ¬ Decodes w p jvm value st.bankRepo reply (.checkWinnerBidClosedAuction auctionID) message := by
  rintro ⟨v, hv, hheld⟩
  simp only [BankService.answer] at h
  split at h
  · rename_i r r' hr hclosed
    cases h
    obtain ⟨payload, rfl, hwritten⟩ := hmessage
    simp only [ClientRequest.invoke, Wire.invokeCheckWinnerBidClosedAuction] at hv
    rw [decodeReply_written hwritten] at hv
    have hread := hwritten.reads 0
    simp only [Held, hr, hclosed, Option.bind_some] at hheld
    -- A bid cannot be read by the client, and `null` has no text.
    cases hbid : st.bankRepo.checkWinnerBidFromAuction r with
    | none =>
      simp only [hbid, List.map_cons, List.getElem?_cons_zero, objectOf] at hread
      simp only [Wire.readJSONObject, hread, bind, Except.bind, textOf] at hv
      cases hv
    | some b =>
      simp only [hbid, List.map_cons, List.getElem?_cons_zero, objectOf] at hread
      simp only [Wire.readJSONObject, hread, bind, Except.bind] at hv
      cases hv
      simp only [hbid] at hheld
      obtain ⟨username, timestamp, -, hnull⟩ := hheld
      cases hnull
  · cases h
    cases hmessage
    cases hv

end Methods

/-! ## Both together -/

section Readable

variable {J : Type} {w : Wire} {p : JsonLibrary J} {jvm jvm' : Jvm} {value : Json → J}
  {st st' : BankService} {encode : String → String} {reply reply' : Reply} {q : ClientRequest}

/-- A request whose method returns something else than the object of the reply ends in no exception of
the streams. -/
theorem result_eq_ok (hq : returnsObject q = false)
    (h : (st.access jvm (q.access encode)).1 = .ok reply) :
    (q.case encode).result jvm st = .ok reply := by
  rw [reply_eq] at h
  rcases finished_eq_ok h with h | ⟨-, e, he, hstream⟩
  · exact h
  · exfalso
    -- None of these requests throws an exception of the stream, and so none becomes a `null` reply.
    cases q with
    | createNew username password amount roles =>
      simp only [ClientRequest.case, Case.result, BankService.executeLedger] at he
      cases hu : st.bankRepo.findByUserName username with
      | some b =>
        rw [executeRegisterUser_of_taken hu] at he
        cases he
      | none =>
        rw [executeRegisterUser_of_free hu] at he
        rcases new_cases jvm username (some (encode password)) amount roles with
          ⟨-, hnew⟩ | ⟨-, b, hnew⟩
        · rw [hnew] at he
          cases he
          cases hstream
        · rw [hnew] at he
          cases he
    | findUser username =>
      simp only [ClientRequest.case, Case.result, BankService.answer_findUser] at he
      cases he
    | checkCurrentAmount username =>
      simp only [ClientRequest.case, Case.result, BankService.answer_checkCurrentAmount] at he
      cases hu : st.bankRepo.findByUserName username with
      | none =>
        rw [hu] at he
        cases he
      | some b =>
        rw [hu, Option.elim_some] at he
        cases hv : b.amount with
        | none =>
          rw [hv] at he
          cases he
          cases hstream
        | some v =>
          rw [hv] at he
          cases he
    | list l =>
      obtain ⟨xs, hanswer⟩ := answer_number jvm st.bankRepo l
      have hanswer' := hanswer.symm.trans he
      cases hanswer'
    | checkWinnerBidClosedAuction auctionID =>
      simp only [ClientRequest.case, Case.result, BankService.answer] at he
      split at he <;> cases he
    | createMoney _ _ _ | transferMoney _ _ _ _ _ _ | createAuction _ _ | closeAuction _ _
    | createBid _ _ _ _ | createSmartContract _ _ => cases hq

/-- A reply that exists is `null` exactly for an ignored request. -/
theorem reply_eq_none_iff (hindexed : Indexed st.bankRepo)
    (h : (st.access jvm (q.access encode)).1 = .ok reply) :
    reply = none ↔ Ignored jvm st.bankRepo q := by
  have hcases := reply_cases jvm st hindexed encode q
  rw [reply_eq] at h
  -- The three kinds of replies exclude each other.
  by_cases hignored : Ignored jvm st.bankRepo q
  · have hnull := hcases.null hignored
    rw [h] at hnull
    cases hnull
    exact iff_of_true rfl hignored
  · have hreturns : ¬ Throws jvm st.bankRepo q := by
      intro hthrows
      obtain ⟨e, he⟩ := hcases.thrown hignored hthrows
      rw [h] at he
      cases he
    obtain ⟨os, hos⟩ := hcases.objects hignored hreturns
    rw [h] at hos
    cases hos
    exact iff_of_false (by simp) hignored

/-- The methods that return an object get a reply with one object. -/
theorem objectReply_of_access (hq : returnsObject q = true)
    (h : (st.access jvm (q.access encode)).1 = .ok reply) : ObjectReply reply := by
  rw [reply_eq] at h
  rcases finished_eq_ok h with h | ⟨hnull, -⟩
  · exact objectReply_of_result hq h
  · exact .inl hnull

/-- Among the methods that return the object of the reply, only that of `CREATE_MONEY` tests for a
`null` reply. -/
theorem readable_object_iff (hq : returnsObject q = true) :
    Readable jvm st.bankRepo q ↔ (Ignored jvm st.bankRepo q → q.testsNull = true) := by
  cases q with
  | createMoney _ _ _ => simp [Readable, ClientRequest.testsNull]
  | transferMoney _ _ _ _ _ _ => simp [Readable, Ignored, ClientRequest.testsNull]
  | createAuction _ _ => simp [Readable, Ignored, ClientRequest.testsNull]
  | closeAuction _ _ => simp [Readable, Ignored]
  | createBid _ _ _ _ => simp [Readable, Ignored, ClientRequest.testsNull]
  | createSmartContract _ _ => simp [Readable, Ignored, ClientRequest.testsNull]
  | createNew _ _ _ _ | findUser _ | checkCurrentAmount _ | list _ | checkWinnerBidClosedAuction _ =>
    cases hq

/-- The method returns what the state holds exactly for the requests that are readable. -/
theorem decodes_iff_readable (hindexed : Indexed st.bankRepo)
    (h : (st.access jvm (q.access encode)).1 = .ok reply) (printed : ReadsValues jvm p value reply)
    {message : Content} (hmessage : Delivered w jvm reply message) :
    Decodes w p jvm value st.bankRepo reply q message ↔ Readable jvm st.bankRepo q := by
  -- The requests with an object are read alike; the others have a reader of their own.
  by_cases hq : returnsObject q = true
  · rw [decodes_object_iff hq (objectReply_of_access hq h) printed hmessage,
      reply_eq_none_iff hindexed h, readable_object_iff hq]
  · have hresult := result_eq_ok (by simpa using hq) h
    cases q with
    | createNew username password amount roles => exact decodes_createNew_iff hresult hmessage
    | findUser username => exact decodes_findUser_iff hresult printed hmessage
    | checkCurrentAmount username =>
      exact iff_of_true (decodes_checkCurrentAmount hresult hmessage) trivial
    | list l =>
      cases l with
      | accounts myHash => exact iff_of_true (decodes_accounts hresult printed hmessage) trivial
      | openedAuctions | closedAuctions | bidsFromAuction auctionID | bidsFromUser who =>
        exact decodes_list_iff hindexed (by simp) hresult printed hmessage
    | checkWinnerBidClosedAuction auctionID =>
      exact iff_of_false (not_decodes_checkWinner hresult hmessage) fun h => h
    | createMoney _ _ _ | transferMoney _ _ _ _ _ _ | createAuction _ _ | closeAuction _ _
    | createBid _ _ _ _ | createSmartContract _ _ => exact absurd rfl hq

/-- A readable reply that is not `null` begins with a text or a number, unless it is a list. -/
theorem head_of_readable (hc : orderless (q.case encode) = true)
    (h : (st.access jvm (q.access encode)).1 = .ok reply) (hreadable : Readable jvm st.bankRepo q)
    {os : List ReplyObject} (hos : reply = some os) :
    ∃ x xs, os = x :: xs ∧ equals (objectOf jvm x) (objectOf jvm x) = .ok true := by
  subst hos
  -- The first object is a text or a number, which equals itself.
  by_cases hq : returnsObject q = true
  · rcases objectReply_of_access hq h with hnull | ⟨j, hj⟩
    · cases hnull
    · cases hj
      exact ⟨_, _, rfl, by simp [objectOf, equals]⟩
  · have hresult := result_eq_ok (by simpa using hq) h
    cases q with
    | createNew username password amount roles =>
      simp only [ClientRequest.case, Case.result, BankService.executeLedger] at hresult
      cases hu : st.bankRepo.findByUserName username with
      | some b =>
        rw [executeRegisterUser_of_taken hu] at hresult
        cases hresult
      | none =>
        rw [executeRegisterUser_of_free hu] at hresult
        obtain ⟨b, -, hb⟩ := map_eq_ok hresult
        cases hb
        simp only [Readable, hu, ne_eq, not_true_eq_false, false_or] at hreadable
        obtain ⟨name, rfl⟩ := Option.ne_none_iff_exists'.mp hreadable
        exact ⟨_, _, rfl, by simp [objectOf, equals]⟩
    | findUser username =>
      simp only [ClientRequest.case, Case.result, BankService.answer_findUser] at hresult
      obtain ⟨b, -, rfl⟩ := Option.map_eq_some_iff.mp (Except.ok.inj hresult)
      exact ⟨_, _, rfl, by simp [objectOf, equals]⟩
    | checkCurrentAmount username =>
      simp only [ClientRequest.case, Case.result, BankService.answer_checkCurrentAmount] at hresult
      cases hu : st.bankRepo.findByUserName username with
      | none =>
        rw [hu] at hresult
        cases hresult
      | some b =>
        rw [hu, Option.elim_some] at hresult
        cases hv : b.amount with
        | none =>
          rw [hv] at hresult
          cases hresult
        | some v =>
          rw [hv] at hresult
          cases hresult
          exact ⟨_, _, rfl, by simp [objectOf, equals]⟩
    | list l => cases l <;> cases hc
    | checkWinnerBidClosedAuction auctionID => cases hc
    | createMoney _ _ _ | transferMoney _ _ _ _ _ _ | createAuction _ _ | closeAuction _ _
    | createBid _ _ _ _ | createSmartContract _ _ => exact absurd rfl hq

variable {i i' : ℕ} {c c' : Content}

/-- Replies with a list begin with the same number. -/
theorem compare_list (same : Counterparts jvm jvm' st st') {l : Listing}
    (h : BankService.answer jvm st.bankRepo l.query = .ok reply)
    (h' : BankService.answer jvm' st'.bankRepo l.query = .ok reply') (hc : Sends w jvm i reply c)
    (hc' : Sends w jvm' i' reply' c') : w.compare c c' = .ok 0 := by
  obtain ⟨xs, hxs⟩ := answer_number jvm st.bankRepo l
  obtain ⟨xs', hxs'⟩ := answer_number jvm' st'.bankRepo l
  rw [h] at hxs
  rw [h', ← same.numberOf_eq] at hxs'
  cases hxs
  cases hxs'
  -- The number comes first, and it is the same on both replicas.
  cases hnumber : numberOf jvm st.bankRepo l with
  | none =>
    rw [hnumber] at hc hc'
    cases hc
    cases hc'
    rfl
  | some n =>
    rw [hnumber] at hc hc'
    exact compare_of_heads hc hc' rfl rfl (by simp [objectOf, equals])

/-- The replies to a readable request compare equal. -/
theorem compare_of_readable (same : Counterparts jvm jvm' st st')
    (h : (st.access jvm (q.access encode)).1 = .ok reply)
    (h' : (st'.access jvm' (q.access encode)).1 = .ok reply') (hc : Sends w jvm i reply c)
    (hc' : Sends w jvm' i' reply' c') (hreadable : Readable jvm st.bankRepo q) :
    w.compare c c' = .ok 0 := by
  -- The listings depend on the order of the maps, but not their first objects.
  by_cases hcase : orderless (q.case encode) = true
  · have hsame : reply = reply' := by
      have hfinished := h.symm.trans (reply_eq jvm st encode q)
      rw [same.result_eq hcase, ← reply_eq, h'] at hfinished
      exact Except.ok.inj hfinished
    subst hsame
    exact compare_of_same hc hc' same.text fun os hos => head_of_readable hcase h hreadable hos
  · cases q with
    | list l => exact compare_list same (result_eq_ok rfl h) (result_eq_ok rfl h') hc hc'
    | checkWinnerBidClosedAuction auctionID => exact hreadable.elim
    | createNew _ _ _ _ | createMoney _ _ _ | transferMoney _ _ _ _ _ _ | createAuction _ _
    | closeAuction _ _ | createBid _ _ _ _ | createSmartContract _ _ | findUser _
    | checkCurrentAmount _ => exact absurd rfl hcase

end Readable

/-- **Which replies of correct replicas agree and are read:** two correct replicas that are the same up
to the times of bids and the order of their hash maps reply to the request of an `invoke` method, and
`org.json` reads what it has printed. The comparator finds the replies equal and the method returns what
the state holds exactly when the request is readable. -/
theorem readable_iff {J : Type} (w : Wire) (p : JsonLibrary J) (jvm jvm' : Jvm) (value : Json → J)
    (encode : String → String) (st st' : BankService) (same : Counterparts jvm jvm' st st')
    (q : ClientRequest) (reply reply' : Reply)
    (h : (st.access jvm (q.access encode)).1 = .ok reply)
    (h' : (st'.access jvm' (q.access encode)).1 = .ok reply') (printed : ReadsValues jvm p value reply)
    (i i' : ℕ) (c c' : Content) (hc : Sends w jvm i reply c) (hc' : Sends w jvm' i' reply' c') :
    (w.compare c c' = .ok 0 ∧ ∃ message v, messageOf c = .ok message ∧
        q.invoke w p jvm message = .ok v ∧ Held value jvm st.bankRepo reply q v) ↔
      Readable jvm st.bankRepo q := by
  obtain ⟨message, hmessage, hdelivered⟩ := delivered_of_sends hc
  have hdecodes := decodes_iff_readable same.repo.left h printed hdelivered
  -- What is read by the client is settled by the reply of one replica.
  constructor
  · rintro ⟨-, message', v, hmessage', hinvoke, hheld⟩
    obtain rfl : message = message' := Except.ok.inj (hmessage.symm.trans hmessage')
    exact hdecodes.mp ⟨v, hinvoke, hheld⟩
  · intro hreadable
    obtain ⟨v, hinvoke, hheld⟩ := hdecodes.mpr hreadable
    exact ⟨compare_of_readable same h h' hc hc' hreadable, message, v, hmessage, hinvoke, hheld⟩

/-! ## Two opened auctions -/

/-- The text of an opened auction of `alice` without bids. -/
def openedText (id : String) : String :=
  "\x7b\"ownerUsername\":\"alice\",\"bids\":\x7b\x7d,\"id\":" ++ id ++ ",\"isClosed\":false\x7d"

/-- An opened auction of `alice` without bids. -/
def openedJson (id : Int64) : Json := .auction (AuctionEntity.new (some id) (some "alice"))

/-- A machine that prints such auctions and iterates in the order of insertion. -/
def firstJvm : Jvm :=
  { auctionJvm with
    text := fun j => match j with
      | .auction a => openedText (JLong.toText a.id)
      | _ => auctionText }

/-- A machine that iterates in the opposite order. -/
def secondJvm : Jvm :=
  { firstJvm with order := List.reverse, order_perm := List.reverse_perm }

/-- A library that reads the two auctions. -/
def openedLibrary : JsonLibrary Json where
  object text :=
    if text = openedText "1" then .ok (openedJson 1)
    else if text = openedText "2" then .ok (openedJson 2)
    else .error .other
  array _ := .error .other
  getString j key :=
    match j with
    | .object o => o.getString key
    | _ => .error .other
  getLong j key :=
    match j with
    | .object o => o.getLong key
    | _ => .error .other

/-- `alice` opens the auctions 1 and 2. -/
def twoOpened : List Action := openedRun ++ [.ordered (createAuction (some "alice") (some 2))]

/-- The bytes of a list of two auctions. -/
def twoPayload (first second : String) : Bytes :=
  streamHeader ++ (integerBytes 2 ++ (stringBytes (openedText first) ++ stringBytes (openedText second)))

/-- The replicas list the two auctions in opposite orders. Their replies compare equal, and the method
returns both auctions. -/
theorem readable_two_opened :
    javaWire.compare (some (signed 0 (twoPayload "1" "2"))) (some (signed 1 (twoPayload "2" "1"))) =
        .ok 0 ∧
      ∃ message v, messageOf (some (signed 0 (twoPayload "1" "2"))) = .ok message ∧
        (ClientRequest.list .openedAuctions).invoke javaWire openedLibrary firstJvm message = .ok v ∧
        Held id firstJvm (reached firstJvm twoOpened) (some [.int 2, .json (openedJson 1),
          .json (openedJson 2)]) (.list .openedAuctions) v := by
  -- The two machines list the auctions in opposite orders.
  have hsame : Counterparts firstJvm secondJvm (BankService.new.runAll firstJvm twoOpened)
      (BankService.new.runAll secondJvm twoOpened) :=
    ⟨rfl, rfl, rfl, reached_indexed twoOpened, reached_indexed twoOpened, by decide⟩
  have hprinted : ReadsValues firstJvm openedLibrary id
      (some [.int 2, .json (openedJson 1), .json (openedJson 2)]) := by
    rintro os j hos hj
    cases hos
    simp only [List.mem_cons, reduceCtorEq, ReplyObject.json.injEq, List.not_mem_nil, or_false,
      false_or] at hj
    have hone : openedLibrary.object (firstJvm.text (openedJson 1)) = .ok (openedJson 1) := by decide
    have htwo : openedLibrary.object (firstJvm.text (openedJson 2)) = .ok (openedJson 2) := by decide
    rcases hj with rfl | rfl
    · exact hone
    · exact htwo
  have hcounted : (reached firstJvm twoOpened).openedAuctions.size < 2^31 := by decide
  exact (readable_iff javaWire openedLibrary firstJvm secondJvm id id _ _ hsame (.list .openedAuctions)
    (some [.int 2, .json (openedJson 1), .json (openedJson 2)])
    (some [.int 2, .json (openedJson 2), .json (openedJson 1)]) (by decide) (by decide) hprinted 0 1
    _ _ (sends_javaWire 0 3 (by decide +kernel)) (sends_javaWire 1 3 (by decide +kernel))).mpr
    ⟨by decide, hcounted⟩

/-! ## A winner -/

/-- The request for the winner of the auction 1. -/
def winnerOfOne : ClientRequest := .checkWinnerBidClosedAuction (some 1)

/-- The bytes of a `null` object. -/
def nullPayload : Bytes := streamHeader ++ [0x70]

/-- **No winner is not read:** the auction 1 is closed without a bid, and so the replicas write `null` for
its winner. The comparator and the method throw a `NullPointerException`. -/
theorem null_winner_not_read :
    Counterparts listedJvm listedJvm (BankService.new.runAll listedJvm closedRun)
        (BankService.new.runAll listedJvm closedRun) ∧
      ((BankService.new.runAll listedJvm closedRun).access listedJvm (winnerOfOne.access id)).1 =
        .ok (some [.bid none]) ∧
      Sends javaWire listedJvm 0 (some [.bid none]) (some (signed 0 nullPayload)) ∧
      Sends javaWire listedJvm 1 (some [.bid none]) (some (signed 1 nullPayload)) ∧
      javaWire.compare (some (signed 0 nullPayload)) (some (signed 1 nullPayload)) =
        .error .nullPointer ∧
      messageOf (some (signed 0 nullPayload)) = .ok (some nullPayload) ∧
      winnerOfOne.invoke javaWire openedLibrary listedJvm (some nullPayload) = .error .nullPointer := by
  -- The last bid is looked up by position, where this auction has none.
  have hindexed : Indexed (reached listedJvm closedRun) := reached_indexed closedRun
  exact ⟨⟨rfl, rfl, rfl, hindexed, hindexed, rfl⟩, by decide, sends_javaWire 0 1 (by decide +kernel),
    sends_javaWire 1 1 (by decide +kernel), by decide +kernel, by decide +kernel, by decide +kernel⟩

end NovaBank.Ledger
