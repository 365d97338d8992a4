import NovaBank.Java.Reading
import NovaBank.Ledger.Refusals

/-!
# Which commands have an effect

A replica executes whatever bytes it is sent. `decodeOrdered_iff`: it reads a request with all its fields
from a command exactly when the command begins with what a proxy writes for that request, where the name of
the request may be the text of any object, and anything may follow.

`command_effect`: so a command either changes nothing but the version, or does exactly what the command of
a proxy does with which it begins.
-/

namespace NovaBank.Ledger

open Java Replica Money Proxy

/-- A request with all its fields, and the command that a proxy writes for it. -/
inductive WrittenFor : Request → Command → Prop where
  | registerUser (username password : JString) (amount : JLong) (roles : Option (List JString)) :
    WrittenFor (.ledger (.registerUser username (.ok (password, amount, roles))))
      (registerUser username password amount roles)
  | createMoney (who : JString) (initialAmount finalAmount : Int64) :
    WrittenFor (.ledger (.createMoney who (.ok (initialAmount, finalAmount))))
      (createMoney who initialAmount finalAmount)
  | transferMoney (sender : JString) (fromSaldo : Int64) (receiver : JString)
      (toSaldo fromAmount toAmount : Int64) :
    WrittenFor (.ledger (.transferMoney sender fromSaldo receiver toSaldo fromAmount toAmount))
      (transferMoney sender fromSaldo receiver toSaldo fromAmount toAmount)
  | createAuction (who : JString) (auctionID : JLong) :
    WrittenFor (.ledger (.createAuction who auctionID)) (createAuction who auctionID)
  | closeAuction (who : JString) (auctionID : JLong) :
    WrittenFor (.ledger (.closeAuction who auctionID)) (closeAuction who auctionID)
  /-- An array has fewer than `2^31` elements. -/
  | createSmartContract (who : JString) (code : List UInt8) (size : code.length < 2^31) :
    WrittenFor (.createSmartContract who code) (createSmartContract who code)

/-- The command `c` begins like `written`, with an object that prints the name of the request in the place
of the name. -/
def Begins (written c : Command) : Prop :=
  ∃ o rest, written.head? = some (typeObject (JObject.toText o)) ∧
    c = .object o :: (written.tail ++ rest)

/-- A command of a proxy begins like itself. -/
theorem WrittenFor.begins {r : Request} {written : Command} (h : WrittenFor r written) :
    Begins written written := by
  cases h <;> exact ⟨.str _, [], rfl, by rw [List.append_nil]; rfl⟩

/-! ## Reading -/

section Reading

variable {c c' : Command} {name : String}

/-- The type of a command is the text of its first object. -/
theorem readType_object {o : JObject} (ho : JObject.toText o = name) (hname : name ≠ "") :
    readType (.object o :: c) = .ok (name, c) := by
  have hnull : o ≠ .null := by
    rintro rfl
    exact hname ho.symm
  simp [readType, readObject, hnull, ho, bind, Except.bind, pure, Except.pure]

/-- A command whose type is read begins with an object of that text. -/
theorem of_readType (h : readType c = .ok (name, c')) :
    ∃ o, JObject.toText o = name ∧ c = .object o :: c' := by
  obtain ⟨⟨o, s⟩, hread, h⟩ := bind_eq_ok h
  have hc := readObject_eq_ok_iff.mp hread
  dsimp only at h
  split_ifs at h
  cases h
  exact ⟨o, rfl, hc⟩

/-- A cast that a writer undoes. -/
theorem of_readAs {α : Type} {cast : JObject → Except JavaException α} {write : α → Token JObject}
    (hcast : ∀ o a, cast o = .ok a → Token.object o = write a) {a : α}
    (h : readAs cast c = .ok (a, c')) : c = write a :: c' := by
  obtain ⟨⟨o, s⟩, hread, h⟩ := bind_eq_ok h
  obtain ⟨a', ha', h⟩ := bind_eq_ok h
  cases h
  rw [readObject_eq_ok_iff.mp hread, hcast o a ha']

/-- A string is read from an object with it. -/
theorem of_readAs_asString {s : JString} (h : readAs JObject.asString c = .ok (s, c')) :
    c = stringObject s :: c' := by
  refine of_readAs (fun o a ho => ?_) h
  cases o <;> cases ho <;> rfl

/-- A `Long` is read from an object with it. -/
theorem of_readAs_asLong {v : JLong} (h : readAs JObject.asLong c = .ok (v, c')) :
    c = longObject v :: c' := by
  refine of_readAs (fun o a ho => ?_) h
  cases o <;> cases ho <;> rfl

/-- A list of strings is read from an object with it. -/
theorem of_readAs_asStrings {l : Option (List JString)}
    (h : readAs JObject.asStrings c = .ok (l, c')) : c = stringsObject l :: c' := by
  refine of_readAs (fun o a ho => ?_) h
  cases o <;> cases ho <;> rfl

/-- The arguments of a registration stand in the command one after the other. -/
theorem of_readRegistration {password : JString} {amount : JLong} {roles : Option (List JString)}
    (h : readRegistration c = .ok (password, amount, roles)) :
    ∃ rest, c = stringObject password :: longObject amount :: stringsObject roles :: rest := by
  obtain ⟨⟨password', c₁⟩, hpassword, h⟩ := bind_eq_ok h
  obtain ⟨⟨amount', c₂⟩, hamount, h⟩ := bind_eq_ok h
  obtain ⟨⟨roles', c₃⟩, hroles, h⟩ := bind_eq_ok h
  cases h
  rw [of_readAs_asString hpassword, of_readAs_asLong hamount, of_readAs_asStrings hroles]
  exact ⟨c₃, rfl⟩

/-- So do those of a deposit, as bytes. -/
theorem of_readAmounts {original amount : Int64} (h : readAmounts c = .ok (original, amount)) :
    ∃ rest, c = writeLong original ++ writeLong amount ++ rest := by
  obtain ⟨⟨original', c₁⟩, horiginal, h⟩ := bind_eq_ok h
  obtain ⟨⟨amount', c₂⟩, hamount, h⟩ := bind_eq_ok h
  cases h
  rw [readLong_eq_ok_iff.mp horiginal, readLong_eq_ok_iff.mp hamount]
  exact ⟨c₂, by rw [List.append_assoc]⟩

/-- A transfer is read from a command that begins like the one that the client library writes. -/
theorem of_readTransfer {r : LedgerRequest} (h : readTransfer c = .ok r) :
    ∃ sender fromSaldo receiver toSaldo fromAmount toAmount, ∃ rest : Command,
      r = .transferMoney sender fromSaldo receiver toSaldo fromAmount toAmount ∧
      c = (transferMoney sender fromSaldo receiver toSaldo fromAmount toAmount).tail ++ rest := by
  -- The fields are read in the order in which they are written.
  obtain ⟨⟨sender, c₁⟩, hsender, h⟩ := bind_eq_ok h
  obtain ⟨⟨fromSaldo, c₂⟩, hfromSaldo, h⟩ := bind_eq_ok h
  obtain ⟨⟨receiver, c₃⟩, hreceiver, h⟩ := bind_eq_ok h
  obtain ⟨⟨toSaldo, c₄⟩, htoSaldo, h⟩ := bind_eq_ok h
  obtain ⟨⟨fromAmount, c₅⟩, hfromAmount, h⟩ := bind_eq_ok h
  obtain ⟨⟨toAmount, c₆⟩, htoAmount, h⟩ := bind_eq_ok h
  cases h
  refine ⟨sender, fromSaldo, receiver, toSaldo, fromAmount, toAmount, c₆, rfl, ?_⟩
  rw [of_readAs_asString hsender, readLong_eq_ok_iff.mp hfromSaldo, of_readAs_asString hreceiver,
    readLong_eq_ok_iff.mp htoSaldo, readLong_eq_ok_iff.mp hfromAmount,
    readLong_eq_ok_iff.mp htoAmount]
  simp [transferMoney]

/-- A user and an auction are read from two objects. -/
theorem of_readUserAndAuction {who : JString} {auctionID : JLong}
    (h : readUserAndAuction c = .ok (who, auctionID)) :
    ∃ rest, c = stringObject who :: longObject auctionID :: rest := by
  obtain ⟨⟨who', c₁⟩, hwho, h⟩ := bind_eq_ok h
  obtain ⟨⟨auctionID', c₂⟩, hauction, h⟩ := bind_eq_ok h
  cases h
  rw [of_readAs_asString hwho, of_readAs_asLong hauction]
  exact ⟨c₂, rfl⟩

/-- An upload is read from a command that begins like the one that the client library writes. -/
theorem of_readContract {r : Request} (h : readContract c = .ok r) :
    ∃ who code, ∃ rest : Command, r = .createSmartContract who code ∧ code.length < 2^31 ∧
      c = (createSmartContract who code).tail ++ rest := by
  obtain ⟨⟨who, c₁⟩, hwho, h⟩ := bind_eq_ok h
  obtain ⟨⟨size, c₂⟩, hsize, h⟩ := bind_eq_ok h
  dsimp only at h
  split_ifs at h with hnegative
  · cases h
  · obtain ⟨⟨code, c₃⟩, hcode, h⟩ := bind_eq_ok h
    cases h
    obtain ⟨hlength, hc₂⟩ := readFully_eq_ok_iff.mp hcode
    -- The size was not negative, so it is the length of the code that is read.
    have hnat : (size.toNatClampNeg : ℤ) = size.toInt := by
      rw [Int32.lt_iff_toInt_lt, Int32.toInt_zero] at hnegative
      exact Int.toNat_of_nonneg (not_lt.mp hnegative)
    have hlt : code.length < 2^31 := by
      have hsize := size.toInt_lt
      omega
    have hof : Int32.ofNat code.length = size := by
      apply Int32.toInt_inj.mp
      rw [Int32.toInt_ofNat_of_lt hlt, hlength, hnat]
    refine ⟨who, code, c₃, rfl, hlt, ?_⟩
    rw [of_readAs_asString hwho, readInt_eq_ok_iff.mp hsize, hc₂, ← hof]
    simp [createSmartContract]

/-- A request that is read has all its fields in the command, or its fields after the name of the user are
not read. -/
theorem of_decodeOrdered {r : Request} (h : decodeOrdered c = .ok r) :
    (∃ written, WrittenFor r written ∧ Begins written c) ∨
      (∃ username e, r = .ledger (.registerUser username (.error e))) ∨
      (∃ who e, r = .ledger (.createMoney who (.error e))) ∨ r = .other := by
  obtain ⟨⟨name, c₁⟩, htype, h⟩ := bind_eq_ok h
  obtain ⟨o, ho, hc⟩ := of_readType htype
  dsimp only at h
  -- One case for each type; two of them keep an exception of their last fields for later.
  split_ifs at h with hregister hmoney htransfer hcreate hclose hcontract
  · obtain ⟨⟨username, c₂⟩, husername, h⟩ := bind_eq_ok h
    cases h
    rcases hrest : readRegistration c₂ with e | ⟨password, amount, roles⟩
    · exact .inr (.inl ⟨username, e, rfl⟩)
    · obtain ⟨rest, rfl⟩ := of_readRegistration hrest
      exact .inl ⟨_, .registerUser username password amount roles, o, rest,
        by rw [ho, hregister]; rfl, by rw [hc, of_readAs_asString husername]; rfl⟩
  · obtain ⟨⟨who, c₂⟩, hwho, h⟩ := bind_eq_ok h
    cases h
    rcases hrest : readAmounts c₂ with e | ⟨original, amount⟩
    · exact .inr (.inr (.inl ⟨who, e, rfl⟩))
    · obtain ⟨rest, rfl⟩ := of_readAmounts hrest
      exact .inl ⟨_, .createMoney who original amount, o, rest,
        by rw [ho, hmoney]; rfl, by rw [hc, of_readAs_asString hwho]; rfl⟩
  · obtain ⟨r', hr', h⟩ := bind_eq_ok h
    cases h
    obtain ⟨sender, fromSaldo, receiver, toSaldo, fromAmount, toAmount, rest, rfl, rfl⟩ :=
      of_readTransfer hr'
    exact .inl ⟨_, .transferMoney sender fromSaldo receiver toSaldo fromAmount toAmount, o, rest,
      by rw [ho, htransfer]; rfl, hc⟩
  · obtain ⟨⟨who, auctionID⟩, hfields, h⟩ := bind_eq_ok h
    cases h
    obtain ⟨rest, rfl⟩ := of_readUserAndAuction hfields
    exact .inl ⟨_, .createAuction who auctionID, o, rest, by rw [ho, hcreate]; rfl, hc⟩
  · obtain ⟨⟨who, auctionID⟩, hfields, h⟩ := bind_eq_ok h
    cases h
    obtain ⟨rest, rfl⟩ := of_readUserAndAuction hfields
    exact .inl ⟨_, .closeAuction who auctionID, o, rest, by rw [ho, hclose]; rfl, hc⟩
  · obtain ⟨who, code, rest, rfl, hsize, rfl⟩ := of_readContract h
    exact .inl ⟨_, .createSmartContract who code hsize, o, rest, by rw [ho, hcontract]; rfl, hc⟩
  · cases h
    exact .inr (.inr (.inr rfl))

/-- What follows the fields is not read. -/
theorem decodeOrdered_of_begins {r : Request} {written : Command} (h : WrittenFor r written)
    (hbegins : Begins written c) : decodeOrdered c = .ok r := by
  obtain ⟨o, rest, hname, rfl⟩ := hbegins
  -- One case for each request, whatever follows it in the stream.
  cases h with
  | registerUser username password amount roles =>
    have ho : JObject.toText o = "REGISTER_USER" := by simpa [registerUser, typeObject] using hname.symm
    simp [decodeOrdered, readType_object ho, registerUser, readRegistration, bind, Except.bind, pure,
      Except.pure]
  | createMoney who initialAmount finalAmount =>
    have ho : JObject.toText o = "CREATE_MONEY" := by simpa [createMoney, typeObject] using hname.symm
    simp [decodeOrdered, readType_object ho, createMoney, readAmounts, bind, Except.bind, pure,
      Except.pure]
  | transferMoney sender fromSaldo receiver toSaldo fromAmount toAmount =>
    have ho : JObject.toText o = "TRANSFER_MONEY" := by
      simpa [transferMoney, typeObject] using hname.symm
    simp [decodeOrdered, readType_object ho, transferMoney, readTransfer, bind, Except.bind, pure,
      Except.pure]
  | createAuction who auctionID =>
    have ho : JObject.toText o = "CREATE_AUCTION" := by
      simpa [createAuction, typeObject] using hname.symm
    simp [decodeOrdered, readType_object ho, createAuction, readUserAndAuction, bind, Except.bind, pure,
      Except.pure]
  | closeAuction who auctionID =>
    have ho : JObject.toText o = "CLOSE_AUCTION" := by simpa [closeAuction, typeObject] using hname.symm
    simp [decodeOrdered, readType_object ho, closeAuction, readUserAndAuction, bind, Except.bind, pure,
      Except.pure]
  | createSmartContract who code size =>
    have ho : JObject.toText o = "CREATE_SMART_CONTRACT" := by
      simpa [createSmartContract, typeObject] using hname.symm
    -- The length fits into an integer, and so it is read back as it is.
    have hlength : (Int32.ofNat code.length).toNatClampNeg = code.length :=
      Int32.toNatClampNeg_ofNat_of_lt size
    have hsize : ¬ Int32.ofNat code.length < 0 := by
      rw [Int32.lt_iff_toInt_lt, Int32.toInt_ofNat_of_lt size, Int32.toInt_zero]
      omega
    simp [decodeOrdered, readType_object ho, createSmartContract, readContract, hsize, hlength, bind,
      Except.bind, pure, Except.pure]

end Reading

/-- **A command is read as a request exactly when it is one:** a replica reads a request with all its
fields from a command exactly when the command begins like that of a proxy for this request. -/
theorem decodeOrdered_iff {r : Request} {written : Command} (h : WrittenFor r written) (c : Command) :
    decodeOrdered c = .ok r ↔ Begins written c := by
  constructor
  · intro hdecode
    rcases of_decodeOrdered hdecode with ⟨written', h', hbegins⟩ | ⟨_, _, rfl⟩ | ⟨_, _, rfl⟩ | rfl
    · obtain rfl : written = written' := by cases h <;> cases h' <;> rfl
      exact hbegins
    all_goals cases h
  · exact decodeOrdered_of_begins h

/-- A command with a byte more is read as the same request. -/
theorem decodeOrdered_closeAuction_concat :
    decodeOrdered (closeAuction (some "bob") (some 7) ++ [.byte 0]) =
      .ok (.ledger (.closeAuction (some "bob") (some 7))) :=
  (decodeOrdered_iff (.closeAuction (some "bob") (some 7)) _).mpr ⟨.str "CLOSE_AUCTION", [.byte 0], rfl, rfl⟩

/-- **Which commands have an effect:** whatever bytes a replica is sent in whatever state, it changes
nothing but its version, or the bytes begin like the command of a proxy for some request, and the replica
answers and does exactly what it does for that command. -/
theorem command_effect (jvm : Jvm) (st : BankService) (c : Command) :
    (Unchanged st.bankRepo (st.appExecuteOrdered jvm c).2.bankRepo ∧
      (st.appExecuteOrdered jvm c).2.sR = st.sR) ∨
    ∃ r written, WrittenFor r written ∧ Begins written c ∧
      st.appExecuteOrdered jvm c = st.appExecuteOrdered jvm written := by
  cases hc : decodeOrdered c with
  | error e =>
    left
    simp only [BankService.appExecuteOrdered, hc, unchanged_finish_iff, and_true]
    exact ⟨_, rfl⟩
  | ok r =>
    rcases of_decodeOrdered hc with ⟨written, hwritten, hbegins⟩ | ⟨username, e, rfl⟩ | ⟨who, e, rfl⟩ |
      rfl
    · refine .inr ⟨r, written, hwritten, hbegins, ?_⟩
      have hself := decodeOrdered_of_begins hwritten hwritten.begins
      rw [BankService.appExecuteOrdered, BankService.appExecuteOrdered, hc, hself]
      -- Only a request of another type would be read again.
      cases hwritten <;> rfl
    · left
      simp only [BankService.appExecuteOrdered, hc, unchanged_finish_iff, and_true]
      have hsame : (BankService.executeLedger jvm (.registerUser username (.error e))
          st.bankRepo).2 = st.bankRepo := by
        simp only [BankService.executeLedger, BankService.executeRegisterUser]
        cases st.bankRepo.findByUserName username <;> rfl
      exact ⟨_, hsame⟩
    · left
      simp only [BankService.appExecuteOrdered, hc, unchanged_finish_iff, and_true]
      have hsame : (BankService.executeLedger jvm (.createMoney who (.error e))
          st.bankRepo).2 = st.bankRepo := by
        simp only [BankService.executeLedger, BankService.executeCreateMoney]
        cases st.bankRepo.findByUserName who <;> rfl
      exact ⟨_, hsame⟩
    · left
      simp only [BankService.appExecuteOrdered, hc, BankService.appExecuteUnordered,
        unchanged_finish_iff, and_true]
      exact ⟨_, rfl⟩

end NovaBank.Ledger
