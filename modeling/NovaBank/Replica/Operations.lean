import NovaBank.Java.Split
import NovaBank.Replica.Agreement
import NovaBank.Replica.Runs

/-!
# The texts of operations

The methods of `AuctionSmartContract` queue an operation as a text of words with spaces between them,
and `run` of `SmartContractRunner` splits it and reads the words. A user name may have spaces of its
own, and `null` is written as a word, too.

`Operation.read` is what `run` reads, and `dispatch_of_read` says that the `switch` decides by nothing
else. `operation_read_iff`: what is read is what was queued exactly when the receiver of a transfer is a
name without a space, and the numbers of a bid are not `null`.
-/

namespace NovaBank.Replica

open Java

/-! ## What is queued -/

namespace AuctionSmartContract

/-- `createMoney(amount)`. -/
def createMoney (amount : Int32) : String := "CREATE_MONEY " ++ Integer.toText amount

/-- `tranferMoney(to, amount)`. -/
def tranferMoney (receiver : JString) (amount : Int32) : String :=
  "TRANSFER_MONEY " ++ JString.toText receiver ++ " " ++ Integer.toText amount

/-- `createAuction()`. -/
def createAuction : String := "CREATE_AUCTION "

/-- `bid(amount, id)`. -/
def bid (amount id : JLong) : String := "BID " ++ JLong.toText amount ++ " " ++ JLong.toText id

end AuctionSmartContract

/-- A call of a method of `AuctionSmartContract`. -/
inductive ContractCall where
  | createMoney (amount : Int32)
  | tranferMoney (receiver : JString) (amount : Int32)
  | createAuction
  | bid (amount id : JLong)
  deriving DecidableEq

/-- The text that the call queues. -/
def ContractCall.text : ContractCall → String
  | createMoney amount => AuctionSmartContract.createMoney amount
  | tranferMoney receiver amount => AuctionSmartContract.tranferMoney receiver amount
  | createAuction => AuctionSmartContract.createAuction
  | bid amount id => AuctionSmartContract.bid amount id

/-! ## What is read -/

/-- An operation with the values of its words. -/
inductive Operation where
  | createMoney (amount : Int64)
  | transferMoney (receiver : String) (amount : Int64)
  | createAuction
  | bid (amount id : Int64)
  /-- The auction, and the key of the contract whose owner may close it. -/
  | closeAuction (id : Int64) (key : Int32)
  deriving DecidableEq

namespace Operation

/-- The words of an operation as `run` reads them, `none` for those of no operation. -/
def read (ss : List String) : Except JavaException (Option Operation) := do
  let name ← word ss 0
  if name = "CREATE_MONEY" then return some (.createMoney (← longWord ss 1))
  else if name = "TRANSFER_MONEY" then
    let amount ← longWord ss 2
    return some (.transferMoney (← word ss 1) amount)
  else if name = "CREATE_AUCTION" then return some .createAuction
  else if name = "BID" then
    let id ← longWord ss 2
    return some (.bid (← longWord ss 1) id)
  else if name = "CLOSE_AUCTION" then
    let key ← intWord ss 2
    return some (.closeAuction (← longWord ss 1) key)
  else return none

/-- The call that the `switch` makes for an operation of the contract `i` with the owner `www`. -/
def call (jvm : Jvm) (sR : SmartContractRunner) (s : BankRepository) (i : Int32) (www : JString) :
    Operation → Except JavaException (Option LedgerOperation)
  | createMoney amount => do
    let old ← s.balance www
    return some (.createMoney www (old + amount))
  | transferMoney receiver amount => do
    let old ← s.balance www
    if 0 ≤ old - amount then
      let toOld ← s.balance (some receiver)
      return some (.transferMoney www (old - amount) (some receiver) (amount + toOld))
    else return none
  | createAuction => SmartContractRunner.callCreateAuction s i www
  | bid amount id =>
    match s.findByAuctionID (some id) with
    | none => return none
    | some r => do
      if ← sameName jvm www (s.auction r).ownerUsername then return none
      else return some (.createBid id id amount www)
  | closeAuction id key =>
    match sR.ownerOf key with
    | none => throw .nullPointer
    | some owner => do
      if ← sameName jvm www owner then return some (.closeAution (some id) www)
      else
        let b ← s.user www
        if b.getRoles.contains "ROLE_AUCTION_MANAGER" then return some (.closeAution (some id) www)
        else return none

end Operation

section Read

variable {jvm : Jvm} {sR : SmartContractRunner} {s : BankRepository} {i : Int32} {www : JString}
  {ss : List String}

/-- To ask for the user first does not matter before the balance is asked for. -/
theorem user_bind_balance {α : Type} (f : Int64 → Except JavaException α) :
    (do let _ ← s.user www; let old ← s.balance www; f old) =
      (do let old ← s.balance www; f old : Except JavaException α) := by
  simp only [BankRepository.balance]
  cases s.user www <;> rfl

/-- When all words of an operation can be read, the `switch` decides by what is read. -/
theorem dispatch_of_read {op : Option Operation} (h : Operation.read ss = .ok op) :
    sR.dispatch jvm s i www ss = op.elim (.ok none) (Operation.call jvm sR s i www) := by
  obtain ⟨name, hname, h⟩ := bind_eq_ok h
  simp only [SmartContractRunner.dispatch, hname]
  show (if _ then _ else _) = _
  -- The operations by name; the words behind it are read in the order of the code.
  split_ifs at h ⊢ with h1 h2 h3 h4 h5
  · obtain ⟨amount, hamount, h⟩ := bind_eq_ok h
    cases h
    simp only [SmartContractRunner.callCreateMoney, hamount]
    rfl
  · obtain ⟨amount, hamount, h⟩ := bind_eq_ok h
    obtain ⟨receiver, hreceiver, h⟩ := bind_eq_ok h
    cases h
    simp only [SmartContractRunner.callTransferMoney, hamount, hreceiver]
    exact user_bind_balance _
  · cases h
    rfl
  · obtain ⟨id, hid, h⟩ := bind_eq_ok h
    obtain ⟨amount, hamount, h⟩ := bind_eq_ok h
    cases h
    simp only [SmartContractRunner.callBid, hid, hamount]
    rfl
  · obtain ⟨key, hkey, h⟩ := bind_eq_ok h
    obtain ⟨id, hid, h⟩ := bind_eq_ok h
    cases h
    simp only [SmartContractRunner.callCloseAuction, hkey, hid]
    rfl
  · cases h
    rfl

/-- The `switch` makes no other calls than those of operations that can be read. -/
theorem exists_read_of_dispatch {call : LedgerOperation}
    (h : sR.dispatch jvm s i www ss = .ok (some call)) :
    ∃ op, Operation.read ss = .ok (some op) ∧ op.call jvm sR s i www = .ok (some call) := by
  have hread : ∃ op, Operation.read ss = .ok (some op) := by
    cases dispatched_of_dispatch h with
    | createMoney old amount name balance asked =>
      exact ⟨.createMoney amount, by simp only [Operation.read, name, asked]; rfl⟩
    | transferMoney old toOld amount receiver name balance asked enough target toBalance =>
      exact ⟨.transferMoney receiver amount, by simp only [Operation.read, name, asked, target]; rfl⟩
    | createAuction name => exact ⟨.createAuction, by simp only [Operation.read, name]; rfl⟩
    | createBid id amount name auction asked =>
      exact ⟨.bid amount id, by simp only [Operation.read, name, auction, asked]; rfl⟩
    | closeAution id name auction =>
      -- The key was read before the auction.
      simp only [SmartContractRunner.dispatch, name] at h
      obtain ⟨first, hfirst, h⟩ := bind_eq_ok h
      cases hfirst
      obtain ⟨key, hkey, -⟩ := bind_eq_ok h
      exact ⟨.closeAuction id key, by simp only [Operation.read, name, hkey, auction]; rfl⟩
  obtain ⟨op, hop⟩ := hread
  rw [dispatch_of_read hop] at h
  exact ⟨op, hop, h⟩

end Read

/-! ## What is read of what is queued -/

namespace ContractCall

/-- The operation has the values that the method was called with. -/
def Means : ContractCall → Operation → Prop
  | createMoney amount, .createMoney v => v = amount.toInt64
  | tranferMoney receiver amount, .transferMoney name v => receiver = some name ∧ v = amount.toInt64
  | createAuction, .createAuction => True
  | bid amount id, .bid v w => amount = some v ∧ id = some w
  | _, _ => False

/-- The receiver of a transfer is a name without a space, and the numbers of a bid are not `null`. -/
def Plain : ContractCall → Prop
  | tranferMoney receiver _ => ∃ name, receiver = some name ∧ ' ' ∉ name.toList
  | bid amount id => amount.isSome ∧ id.isSome
  | _ => True

/-- A number is a word. -/
theorem begins_toString {z : ℤ} {c : Char} (hc : c ∈ (toString z).toList) :
    " ".toList.head? ≠ some c := by
  rintro h
  obtain rfl : ' ' = c := by simpa using h
  rcases mem_toString hc with h | h
  · exact absurd h (by decide)
  · exact absurd h (by decide)

/-- The words of a text with a number at the end. -/
theorem split_words (first : String) (rest : List String) (z : ℤ)
    (hwords : ∀ w ∈ first :: rest, ' ' ∉ w.toList) :
    split " " (rejoin " " first (rest ++ [toString z])) = first :: (rest ++ [toString z]) := by
  refine split_rejoin_of_unbroken (by decide) rest (fun w hw => ?_) (toString_ne_empty z)
  refine Unbroken.of_begins (by decide) (fun c hc => ?_) _
  rw [← List.cons_append, List.mem_append, List.mem_singleton] at hw
  rcases hw with hw | rfl
  · rintro h
    obtain rfl : ' ' = c := by simpa using h
    exact hwords w hw hc
  · exact begins_toString hc

/-- The text of `createMoney` is read back. -/
theorem read_createMoney (amount : Int32) :
    Operation.read (split " " (AuctionSmartContract.createMoney amount)) =
      .ok (some (.createMoney amount.toInt64)) := by
  have hwords : split " " (AuctionSmartContract.createMoney amount) =
      ["CREATE_MONEY", Integer.toText amount] :=
    split_words "CREATE_MONEY" [] amount.toInt (by decide)
  simp [hwords, Operation.read, word, longWord, bind, Except.bind, pure, Except.pure]

/-- So is that of `tranferMoney`, for a name without blanks. -/
theorem read_tranferMoney {name : String} (hname : ' ' ∉ name.toList) (amount : Int32) :
    Operation.read (split " " (AuctionSmartContract.tranferMoney (some name) amount)) =
      .ok (some (.transferMoney name amount.toInt64)) := by
  have hwords : split " " (AuctionSmartContract.tranferMoney (some name) amount) =
      ["TRANSFER_MONEY", name, Integer.toText amount] := by
    refine split_words "TRANSFER_MONEY" [name] amount.toInt fun w hw => ?_
    rcases List.mem_pair.mp hw with rfl | rfl
    · decide
    · exact hname
  simp [hwords, Operation.read, word, longWord, bind, Except.bind, pure, Except.pure]

/-- So is that of `bid`. -/
theorem read_bid (amount id : Int64) :
    Operation.read (split " " (AuctionSmartContract.bid (some amount) (some id))) =
      .ok (some (.bid amount id)) := by
  have hwords : split " " (AuctionSmartContract.bid (some amount) (some id)) =
      ["BID", Long.toText amount, Long.toText id] := by
    refine split_words "BID" [Long.toText amount] id.toInt fun w hw => ?_
    rcases List.mem_pair.mp hw with rfl | rfl
    · decide
    · exact fun h => begins_toString h rfl
  simp [hwords, Operation.read, word, longWord, bind, Except.bind, pure, Except.pure]

/-- The receiver of a transfer is read as a word. -/
theorem not_mem_of_read {op name : String} {amount : Int64}
    (h : Operation.read (split " " op) = .ok (some (.transferMoney name amount))) :
    ' ' ∉ name.toList := by
  obtain ⟨first, -, h⟩ := bind_eq_ok h
  -- Only the third branch reads a name, and a name is one of the words.
  split_ifs at h
  · obtain ⟨v, -, h⟩ := bind_eq_ok h
    cases h
  · obtain ⟨v, -, h⟩ := bind_eq_ok h
    obtain ⟨w, hw, h⟩ := bind_eq_ok h
    cases h
    unfold word at hw
    split at hw
    · cases hw
    · rename_i hget
      cases hw
      exact not_mem_of_mem_split rfl (List.mem_of_getElem? hget)
  · cases h
  · obtain ⟨v, -, h⟩ := bind_eq_ok h
    obtain ⟨w, -, h⟩ := bind_eq_ok h
    cases h
  · obtain ⟨v, -, h⟩ := bind_eq_ok h
    obtain ⟨w, -, h⟩ := bind_eq_ok h
    cases h
  · cases h

end ContractCall

/-- **What was queued is read:** the words of the text that a method of `AuctionSmartContract` queues are
read as the same operation with the same values exactly when the receiver of a transfer is a name
without a space, and the numbers of a bid are not `null`. -/
theorem operation_read_iff (c : ContractCall) :
    (∃ op, Operation.read (split " " c.text) = .ok (some op) ∧ c.Means op) ↔ c.Plain := by
  constructor
  -- What cannot be read back: a receiver with a blank in it, or `null`.
  · rintro ⟨op, hread, hmeans⟩
    cases c with
    | createMoney amount => trivial
    | tranferMoney receiver amount =>
      cases op with
      | transferMoney name v =>
        obtain ⟨rfl, rfl⟩ := hmeans
        exact ⟨name, rfl, ContractCall.not_mem_of_read hread⟩
      | createMoney v | createAuction | bid v w | closeAuction v w => cases hmeans
    | createAuction => trivial
    | bid amount id =>
      cases op with
      | bid v w =>
        obtain ⟨rfl, rfl⟩ := hmeans
        exact ⟨rfl, rfl⟩
      | createMoney v | transferMoney name v | createAuction | closeAuction v w => cases hmeans
  · intro hplain
    cases c with
    | createMoney amount => exact ⟨_, ContractCall.read_createMoney amount, rfl⟩
    | tranferMoney receiver amount =>
      obtain ⟨name, rfl, hname⟩ := hplain
      exact ⟨_, ContractCall.read_tranferMoney hname amount, rfl, rfl⟩
    | createAuction => exact ⟨.createAuction, by decide, trivial⟩
    | bid amount id =>
      obtain ⟨v, rfl⟩ := Option.isSome_iff_exists.mp hplain.1
      obtain ⟨w, rfl⟩ := Option.isSome_iff_exists.mp hplain.2
      exact ⟨_, ContractCall.read_bid v w, rfl, rfl⟩

/-- A machine on which every code is a contract that queues a transfer of 7 to the user `bob 5`. -/
def spacedJvm : Jvm where
  order := id
  order_perm := List.Perm.refl
  foldCase := id
  text := fun _ => ""
  defineClass := fun _ =>
    .ok (ContractClass.queueing [(ContractCall.tranferMoney (some "bob 5") 7).text])

/-- **A transfer to somebody else:** `alice`, `bob` and `bob 5` register, and a contract of `alice` queues
a transfer of 7 to `bob 5`. What is read is a transfer of 5 to `bob`, and the pass of the runner makes it.
-/
theorem transfer_to_bob :
    let st := (BankService.new.run spacedJvm
      [.ordered (Proxy.registerUser (some "alice") (some "secret") (some 100) none),
        .ordered (Proxy.registerUser (some "bob") (some "secret") (some 0) none),
        .ordered (Proxy.registerUser (some "bob 5") (some "secret") (some 0) none),
        .ordered (Proxy.createSmartContract (some "alice") []), .drain fun _ _ => 0]).2
    Operation.read (split " " (ContractCall.tranferMoney (some "bob 5") 7).text) =
        .ok (some (.transferMoney "bob" 5)) ∧
      (st.bankRepo.findByUserName (some "alice")).bind BankEntity.amount = some 95 ∧
      (st.bankRepo.findByUserName (some "bob")).bind BankEntity.amount = some 5 ∧
      (st.bankRepo.findByUserName (some "bob 5")).bind BankEntity.amount = some 0 := by
  decide

end NovaBank.Replica
