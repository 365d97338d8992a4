import NovaBank.Proxy.Commands
import NovaBank.Proxy.Reply

/-!
# Replies with one object

The requests whose reply is one object: `REGISTER_USER`, `CREATE_MONEY`, `TRANSFER_MONEY`,
`CREATE_AUCTION`, `CLOSE_AUCTION`, `CREATE_SMART_CONTRACT`, `FIND_USER` and `CHECK_CURRENT_AMOUNT`.
For them the comparator looks at everything that the proxy decodes, so that the quorum protects it:
a message that the extractor returns holds the object that more than `f` correct replicas have sent
(`single_reply_safe`).
-/

namespace NovaBank.Proxy

open Java Replica

/-! ## One object -/

/-- A request whose reply has one object. -/
def Single : Access → Prop
  | .ordered command => ∃ r, decodeOrdered command = .ok r ∧ r ≠ .other
  | .unordered command => ∃ u, decodeUnordered command = .ok (.findUser u) ∨
      decodeUnordered command = .ok (.checkCurrentAmount u)

/-- A reply is `null` or one object that is not a bid. -/
def OneObject (reply : Reply) : Prop :=
  ∀ os, reply = some os → ∃ x, os = [x] ∧ ∀ b, x ≠ .bid b

/-- `null` has no second object. -/
theorem oneObject_none : OneObject none := by
  intro os h
  cases h

/-- A reply with a JSON object has one object. -/
theorem oneObject_json (j : JSONObject) : OneObject (BankService.jsonReply j) := by
  intro os h
  cases h
  exact ⟨_, rfl, by simp⟩

/-- So has any reply with one element that is no bid. -/
theorem oneObject_singleton {x : ReplyObject} (h : ∀ b, x ≠ .bid b) : OneObject (some [x]) := by
  intro os e
  cases e
  exact ⟨x, rfl, h⟩

/-- The epilogue keeps a reply or makes it `null`. -/
theorem oneObject_finish {r : Outcome Reply} (h : ∀ reply, r.1 = .ok reply → OneObject reply)
    {reply : Reply} (hr : (BankService.finish r).1 = .ok reply) : OneObject reply := by
  unfold BankService.finish at hr
  split at hr
  · rename_i e
    cases hr
    exact h _ e
  · split at hr
    · cases hr
      exact oneObject_none
    · cases hr

/-- The ordered requests write one object at most. -/
theorem oneObject_executeLedger {jvm : Jvm} {s : BankRepository} (r : LedgerRequest) {reply : Reply}
    (h : (BankService.executeLedger jvm r s).1 = .ok reply) : OneObject reply := by
  -- Each request writes `null`, one name or one object.
  cases r with
  | registerUser username rest =>
    simp only [BankService.executeLedger, BankService.executeRegisterUser] at h
    split at h
    · cases h
      exact oneObject_none
    · split at h
      · cases h
      · obtain ⟨b, -, rfl⟩ := map_eq_ok h
        exact oneObject_singleton (by simp)
  | createMoney who rest =>
    simp only [BankService.executeLedger, BankService.executeCreateMoney] at h
    split at h
    · cases h
      exact oneObject_none
    · split at h
      · cases h
      · split at h
        · cases h
        · split at h
          · cases h
            exact oneObject_json _
          · cases h
            exact oneObject_json _
  | transferMoney sender fromSaldo receiver toSaldo fromAmount toAmount =>
    simp only [BankService.executeLedger, BankService.executeTransferMoney] at h
    split at h
    · split at h
      · cases h
      · obtain ⟨j, -, rfl⟩ := map_eq_ok h
        exact oneObject_json j
      · cases h
        exact oneObject_json _
    · cases h
      exact oneObject_none
  | createAuction who auctionID =>
    simp only [BankService.executeLedger, BankService.executeCreateAuction] at h
    split at h
    · cases h
      exact oneObject_json _
    · cases h
      exact oneObject_none
  | closeAuction who auctionID =>
    obtain ⟨j, -, rfl⟩ := map_eq_ok h
    exact oneObject_json j

/-- So does an upload. -/
theorem oneObject_executeCreateSmartContract {jvm : Jvm} {st : BankService} {who : JString}
    {code : List UInt8} {reply : Reply}
    (h : (BankService.executeCreateSmartContract jvm who code st).1 = .ok reply) :
    OneObject reply := by
  unfold BankService.executeCreateSmartContract at h
  -- The upload is refused without the account, and otherwise answered with one object.
  split at h
  · cases h
    exact oneObject_none
  · split at h
    · dsimp only at h
      split at h
      · cases h
        exact oneObject_json _
      · cases h
    · cases h
      exact oneObject_json _

/-- The reply to such a request is `null` or one object. -/
theorem oneObject_access {jvm : Jvm} {a : Access} (single : Single a) {st : BankService} {reply : Reply}
    (h : (st.access jvm a).1 = .ok reply) : OneObject reply := by
  cases a with
  | ordered command =>
    obtain ⟨r, hr, hne⟩ := single
    simp only [BankService.access, BankService.appExecuteOrdered, hr] at h
    cases r with
    | ledger r => exact oneObject_finish (fun _ => oneObject_executeLedger r) h
    | createSmartContract who code =>
      exact oneObject_finish (fun _ => oneObject_executeCreateSmartContract) h
    | other => exact absurd rfl hne
  | unordered command =>
    obtain ⟨u, hq⟩ := single
    refine oneObject_finish (r := (BankService.query jvm command st.bankRepo, st.bankRepo)) ?_ h
    intro reply hquery
    -- The two queries with one value.
    rcases hq with hq | hq
    · simp only [BankService.query, hq] at hquery
      change BankService.answer jvm st.bankRepo (.findUser u) = .ok reply at hquery
      simp only [BankService.answer] at hquery
      split at hquery
      · cases hquery
        exact oneObject_singleton (by simp)
      · cases hquery
        exact oneObject_none
    · simp only [BankService.query, hq] at hquery
      change BankService.answer jvm st.bankRepo (.checkCurrentAmount u) = .ok reply at hquery
      simp only [BankService.answer] at hquery
      split at hquery
      · obtain ⟨v, -, rfl⟩ := map_eq_ok hquery
        exact oneObject_singleton (by simp)
      · cases hquery
        exact oneObject_none

/-! ## The quorum -/

/-- **Byzantine-safe replies with one object:** of `3 f + 1` replicas at most `f` are Byzantine and
send anything, and the others send what they answer, in whatever states they are. When `2 f + 1`
replies compare equal to the last received one and the extractor returns a message, the first object
of the message is the one that at least `f + 1` correct replicas have sent, and at least `2 f + 1`
of the received replies have a valid signature of their sender. -/
theorem single_reply_safe (w : Wire) (jvm : Jvm) (f : ℕ) (byzantine : Finset (Fin (3 * f + 1)))
    (few : byzantine.card ≤ f) (a : Access) (single : Single a)
    (state : Fin (3 * f + 1) → BankService) (replies : Fin (3 * f + 1) → Option Content)
    (correct : ∀ i ∉ byzantine, ∀ content, replies i = some content →
      ∃ reply, ((state i).access jvm a).1 = .ok reply ∧ Sends w jvm i reply content)
    (lastReceived : Fin (3 * f + 1)) (quorum : 2 * f + 1 ≤ (w.matching replies lastReceived).card)
    (message : Bytes) (h : w.extractResponse f replies lastReceived = .ok (some message)) :
    (∃ o senders, w.readFirst message = .ok o ∧ f + 1 ≤ Finset.card senders ∧
      ∀ i ∈ senders, i ∉ byzantine ∧ (replies i).isSome ∧
        ∃ x, ((state i).access jvm a).1 = .ok (some [x]) ∧ objectOf jvm x = o) ∧
    2 * f + 1 ≤ (w.validReplies replies).card := by
  obtain ⟨hvalid, b, hlast, hmessage⟩ := Wire.extractResponse_eq_some_iff.mp h
  refine ⟨?_, hvalid⟩
  -- Every correct replica with a matching reply has sent the first object of the message.
  have hsent : ∀ i ∈ w.matching replies lastReceived, i ∉ byzantine → (replies i).isSome ∧
      ∃ x, ((state i).access jvm a).1 = .ok (some [x]) ∧ w.readFirst message = .ok (objectOf jvm x) := by
    intro i hi hcorrect
    have hone : ∀ os, ((state i).access jvm a).1 = .ok (some os) →
        ∃ x, os = [x] ∧ ∀ b, x ≠ .bid b := fun os hos => oneObject_access single hos os rfl
    obtain ⟨hsome, x, xs, hx, hfirst⟩ := sent_of_matching correct hi hcorrect hlast hmessage
      fun os hos => (hone os hos).imp fun x hx => ⟨[], hx⟩
    obtain ⟨y, hy, -⟩ := hone _ hx
    cases hy
    exact ⟨hsome, x, hx, hfirst⟩
  -- One of them fixes the object, and all the others have sent the same one.
  obtain ⟨j, hj, hjc⟩ := Quorum.exists_correct few quorum
  obtain ⟨-, x, -, hfirst⟩ := hsent j hj hjc
  refine ⟨objectOf jvm x, w.matching replies lastReceived \ byzantine, hfirst,
    Quorum.lt_card_sdiff few quorum, ?_⟩
  intro i hi
  obtain ⟨him, hic⟩ := Finset.mem_sdiff.mp hi
  obtain ⟨hsome, y, hy, hyfirst⟩ := hsent i him hic
  exact ⟨hic, hsome, y, hy, Except.ok.inj (hyfirst.symm.trans hfirst)⟩

/-- The registration of a user. -/
def registration : Access :=
  .ordered (registerUser (some "bob") (some "secret") (some 7) none)

/-- Four replies to it. The replica 3 answers with another name. -/
def registrationReplies (i : Fin 4) : Option Content :=
  some (contentWith (streamHeader ++ stringBytes "bob")
    (some (signed 3 (streamHeader ++ stringBytes "eve"))) i)

/-- The name that three new replicas answer with gets through. -/
theorem single_reply_safe_registration :
    ∃ message, javaWire.extractResponse 1 registrationReplies 2 = .ok (some message) ∧
      ∃ o senders, javaWire.readFirst message = .ok o ∧ 2 ≤ Finset.card senders ∧
        ∀ i ∈ senders, i ∉ ({3} : Finset (Fin 4)) ∧ (registrationReplies i).isSome ∧
          ∃ x, (BankService.new.access (Jvm.plain (ContractClass.queueing [])) registration).1 =
              .ok (some [x]) ∧
            objectOf (Jvm.plain (ContractClass.queueing [])) x = o := by
  -- Three correct replies with the name, and another name from the Byzantine replica.
  have hextract : javaWire.extractResponse 1 registrationReplies 2 =
      .ok (some (streamHeader ++ stringBytes "bob")) := by
    decide +kernel
  refine ⟨_, hextract, (single_reply_safe javaWire (Jvm.plain (ContractClass.queueing [])) 1 {3}
    (by decide) registration ⟨_, decodeOrdered_registerUser _ _ _ _, by simp⟩
    (fun _ => BankService.new) registrationReplies ?_ 2 (by decide +kernel) _ hextract).1⟩
  intro i hi content hcontent
  have hreply : content = some (signed i (streamHeader ++ stringBytes "bob")) := by
    rw [← Option.some.inj hcontent, contentWith_of_correct _ _ hi]
  exact ⟨some [.name (some "bob")], by decide, hreply ▸ sends_javaWire i 1 (by decide)⟩

end NovaBank.Proxy
