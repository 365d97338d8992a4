import Mathlib.Tactic.Abel
import NovaBank.Proxy.Commands
import NovaBank.Replica.Changes

/-!
# Balances

The balance of a user, the sum of all balances modulo `2^64`, and how the writes of the replica move
them. A write sets a balance: `balanceOf_setAmount` and `totalBalance_setAmount` are its effects,
and the effects of a deposit and of a transfer follow from them. `ordered_createMoney_cases` and
`ordered_transferMoney_cases` say what the two requests do to the accounts, accepted or not.
-/

namespace NovaBank.Money

open Java Replica

/-- The balance of a user, `none` without an account or without an amount. -/
def balanceOf (s : BankRepository) (u : JString) : JLong := (s.findByUserName u).bind BankEntity.amount

/-- The sum of all balances, modulo `2^64`. -/
def totalBalance (s : BankRepository) : Int64 := s.users.total fun b => b.amount.getD 0

/-- What the controller takes for success: a JSON object without an error. -/
def accepted : Except JavaException Reply → Bool
  | .ok (some [.json (.object j)]) => !j.has "error"
  | _ => false

section Writes

variable {s : BankRepository} {who : JString} {b : BankEntity}

/-- A user with a balance is registered. -/
theorem find_of_balanceOf {v : Int64} (h : balanceOf s who = some v) :
    ∃ b, s.findByUserName who = some b ∧ b.amount = some v :=
  Option.bind_eq_some_iff.mp h

/-- The balances after an account was put under its name. -/
theorem balanceOf_newUserBankEntity (s : BankRepository) (b : BankEntity) (u : JString) :
    balanceOf (s.newUserBankEntity b) u = if b.userName = u then b.amount else balanceOf s u := by
  simp only [balanceOf, BankRepository.newUserBankEntity_findByUserName]
  split_ifs <;> rfl

/-- The balances after one was set. -/
theorem balanceOf_setAmount (h : s.findByUserName who = some b) (v : Int64) (u : JString) :
    balanceOf (s.newUserBankEntity (b.updateAmount v)) u =
      if who = u then some v else balanceOf s u := by
  rw [balanceOf_newUserBankEntity, BankRepository.userName_updateAmount h]
  rfl

/-- A put of an account replaces the balance that its user had. -/
theorem totalBalance_newUserBankEntity (c : BankEntity) (h : s.findByUserName c.userName = some b) :
    totalBalance (s.newUserBankEntity c) = totalBalance s - b.amount.getD 0 + c.amount.getD 0 := by
  have hget : s.users.get c.userName = some b := h
  rw [totalBalance, BankRepository.newUserBankEntity, KeyedMap.total_put, hget]
  rfl

/-- The total after one balance was set. -/
theorem totalBalance_setAmount (h : s.findByUserName who = some b) (v : Int64) :
    totalBalance (s.newUserBankEntity (b.updateAmount v)) =
      totalBalance s - b.amount.getD 0 + v :=
  totalBalance_newUserBankEntity (b.updateAmount v)
    (by rwa [BankRepository.userName_updateAmount h])

/-- The balance that a contract operation reads. -/
theorem user_of_balance {v : Int64} (h : s.balance who = .ok v) :
    ∃ b, s.findByUserName who = some b ∧ b.amount = some v := by
  obtain ⟨b, hb, hv⟩ := bind_eq_ok h
  -- Either lookup throws on `null`.
  unfold BankRepository.user at hb
  split at hb
  · cases hb
  · rename_i b' hb'
    cases hb
    refine ⟨b, hb', ?_⟩
    split at hv
    · cases hv
    · rename_i w hw
      cases hv
      exact hw

/-- The epilogue of a request touches no account. -/
theorem finish_users (r : Outcome Reply) : (BankService.finish r).2.users = r.2.users := by
  obtain ⟨v, hv⟩ := finish_eq r
  rw [hv]

/-- The balances are those of the users. -/
theorem balanceOf_of_users {s t : BankRepository} (h : s.users = t.users) (u : JString) :
    balanceOf s u = balanceOf t u := by
  simp only [balanceOf, BankRepository.findByUserName, h]

/-- So is their total. -/
theorem totalBalance_of_users {s t : BankRepository} (h : s.users = t.users) :
    totalBalance s = totalBalance t := by
  simp only [totalBalance, h]

/-- The epilogue keeps what the controller takes for success. -/
theorem accepted_finish (r : Outcome Reply) : accepted (BankService.finish r).1 = accepted r.1 := by
  obtain ⟨r, s⟩ := r
  cases r with
  | ok reply => rfl
  | error e =>
    simp only [BankService.finish]
    split <;> rfl

end Writes

/-! ## Deposits -/

/-- Two values are equal when their texts are. -/
theorem toText_inj {a b : Int64} (h : Long.toText a = Long.toText b) : a = b := by
  have := congrArg parseLong h
  simpa using this

/-- `compareAmount` of a user with a balance. -/
theorem compareAmount_eq {s : BankRepository} {who : JString} {v : Int64}
    (h : balanceOf s who = some v) (original : Int64) :
    s.compareAmount who original = .ok (if v = original then v else -v) := by
  obtain ⟨b, hb, ha⟩ := find_of_balanceOf h
  simp only [BankRepository.compareAmount, hb, ha]
  by_cases e : v = original
  · simp [e]
  · have : Long.toText v ≠ Long.toText original := fun h => e (toText_inj h)
    simp [e, this]

/-- What `CREATE_MONEY` does: it is refused and changes nothing, or it sets the balance because the
compared amount is not negative. -/
theorem executeCreateMoney_cases {s : BankRepository} {who : JString} {original final : Int64}
    {r : Outcome Reply} (hr : BankService.executeCreateMoney who (.ok (original, final)) s = r) :
    (r.2 = s ∧ accepted r.1 = false ∧
      ∀ v, balanceOf s who = some v → ¬ 0 ≤ (if v = original then v else -v)) ∨
    ∃ b v, s.findByUserName who = some b ∧ b.amount = some v ∧
      0 ≤ (if v = original then v else -v) ∧ accepted r.1 = true ∧
      r.2 = s.newUserBankEntity (b.updateAmount final) := by
  subst hr
  -- Without the account, or without an amount, the request throws and nothing is stored.
  cases hb : s.findByUserName who with
  | none =>
    left
    simp [BankService.executeCreateMoney, balanceOf, hb, accepted]
  | some b =>
    cases ha : b.amount with
    | none =>
      left
      simp [BankService.executeCreateMoney, balanceOf, BankRepository.compareAmount, hb, ha, accepted]
    | some v =>
      have hbal : balanceOf s who = some v := by simp [balanceOf, hb, ha]
      simp only [BankService.executeCreateMoney, hb, compareAmount_eq hbal]
      by_cases h0 : 0 ≤ (if v = original then v else -v)
      · right
        simp only [h0, if_true, BankServiceHelper.createMoney, hb]
        exact ⟨b, v, rfl, ha, h0, rfl, rfl⟩
      · left
        simp only [h0, if_false, true_and]
        refine ⟨rfl, fun w hw => ?_⟩
        rw [hbal] at hw
        cases hw
        exact h0

/-- What the ordered request does to the accounts, with the epilogue of the request. -/
theorem ordered_createMoney_cases {jvm : Jvm} {st st' : BankService} {who : JString}
    {original final : Int64} {reply : Except JavaException Reply}
    (h : st.appExecuteOrdered jvm (Proxy.createMoney who original final) = (reply, st')) :
    (st'.bankRepo.users = st.bankRepo.users ∧ accepted reply = false ∧
      ∀ v, balanceOf st.bankRepo who = some v → ¬ 0 ≤ (if v = original then v else -v)) ∨
    ∃ b v, st.bankRepo.findByUserName who = some b ∧ b.amount = some v ∧
      0 ≤ (if v = original then v else -v) ∧ accepted reply = true ∧
      st'.bankRepo.users = (st.bankRepo.newUserBankEntity (b.updateAmount final)).users := by
  simp only [BankService.appExecuteOrdered, Proxy.decodeOrdered_createMoney,
    BankService.executeLedger, Prod.mk.injEq] at h
  obtain ⟨rfl, rfl⟩ := h
  -- The reply is written after the state, which only counts a version.
  rw [accepted_finish, finish_users]
  rcases executeCreateMoney_cases rfl with ⟨hs, hrest⟩ | ⟨b, v, hb, hv, h0, hacc, hs⟩
  · exact .inl ⟨congrArg BankRepository.users hs, hrest⟩
  · exact .inr ⟨b, v, hb, hv, h0, hacc, congrArg BankRepository.users hs⟩

/-! ## Transfers -/

/-- Setting the balances of two users, the sender's first. A user who is both gets the second one.
-/
theorem balanceOf_setTwo {s : BankRepository} {sender receiver : JString} {b c : BankEntity}
    (hb : s.findByUserName sender = some b) (hc : s.findByUserName receiver = some c)
    (v w : Int64) (u : JString) :
    balanceOf ((s.newUserBankEntity (b.updateAmount v)).updateUser receiver fun b => b.updateAmount w) u =
      if receiver = u then some w else if sender = u then some v else balanceOf s u := by
  have hname := BankRepository.userName_of_find hb
  by_cases e : sender = receiver
  · -- One user: the second write finds what the first one has left.
    have hc' : (s.newUserBankEntity (b.updateAmount v)).findByUserName receiver =
        some (b.updateAmount v) := by simp [hname, e]
    rw [BankRepository.updateUser_of_find _ hc', balanceOf_setAmount hc', balanceOf_setAmount hb]
  · have hc' : (s.newUserBankEntity (b.updateAmount v)).findByUserName receiver = some c := by
      simp [hname, e, hc]
    rw [BankRepository.updateUser_of_find _ hc', balanceOf_setAmount hc', balanceOf_setAmount hb]

/-- The sum of all balances after setting those of two users. -/
theorem totalBalance_setTwo {s : BankRepository} {sender receiver : JString} {b c : BankEntity}
    (hb : s.findByUserName sender = some b) (hc : s.findByUserName receiver = some c)
    (v w : Int64) :
    totalBalance ((s.newUserBankEntity (b.updateAmount v)).updateUser receiver
        fun b => b.updateAmount w) =
      totalBalance s - b.amount.getD 0 + w +
        if sender = receiver then 0 else v - c.amount.getD 0 := by
  have hname := BankRepository.userName_of_find hb
  by_cases e : sender = receiver
  · have hc' : (s.newUserBankEntity (b.updateAmount v)).findByUserName receiver =
        some (b.updateAmount v) := by simp [hname, e]
    rw [BankRepository.updateUser_of_find _ hc', totalBalance_setAmount hc',
      totalBalance_setAmount hb, if_pos e]
    -- The value of the first write is lost.
    show totalBalance s - b.amount.getD 0 + v - v + w = _
    abel
  · have hc' : (s.newUserBankEntity (b.updateAmount v)).findByUserName receiver = some c := by
      simp [hname, e, hc]
    rw [BankRepository.updateUser_of_find _ hc', totalBalance_setAmount hc',
      totalBalance_setAmount hb, if_neg e]
    abel

/-- The comparison of both balances succeeds when both are as stated. -/
theorem amountsAre_true {b c : BankEntity} {v w : Int64}
    (h : BankService.amountsAre b c v w = .ok true) : b.amount = some v ∧ c.amount = some w := by
  have his : ∀ {b : BankEntity} {v : Int64}, BankService.amountIs b v = .ok true → b.amount = some v := by
    intro b v h
    unfold BankService.amountIs at h
    split at h
    · cases h
    · rename_i x hx
      rw [hx, beq_iff_eq.mp (Except.ok.inj h)]
  -- The second amount is compared only when the first one is equal.
  unfold BankService.amountsAre at h
  split at h
  · rename_i hb
    exact ⟨his hb, his h⟩
  · rename_i hne
    exact (hne h).elim

/-- What `TRANSFER_MONEY` does: it is refused and changes nothing, or both balances are the ones
that it states and it sets them, the sender's first. -/
theorem executeTransferMoney_cases {s : BankRepository} {sender receiver : JString}
    {fromSaldo toSaldo fromAmount toAmount : Int64} {r : Outcome Reply}
    (hr : BankService.executeTransferMoney sender fromSaldo receiver toSaldo fromAmount toAmount s =
      r) :
    (r.2 = s ∧ accepted r.1 = false) ∨
    ∃ b c, s.findByUserName sender = some b ∧ b.amount = some fromSaldo ∧
      s.findByUserName receiver = some c ∧ c.amount = some toSaldo ∧ accepted r.1 = true ∧
      r.2 = (s.newUserBankEntity (b.updateAmount fromAmount)).updateUser receiver
        fun b => b.updateAmount toAmount := by
  subst hr
  -- Both accounts are looked up first; the amounts decide what is stored.
  cases hb : s.findByUserName sender with
  | none =>
    left
    simp [BankService.executeTransferMoney, hb, accepted]
  | some b =>
    cases hc : s.findByUserName receiver with
    | none =>
      left
      simp [BankService.executeTransferMoney, hb, hc, accepted]
    | some c =>
      simp only [BankService.executeTransferMoney, hb, hc]
      split
      · left
        exact ⟨rfl, rfl⟩
      · rename_i hsame
        right
        obtain ⟨hfrom, hto⟩ := amountsAre_true hsame
        refine ⟨b, c, rfl, hfrom, rfl, hto, ?_, ?_⟩
        · simp only [BankServiceHelper.transferMoney, hb, hc]
          rfl
        · simp only [BankServiceHelper.transferMoney, hb, hc]
      · left
        exact ⟨rfl, by cases b.amount <;> cases c.amount <;> rfl⟩

/-- What the ordered request does to the accounts, with the epilogue of the request. -/
theorem ordered_transferMoney_cases {jvm : Jvm} {st st' : BankService} {sender receiver : JString}
    {fromSaldo toSaldo fromAmount toAmount : Int64} {reply : Except JavaException Reply}
    (h : st.appExecuteOrdered jvm
      (Proxy.transferMoney sender fromSaldo receiver toSaldo fromAmount toAmount) = (reply, st')) :
    (st'.bankRepo.users = st.bankRepo.users ∧ accepted reply = false) ∨
    ∃ b c, st.bankRepo.findByUserName sender = some b ∧ b.amount = some fromSaldo ∧
      st.bankRepo.findByUserName receiver = some c ∧ c.amount = some toSaldo ∧
      accepted reply = true ∧
      st'.bankRepo.users = ((st.bankRepo.newUserBankEntity (b.updateAmount fromAmount)).updateUser
        receiver fun b => b.updateAmount toAmount).users := by
  simp only [BankService.appExecuteOrdered, Proxy.decodeOrdered_transferMoney,
    BankService.executeLedger, Prod.mk.injEq] at h
  obtain ⟨rfl, rfl⟩ := h
  -- The reply is written after the state, which only counts a version.
  rw [accepted_finish, finish_users]
  rcases executeTransferMoney_cases rfl with ⟨hs, hacc⟩ | ⟨b, c, hb, hfrom, hc, hto, hacc, hs⟩
  · exact .inl ⟨congrArg BankRepository.users hs, hacc⟩
  · exact .inr ⟨b, c, hb, hfrom, hc, hto, hacc, congrArg BankRepository.users hs⟩

/-- A replica with one user, who has the balance `v`. -/
def bobWith (v : Int64) : BankService :=
  (BankService.new.appExecuteOrdered (Jvm.plain (ContractClass.queueing []))
    (Proxy.registerUser (some "bob") (some "secret") (some v) none)).2

end NovaBank.Money
