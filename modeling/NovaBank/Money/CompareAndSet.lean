import NovaBank.Money.Balances

/-!
# The two requests that compare and set

`CREATE_MONEY` and `TRANSFER_MONEY` carry the balances that their sender believes in and those that
it wants. `ordered_createMoney_eq` and `ordered_transferMoney_eq` are their outcomes in full, for
users who have a balance: the reply with its fields and the repository.

A transfer compares exactly. A deposit does not: `compareAmount` encodes a mismatch in the sign of
the balance, and the caller tests that sign. `deposit_exact_iff`: it is an exact compare-and-set for
a right amount when the balance is not negative, and for a wrong one when it is positive or
`Long.MIN_VALUE`.
-/

namespace NovaBank.Money

open Java Replica

section Outcomes

variable (jvm : Jvm) {st : BankService} {who sender receiver : JString} {b c : BankEntity} {v w : Int64}

/-- The reply to a deposit that does not pass the comparison, with the negation of what was compared.
-/
def depositRefused (amount : Int64) : JSONObject :=
  (JSONObject.error "Original amount did not pass verifications").put "amount" (some (.number amount))

/-- The reply to a transfer that states other balances than these. -/
def transferRefused (v w : Int64) : JSONObject :=
  ((JSONObject.empty.put "error" (some (.bool true))).put "fromSaldo" (some (.number v))).put "toSaldo"
    (some (.number w))

/-- `CREATE_MONEY` for a user with a balance. -/
theorem ordered_createMoney_eq (hb : st.bankRepo.findByUserName who = some b) (hv : b.amount = some v)
    (original final : Int64) :
    st.appExecuteOrdered jvm (Proxy.createMoney who original final) =
      if 0 ≤ (if v = original then v else -v) then
        (.ok (BankService.jsonReply (JSONObject.success.put "amount" (some (.number final)))),
          { st with bankRepo := (st.bankRepo.newUserBankEntity (b.updateAmount final)).save })
      else
        (.ok (BankService.jsonReply (depositRefused (-(if v = original then v else -v)))),
          { st with bankRepo := st.bankRepo.save }) := by
  have hbal : balanceOf st.bankRepo who = some v := by simp [balanceOf, hb, hv]
  simp only [BankService.appExecuteOrdered, Proxy.decodeOrdered_createMoney, BankService.executeLedger,
    BankService.executeCreateMoney, hb, compareAmount_eq hbal]
  -- The comparison gives the balance, or its negation when it is another than expected.
  by_cases h0 : 0 ≤ (if v = original then v else -v)
  · rw [if_pos h0, if_pos h0]
    simp only [BankServiceHelper.createMoney, hb, BankService.finish]
  · rw [if_neg h0, if_neg h0]
    rfl

/-- `TRANSFER_MONEY` between users with balances. -/
theorem ordered_transferMoney_eq (hb : st.bankRepo.findByUserName sender = some b)
    (hv : b.amount = some v) (hc : st.bankRepo.findByUserName receiver = some c)
    (hw : c.amount = some w) (fromSaldo toSaldo fromAmount toAmount : Int64) :
    st.appExecuteOrdered jvm
        (Proxy.transferMoney sender fromSaldo receiver toSaldo fromAmount toAmount) =
      if v = fromSaldo ∧ w = toSaldo then
        (.ok (BankService.jsonReply JSONObject.success),
          { st with bankRepo := ((st.bankRepo.newUserBankEntity (b.updateAmount fromAmount)).updateUser
            receiver fun b => b.updateAmount toAmount).save })
      else
        (.ok (BankService.jsonReply (transferRefused v w)),
          { st with bankRepo := st.bankRepo.save }) := by
  -- The second comparison is made only after the first one has succeeded.
  have hamounts : BankService.amountsAre b c fromSaldo toSaldo =
      .ok (decide (v = fromSaldo ∧ w = toSaldo)) := by
    by_cases e : v = fromSaldo
    · simp [BankService.amountsAre, BankService.amountIs, hv, hw, e, beq_eq_decide]
    · simp [BankService.amountsAre, BankService.amountIs, hv, e]
  simp only [BankService.appExecuteOrdered, Proxy.decodeOrdered_transferMoney,
    BankService.executeLedger, BankService.executeTransferMoney, hb, hc, hamounts]
  by_cases e : v = fromSaldo ∧ w = toSaldo
  · rw [if_pos e, decide_eq_true e]
    simp only [BankServiceHelper.transferMoney, hb, hc, Except.map, BankService.finish]
  · rw [if_neg e, decide_eq_false e]
    simp only [hv, hw, Option.map_some, BankService.finish]
    rfl

end Outcomes

/-! ## Deposits -/

/-- A reply that carries an error and an amount. -/
def RefusedWith (reply : Except JavaException Reply) (amount : Int64) : Prop :=
  ∃ j, reply = .ok (BankService.jsonReply j) ∧ j.has "error" = true ∧
    j.get "amount" = some (.number amount)

/-- A deposit is an exact compare-and-set for a user with the balance `b`: it sets the balance and
succeeds exactly for the right original amount, and otherwise the balance stays and the reply carries
an error with it. -/
def ExactDeposit (jvm : Jvm) (st : BankService) (who : JString) (b original final : Int64) : Prop :=
  let r := st.appExecuteOrdered jvm (Proxy.createMoney who original final)
  ((balanceOf r.2.bankRepo who = some final ∧ accepted r.1 = true) ↔ original = b) ∧
    (original ≠ b → balanceOf r.2.bankRepo who = some b ∧ RefusedWith r.1 b)

/-- The answer to a refused deposit carries the amount that it was made with. -/
theorem refusedWith_depositRefused (v amount : Int64) :
    RefusedWith (.ok (BankService.jsonReply (depositRefused v))) amount ↔ v = amount := by
  constructor
  · rintro ⟨j, hj, -, hamount⟩
    cases hj
    exact Scalar.number.inj (Option.some.inj hamount)
  · rintro rfl
    exact ⟨_, rfl, rfl, rfl⟩

/-- **When a deposit is an exact compare-and-set:** for the right original amount exactly when the
balance is not negative, and for any other one exactly when it is positive or the least value, whose
negation is itself. -/
theorem deposit_exact_iff (jvm : Jvm) (st : BankService) (who : JString) (b : Int64)
    (registered : balanceOf st.bankRepo who = some b) (original final : Int64) :
    ExactDeposit jvm st who b original final ↔
      (if original = b then 0 ≤ b else 0 < b ∨ b = Int64.minValue) := by
  obtain ⟨u, hu, hb⟩ := find_of_balanceOf registered
  have hrun := ordered_createMoney_eq jvm hu hb original final
  unfold ExactDeposit
  by_cases e : original = b
  · -- The right amount: what is compared is the balance itself.
    have hcompared : (if b = original then b else -b) = b := if_pos e.symm
    rw [hcompared] at hrun
    rw [hrun, if_pos e]
    by_cases h0 : 0 ≤ b
    · rw [if_pos h0]
      have hset : balanceOf (st.bankRepo.newUserBankEntity (u.updateAmount final)) who = some final := by
        rw [balanceOf_setAmount hu, if_pos rfl]
      exact iff_of_true ⟨iff_of_true ⟨hset, rfl⟩ e, fun hne => absurd e hne⟩ h0
    · rw [if_neg h0]
      refine iff_of_false (fun h => ?_) h0
      exact Bool.false_ne_true (h.1.mpr e).2
  · -- A wrong amount: what is compared is the negated balance.
    have hcompared : (if b = original then b else -b) = -b := if_neg fun e' => e e'.symm
    rw [hcompared] at hrun
    rw [hrun, if_neg e]
    by_cases h0 : 0 ≤ -b
    · rw [if_pos h0]
      refine iff_of_false (fun h => ?_) ((neg_nonneg_iff b).mp h0)
      obtain ⟨-, j, hj, herror, -⟩ := h.2 e
      cases hj
      exact Bool.false_ne_true herror
    · rw [if_neg h0]
      have hkept : balanceOf st.bankRepo.save who = some b := registered
      have hrefused : RefusedWith (.ok (BankService.jsonReply (depositRefused (- -b)))) b :=
        (refusedWith_depositRefused _ _).mpr (neg_neg b)
      refine iff_of_true ⟨iff_of_false (fun h => ?_) e, fun _ => ⟨hkept, hrefused⟩⟩ ?_
      · exact Bool.false_ne_true h.2
      · exact not_not.mp fun hn => h0 ((neg_nonneg_iff b).mpr hn)

/-- A right amount and a wrong one, against a balance of 10. -/
theorem deposit_exact_positive :
    ExactDeposit (Jvm.plain (ContractClass.queueing [])) (bobWith 10) (some "bob") 10 10 15 ∧
      ExactDeposit (Jvm.plain (ContractClass.queueing [])) (bobWith 10) (some "bob") 10 7 15 :=
  ⟨(deposit_exact_iff _ (bobWith 10) (some "bob") 10 (by decide) 10 15).mpr (by decide),
    (deposit_exact_iff _ (bobWith 10) (some "bob") 10 (by decide) 7 15).mpr (by decide)⟩

/-- **The sign is no answer:** against a balance of 0 a wrong amount is accepted, and against a
negative balance the right one is refused, with the wrong balance in the reply. -/
theorem deposit_not_exact :
    let zero := (bobWith 0).appExecuteOrdered (Jvm.plain (ContractClass.queueing []))
      (Proxy.createMoney (some "bob") 100 105)
    let negative := (bobWith (-5)).appExecuteOrdered (Jvm.plain (ContractClass.queueing []))
      (Proxy.createMoney (some "bob") (-5) 3)
    (accepted zero.1 = true ∧ balanceOf zero.2.bankRepo (some "bob") = some 105) ∧
      negative.1 = .ok (BankService.jsonReply (depositRefused 5)) ∧
      balanceOf negative.2.bankRepo (some "bob") = some (-5) := by
  decide

end NovaBank.Money
