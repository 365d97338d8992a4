import NovaBank.Common.Run
import NovaBank.Money.Transfers
import NovaBank.Replica.Runs

/-!
# An observed balance is spent once

A transfer states the balances that the proxy has observed, and a replica accepts it only while both
are right. An accepted transfer of an amount other than 0 leaves its sender with another balance,
modulo `2^64` and also when the sender is the receiver (`balanceOf_of_accepted`). So a second request
from the same observed balance is refused as long as nothing else has changed the balance
(`no_double_spend`).
-/

namespace NovaBank.Money

open Java Replica Proxy

/-- The request that the controller sends for the results of `getTransferInfo`. -/
def transferCommand (sender receiver : String)
    (info : BankServiceReplicationJedisCluster.TransferInfo) : Command :=
  Proxy.transferMoney (some sender) info.fromSaldo (some receiver) info.toSaldo info.fromAmount
    info.toAmount

section Spending

variable {jvm : Jvm} {st st' : BankService} {sender receiver : String} {amount : Int64} {r r' : Redis}
  {info : BankServiceReplicationJedisCluster.TransferInfo} {reply : Except JavaException Reply}

/-- An accepted transfer leaves its sender with a balance other than the one that it states. -/
theorem balanceOf_of_accepted
    (hinfo : BankServiceReplicationJedisCluster.getTransferInfo sender receiver amount r =
      (.ok (some info), r'))
    (nonzero : amount ≠ 0)
    (hrun : st.appExecuteOrdered jvm (transferCommand sender receiver info) = (reply, st'))
    (haccepted : accepted reply = true) :
    balanceOf st'.bankRepo (some sender) ≠ some info.fromSaldo := by
  obtain ⟨hfrom, hto⟩ := BankServiceReplicationJedisCluster.getTransferInfo_amounts hinfo
  rcases ordered_transferMoney_cases hrun with ⟨-, hacc⟩ | ⟨b, c, hb, -, hc, -, -, husers⟩
  · rw [hacc] at haccepted
    cases haccepted
  · rw [balanceOf_of_users husers, balanceOf_setTwo hb hc, ne_eq]
    by_cases e : receiver = sender
    · -- The sender's own credit comes second, and adds to the stated balance.
      subst e
      rw [if_pos rfl, Option.some.injEq, hto,
        BankServiceReplicationJedisCluster.getTransferInfo_self hinfo, add_eq_left]
      exact nonzero
    · rw [if_neg (by simpa using e), if_pos rfl, Option.some.injEq, hfrom, sub_eq_self]
      exact nonzero

/-- A transfer that states another balance of its sender is refused and touches no account. -/
theorem refused_of_balance (hne : balanceOf st.bankRepo (some sender) ≠ some info.fromSaldo)
    (hrun : st.appExecuteOrdered jvm (transferCommand sender receiver info) = (reply, st')) :
    accepted reply = false ∧ ∀ u, balanceOf st'.bankRepo u = balanceOf st.bankRepo u := by
  rcases ordered_transferMoney_cases hrun with ⟨husers, hacc⟩ | ⟨b, c, hb, hamount, -⟩
  · exact ⟨hacc, fun u => balanceOf_of_users husers u⟩
  · exact (hne (by simp [balanceOf, hb, hamount])).elim

end Spending

/-- **An observed balance is spent once:** the replica accepts a transfer of an amount other than 0
that `getTransferInfo` has built, and then executes any actions none of which changes the sender's
balance. Then it refuses every other transfer of the sender from the same observed balance, whatever
its receiver and amounts are, and all balances stay as they are. -/
theorem no_double_spend (jvm : Jvm) (st : BankService) (sender receiver₁ receiver₂ : String)
    (amount : Int64) (nonzero : amount ≠ 0) (r r' : Redis)
    (info₁ info₂ : BankServiceReplicationJedisCluster.TransferInfo)
    (hinfo : BankServiceReplicationJedisCluster.getTransferInfo sender receiver₁ amount r =
      (.ok (some info₁), r'))
    (observed : info₁.fromSaldo = info₂.fromSaldo)
    (haccepted : accepted (st.appExecuteOrdered jvm (transferCommand sender receiver₁ info₁)).1 = true)
    (xs : List Action)
    (kept : ∀ ys x, ys ++ [x] <+: xs →
      balanceOf ((st.appExecuteOrdered jvm (transferCommand sender receiver₁ info₁)).2.runAll jvm
          (ys ++ [x])).bankRepo (some sender) =
        balanceOf ((st.appExecuteOrdered jvm (transferCommand sender receiver₁ info₁)).2.runAll jvm
          ys).bankRepo (some sender)) :
    let st' := (st.appExecuteOrdered jvm (transferCommand sender receiver₁ info₁)).2.runAll jvm xs
    accepted (st'.appExecuteOrdered jvm (transferCommand sender receiver₂ info₂)).1 = false ∧
      ∀ u, balanceOf (st'.appExecuteOrdered jvm (transferCommand sender receiver₂ info₂)).2.bankRepo u =
        balanceOf st'.bankRepo u := by
  intro st'
  have hspent := balanceOf_of_accepted hinfo nonzero Prod.mk.eta.symm haccepted
  -- The balance is the same at every point of the run.
  have hsame : balanceOf st'.bankRepo (some sender) = balanceOf
      (st.appExecuteOrdered jvm (transferCommand sender receiver₁ info₁)).2.bankRepo (some sender) := by
    refine (Run.forall_prefix_iff (P := fun ys => balanceOf ((st.appExecuteOrdered jvm
      (transferCommand sender receiver₁ info₁)).2.runAll jvm ys).bankRepo (some sender) = balanceOf
      (st.appExecuteOrdered jvm (transferCommand sender receiver₁ info₁)).2.bankRepo (some sender))
      rfl ?_ xs).mpr kept xs (List.prefix_refl xs)
    intro ys x hys
    rw [hys]
  exact refused_of_balance (by rw [hsame, ← observed]; exact hspent) Prod.mk.eta.symm

/-- After 5 of the 20 of `alice` went to `bob`, and `bob` made a deposit, a transfer of 7 from the
observed 20 is refused, whether it goes to `bob` or back to `alice`. -/
theorem no_double_spend_alice :
    let st := ((twoUsers "bob").appExecuteOrdered transferJvm
      (transferCommand "alice" "bob" ⟨20, 10, 15, 15⟩)).2.runAll transferJvm
      [.ordered (Proxy.createMoney (some "bob") 15 16)]
    balanceOf st.bankRepo (some "alice") = some 15 ∧ balanceOf st.bankRepo (some "bob") = some 16 ∧
      (BankServiceReplicationJedisCluster.getTransferInfo "alice" "alice" 7 cachedUsers).1 =
        .ok (some ⟨20, 20, 13, 27⟩) ∧
      accepted (st.appExecuteOrdered transferJvm
        (transferCommand "alice" "alice" ⟨20, 20, 13, 27⟩)).1 = false ∧
      ∀ u, balanceOf (st.appExecuteOrdered transferJvm
        (transferCommand "alice" "alice" ⟨20, 20, 13, 27⟩)).2.bankRepo u = balanceOf st.bankRepo u := by
  have h := no_double_spend transferJvm (twoUsers "bob") "alice" "bob" "alice" 5 (by decide)
    cachedUsers
    (BankServiceReplicationJedisCluster.getTransferInfo "alice" "bob" 5 cachedUsers).2
    ⟨20, 10, 15, 15⟩ ⟨20, 20, 13, 27⟩ (by decide) rfl (by decide)
    [.ordered (Proxy.createMoney (some "bob") 15 16)] ?_
  · exact ⟨by decide, by decide, by decide, h⟩
  · intro ys x hx
    -- The only step is the deposit of `bob`.
    obtain ⟨rfl, rfl⟩ : ys = [] ∧ x = .ordered (Proxy.createMoney (some "bob") 15 16) := by
      have hlen := hx.length_le
      simp only [List.length_append, List.length_singleton] at hlen
      obtain rfl : ys = [] := List.eq_nil_of_length_eq_zero (by omega)
      exact ⟨rfl, by simpa using hx⟩
    decide

end NovaBank.Money
