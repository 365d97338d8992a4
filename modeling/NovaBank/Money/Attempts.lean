import NovaBank.Common.Run
import NovaBank.Money.Balances

/-!
# Deposits and transfers by requests with absolute balances

`createMoney` and `transferMoney` of
`csd/src/main/java/fct/unl/pt/csd/Controller/RestAPIController.java` send the balances that they
have read from a cache, which may be stale, together with the balances that should result. The
replica compares the former with its own before it writes the latter. Any number of proxies make
such attempts, and the replica executes them in some order.

The comparison of a deposit is not exact: `compareAmount` returns the balance, negated on a
mismatch, and only its sign is looked at. So a mismatch passes when the balance is zero or negative,
and money is lost or made up. `balances_account_iff`: the balances are accounted for by the accepted
attempts at every point of a run exactly when no deposit is executed against such a balance.
-/

namespace NovaBank.Money

open Java Replica

/-- One attempt of a proxy, with the balances that it read from its cache. -/
inductive Attempt where
  /-- `createMoney(who, amount)`. -/
  | deposit (who : JString) (original amount : Int64)
  /-- `transferMoney(from, to, amount)` between two users. -/
  | transfer (sender receiver : JString) (distinct : sender ≠ receiver)
      (fromSaldo toSaldo amount : Int64)

namespace Attempt

/-- The request of an attempt. -/
def command : Attempt → Command
  | .deposit who original amount => Proxy.createMoney who original (original + amount)
  | .transfer sender receiver _ fromSaldo toSaldo amount =>
    Proxy.transferMoney sender fromSaldo receiver toSaldo (fromSaldo - amount) (toSaldo + amount)

/-- What an accepted attempt should add to the balance of a user. -/
def flow (u : JString) : Attempt → Int64
  | .deposit who _ amount => if who = u then amount else 0
  | .transfer sender receiver _ _ _ amount =>
    (if receiver = u then amount else 0) - if sender = u then amount else 0

/-- A deposit is exact in a state when its user has the balance that it was built from, or a
positive one, or the least one, whose negation is itself. -/
def Exact (s : BankRepository) : Attempt → Prop
  | .deposit who original _ =>
    ∀ v, balanceOf s who = some v → original = v ∨ 0 < v ∨ v = Int64.minValue
  | .transfer .. => True

end Attempt

section Run

variable (jvm : Jvm)

/-- The state after some attempts. -/
def after (xs : List Attempt) (st : BankService) : BankService :=
  xs.foldl (fun st x => (st.appExecuteOrdered jvm x.command).2) st

/-- The sum of what the accepted ones among some attempts should add to the balance of a user. -/
def credited : List Attempt → BankService → JString → Int64
  | [], _, _ => 0
  | x :: xs, st, u =>
    (if accepted (st.appExecuteOrdered jvm x.command).1 then x.flow u else 0) +
      credited xs (st.appExecuteOrdered jvm x.command).2 u

/-- Without attempts nothing has changed. -/
@[simp] theorem after_nil (st : BankService) : after jvm [] st = st := rfl

/-- The state after one more attempt. -/
theorem after_append_singleton (xs : List Attempt) (x : Attempt) (st : BankService) :
    after jvm (xs ++ [x]) st = ((after jvm xs st).appExecuteOrdered jvm x.command).2 := by
  simp [after]

/-- What is credited to a user after one more attempt. -/
theorem credited_append_singleton (xs : List Attempt) (x : Attempt) (st : BankService) (u : JString) :
    credited jvm (xs ++ [x]) st u = credited jvm xs st u +
      if accepted ((after jvm xs st).appExecuteOrdered jvm x.command).1 then x.flow u else 0 := by
  induction xs generalizing st with
  | nil =>
    show _ + 0 = 0 + _
    rw [add_zero, zero_add, after_nil]
  | cons y ys ih =>
    rw [List.cons_append, credited, credited, ih, add_assoc]
    rfl

end Run

/-! ## One attempt -/

/-- Whether one attempt is accounted for: every balance moves by what it should, if it is accepted,
and else not at all. -/
def Accounted (jvm : Jvm) (st : BankService) (x : Attempt) : Prop :=
  ∀ u, balanceOf (st.appExecuteOrdered jvm x.command).2.bankRepo u =
    (balanceOf st.bankRepo u).map
      (· + if accepted (st.appExecuteOrdered jvm x.command).1 then x.flow u else 0)

/-- Adding nothing to an amount leaves it, also when it is `null`. -/
theorem map_add_zero (o : JLong) : o.map (· + 0) = o := by
  cases o <;> simp

/-- A deposit is accounted for exactly when it is exact. -/
theorem accounted_deposit_iff (jvm : Jvm) (st : BankService) (who : JString)
    (original amount : Int64) :
    Accounted jvm st (.deposit who original amount) ↔
      (Attempt.deposit who original amount).Exact st.bankRepo := by
  obtain ⟨⟨reply, st'⟩, hrun⟩ : ∃ r, st.appExecuteOrdered jvm
    (Proxy.createMoney who original (original + amount)) = r := ⟨_, rfl⟩
  simp only [Accounted, Attempt.command, hrun, Attempt.Exact, Attempt.flow]
  rcases ordered_createMoney_cases hrun with ⟨hs, hacc, hneg⟩ | ⟨b, v, hb, ha, h0, hacc, hs⟩
  · -- Refused: nothing moves, and the compared amount was negative.
    simp only [balanceOf_of_users hs, hacc, Bool.false_eq_true, if_false, map_add_zero,
      implies_true, true_iff]
    intro v hv
    by_cases e : v = original
    · exact .inl e.symm
    · have := hneg v hv
      rw [if_neg e, neg_nonneg_iff, not_not] at this
      exact .inr this
  · have hbal : balanceOf st.bankRepo who = some v := by simp [balanceOf, hb, ha]
    simp only [balanceOf_of_users hs, hacc, if_true, balanceOf_setAmount hb]
    constructor
    · intro h w hw
      have hwho := h who
      rw [hbal] at hw
      cases hw
      rw [if_pos rfl, if_pos rfl, hbal, Option.map_some, Option.some.injEq] at hwho
      exact .inl (add_right_cancel hwho)
    · intro h u
      -- An accepted mismatch would have a balance that the condition excludes.
      have hov : original = v := by
        by_contra e
        rw [if_neg (fun e' => e e'.symm), neg_nonneg_iff] at h0
        rcases h v hbal with e' | h'
        · exact e e'
        · exact h0 h'
      by_cases e : who = u
      · subst e
        rw [if_pos rfl, if_pos rfl, hbal, hov, Option.map_some]
      · rw [if_neg e, if_neg e, map_add_zero]

/-- A transfer between two users is always accounted for. -/
theorem accounted_transfer (jvm : Jvm) (st : BankService) (sender receiver : JString)
    (distinct : sender ≠ receiver) (fromSaldo toSaldo amount : Int64) :
    Accounted jvm st (.transfer sender receiver distinct fromSaldo toSaldo amount) := by
  obtain ⟨⟨reply, st'⟩, hrun⟩ : ∃ r, st.appExecuteOrdered jvm (Proxy.transferMoney sender fromSaldo
    receiver toSaldo (fromSaldo - amount) (toSaldo + amount)) = r := ⟨_, rfl⟩
  simp only [Accounted, Attempt.command, hrun, Attempt.flow]
  rcases ordered_transferMoney_cases hrun with
    ⟨hs, hacc⟩ | ⟨b, c, hb, hfrom, hc, hto, hacc, hs⟩
  · simp only [balanceOf_of_users hs, hacc, Bool.false_eq_true, if_false, map_add_zero,
      implies_true]
  -- The receiver's balance is written after the sender's, which matters only when they are one.
  · intro u
    simp only [balanceOf_of_users hs, hacc, if_true, balanceOf_setTwo hb hc]
    by_cases er : receiver = u
    · have es : sender ≠ u := fun e => distinct (e.trans er.symm)
      have hbal : balanceOf st.bankRepo u = some toSaldo := by simp [balanceOf, ← er, hc, hto]
      simp [er, es, hbal]
    · by_cases es : sender = u
      · have hbal : balanceOf st.bankRepo u = some fromSaldo := by simp [balanceOf, ← es, hb, hfrom]
        simp [er, es, hbal, sub_eq_add_neg]
      · simp [er, es]

/-- An attempt is accounted for exactly when it is exact. -/
theorem accounted_iff (jvm : Jvm) (st : BankService) (x : Attempt) :
    Accounted jvm st x ↔ x.Exact st.bankRepo := by
  cases x with
  | deposit who original amount => exact accounted_deposit_iff jvm st who original amount
  | transfer sender receiver distinct fromSaldo toSaldo amount =>
    exact iff_of_true (accounted_transfer jvm st sender receiver distinct fromSaldo toSaldo amount)
      trivial

/-! ## Every run -/

/-- **No lost or phantom money:** from any state, at every point of a run of attempts each balance
is the initial one with what the accepted attempts so far should have added, exactly when every
deposit of the run was exact in the state that it met. -/
theorem balances_account_iff (jvm : Jvm) (st : BankService) (xs : List Attempt) :
    (∀ ys, ys <+: xs → ∀ u, balanceOf (after jvm ys st).bankRepo u =
        (balanceOf st.bankRepo u).map (· + credited jvm ys st u)) ↔
      ∀ ys x, ys ++ [x] <+: xs → x.Exact (after jvm ys st).bankRepo := by
  refine Run.forall_prefix_iff (fun u => by simp [credited]) (fun ys x h => ?_) xs
  rw [← accounted_iff jvm, Accounted]
  apply forall_congr'
  intro u
  rw [after_append_singleton, credited_append_singleton, h u]
  simp only [Option.map_map, Function.comp_def, add_assoc]

/-- **Phantom money:** against a balance of 0, a deposit of 5 that was built from a stale balance of
100 is accepted, and the balance becomes 105. -/
theorem stale_deposit_makes_money :
    accepted ((bobWith 0).appExecuteOrdered (Jvm.plain (ContractClass.queueing []))
        (Attempt.deposit (some "bob") 100 5).command).1 = true ∧
      balanceOf (bobWith 0).bankRepo (some "bob") = some 0 ∧
      balanceOf (after (Jvm.plain (ContractClass.queueing [])) [.deposit (some "bob") 100 5]
        (bobWith 0)).bankRepo (some "bob") = some 105 := by
  decide

end NovaBank.Money
