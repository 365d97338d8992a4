import NovaBank.Common.Run
import NovaBank.Money.Moves

/-!
# No negative balances

The cache, the contracts and the bids check that the sender has enough, but the replica does not, and
`getTransferInfo` goes on when the check of the cache has failed. The amounts of registrations,
deposits and transfers may be negative, and sums wrap round. `balances_nonneg_iff`: no balance is ever
negative in a run exactly when every balance that a move of the run writes covers the change.
-/

namespace NovaBank.Money

open Java Replica Proxy

/-- A balance that changes by `delta` stays a `long` that is not negative: the sum is one, or it is so
low that it wraps round to one. -/
def Covers (base : Int64) (delta : ℤ) : Prop :=
  (0 ≤ base.toInt + delta ∧ base.toInt + delta < 2^63) ∨ base.toInt + delta < -2^63

/-- The replica after some moves, from the empty repository. -/
def afterMoves (jvm : Jvm) (xs : List Move) : BankService :=
  BankService.new.runAll jvm (xs.map Move.action)

section Solvency

variable {jvm : Jvm} {st : BankService} {x : Move} {u : JString} {base : Int64} {delta : ℤ}

/-- The replica after one more move. -/
theorem afterMoves_concat (xs : List Move) (x : Move) :
    afterMoves jvm (xs ++ [x]) = x.action.run jvm (afterMoves jvm xs) := by
  rw [afterMoves, List.map_append]
  exact BankService.runAll_concat (xs.map Move.action) x.action BankService.new

/-- At every point of a run of moves the maps agree. -/
theorem afterMoves_indexed (xs : List Move) : Indexed (afterMoves jvm xs).bankRepo :=
  reached_indexed (xs.map Move.action)

/-- The new balance is not negative exactly when the old one covers the change. -/
theorem Writes.nonneg_iff (h : Writes jvm st x u base delta) :
    0 ≤ Int64.ofInt (base.toInt + delta) ↔ Covers base delta := by
  obtain ⟨hlo, hhi⟩ := h.sum_bounds
  rw [Int64.le_iff_toInt_le, toInt_ofInt_cases hlo hhi, Int64.toInt_zero, Covers]
  split_ifs <;> omega

end Solvency

/-- **No negative balances:** in a run of requests of the controller, auction requests and contract
operations from the empty repository, no user ever has a negative balance exactly when every balance
that a move of the run writes covers the change. -/
theorem balances_nonneg_iff (jvm : Jvm) (xs : List Move) :
    (∀ ys, ys <+: xs → ∀ u v, balanceOf (afterMoves jvm ys).bankRepo u = some v → 0 ≤ v) ↔
      ∀ ys x, ys ++ [x] <+: xs → ∀ u base delta,
        Writes jvm (afterMoves jvm ys) x u base delta → Covers base delta := by
  have hempty : ∀ u v, balanceOf (afterMoves jvm []).bankRepo u = some v → 0 ≤ v := by
    intro u v hv
    cases hv
  refine Run.forall_prefix_iff hempty (fun ys x h => ?_) xs
  rw [afterMoves_concat]
  constructor
  -- A balance that a move writes is covered; the others are as before.
  · intro hnonneg u base delta hwrites
    exact hwrites.nonneg_iff.mp (hnonneg u _ (balanceOf_of_writes (afterMoves_indexed ys) hwrites))
  · intro hcovers u v hv
    by_cases hsame : balanceOf (x.action.run jvm (afterMoves jvm ys)).bankRepo u =
        balanceOf (afterMoves jvm ys).bankRepo u
    · exact h u v (hsame ▸ hv)
    · obtain ⟨base, delta, hwrites⟩ := writes_of_ne (afterMoves_indexed ys) hsame
      rw [balanceOf_of_writes (afterMoves_indexed ys) hwrites] at hv
      rw [← Option.some.inj hv]
      exact hwrites.nonneg_iff.mpr (hcovers u base delta hwrites)

/-! ## An overdraft -/

/-- A cache with `alice`, who has 10, and `bob`, who has nothing. -/
def aliceAndBob : Java.Redis :=
  (BankServiceReplicationJedisCluster.addNewUser "bob" "secret" (some 0)
    (BankServiceReplicationJedisCluster.addNewUser "alice" "secret" (some 10) Redis.empty).2).2

/-- The registrations of both. -/
def registrations : List Move :=
  [.rest (.createNew (some "alice") (some "secret") (some 10) none),
    .rest (.createNew (some "bob") (some "secret") (some 0) none)]

/-- The transfer of 15 from `alice` to `bob`, as `PUT /amount` makes it from this cache. -/
def overdraft : Rest := .transferMoney (some "alice") (some "alice") (some "bob") 10 0 15

/-- **An overdraft:** the cache refuses to transfer 15 out of 10, the request is sent all the same,
and the replica executes it. -/
theorem overdraft_accepted :
    (BankServiceReplicationJedisCluster.transferMoney "alice" "bob" 15 aliceAndBob).1 = .ok false ∧
      RestAPIController.transferMoney "alice" "bob" 15 aliceAndBob = some overdraft.command ∧
      balanceOf (afterMoves (Jvm.plain (ContractClass.queueing [])) registrations).bankRepo
        (some "alice") = some 10 ∧
      balanceOf (afterMoves (Jvm.plain (ContractClass.queueing []))
        (registrations ++ [.rest overdraft])).bankRepo (some "alice") = some (-5) := by
  decide

end NovaBank.Money
