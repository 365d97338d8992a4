import NovaBank.Money.Moves
import NovaBank.Replica.Attribution

/-!
# Who may lower a balance

`PUT /amount` and `PUT /money` take the users whose balances they write from the parameters of the
request, and nobody compares them with the subject of the token. The operations of contracts are
executed for the static owner, who need not be the uploader, and their amounts may be negative.

A run is made of requests with their subjects, of operations that contracts queue, and of their
executions (`Deed`). `no_foreign_debit_iff`: nobody ever lowers the balance of somebody else exactly
when every write of a step to the balance of somebody else spares it.
-/

namespace NovaBank.Money

open Java Replica Proxy

/-- A step of a run in which users act. -/
inductive Deed where
  /-- A request of a user to the controller. -/
  | rest (r : Rest)
  /-- A request that does not come from the controller. -/
  | access (a : Access)
  /-- The instance number `n` of a contract queues an operation. -/
  | queue (n : ℕ) (op : String)
  /-- The runner executes the queued operation number `m` as one of the contract `i`. -/
  | execute (now : Int64) (i : Int32) (m : ℕ)

namespace Deed

/-- The step of the replica. -/
def step : Deed → Attributed.Step
  | rest r => .access (.ordered r.command)
  | access a => .access a
  | queue n op => .queue n op
  | execute now i m => .execute now i m

/-- Who acts: the subject of the token, or the uploader of the contract that queued the operation. -/
def actor (t : Attributed) : Deed → Option JString
  | rest r => r.subject
  | execute _ _ m => t.queued[m]?.map fun q => q.1.uploader
  | access _ | queue _ _ => none

/-- What the actor makes the replica do. -/
def move (t : Attributed) : Deed → Option Move
  | rest r => some (.rest r)
  | execute now i m => t.queued[m]?.map fun q => .operation now i q.2
  | access _ | queue _ _ => none

end Deed

/-- The replica after some steps, from the empty repository. -/
def afterDeeds (jvm : Jvm) (xs : List Deed) : Attributed := Attributed.run jvm (xs.map Deed.step)

/-- A balance `v` that is written as `base` and `delta` more does not get lower: the sum is a `long`
that is not below it, or it wraps round to one. -/
def Spares (v base : Int64) (delta : ℤ) : Prop :=
  (v.toInt ≤ base.toInt + delta ∧ base.toInt + delta < 2^63) ∨
    (base.toInt + delta < -2^63 ∧ v.toInt ≤ base.toInt + delta + 2^64) ∨
    v.toInt ≤ base.toInt + delta - 2^64

section Authority

variable {jvm : Jvm} {t : Attributed} {x : Deed} {a u : JString}

/-- The replica after one more deed. -/
theorem afterDeeds_concat (xs : List Deed) (x : Deed) :
    afterDeeds jvm (xs ++ [x]) = (afterDeeds jvm xs).step jvm x.step := by
  rw [afterDeeds, List.map_append]
  exact Attributed.run_concat jvm (xs.map Deed.step) x.step

/-- At every point of a run of deeds the maps agree. -/
theorem afterDeeds_indexed (xs : List Deed) : Indexed (afterDeeds jvm xs).service.bankRepo :=
  Attributed.run_indexed jvm (xs.map Deed.step)

/-- A step that somebody takes is a move of the replica. -/
theorem Deed.exists_move (jvm : Jvm) (hactor : x.actor t = some a) :
    ∃ m, x.move t = some m ∧ (t.step jvm x.step).service = m.action.run jvm t.service := by
  cases x with
  | rest r => exact ⟨.rest r, rfl, rfl⟩
  | access b => cases hactor
  | queue n op => cases hactor
  | execute now i m =>
    obtain ⟨⟨inst, op⟩, hq, -⟩ := Option.map_eq_some_iff.mp hactor
    refine ⟨.operation now i op, by simp [Deed.move, hq], ?_⟩
    simp [Attributed.step, Deed.step, hq, Move.action]

/-- The new balance is not below `v` exactly when the write spares `v`. -/
theorem Writes.spares_iff {st : BankService} {m : Move} {base : Int64} {delta : ℤ}
    (h : Writes jvm st m u base delta) (v : Int64) :
    v ≤ Int64.ofInt (base.toInt + delta) ↔ Spares v base delta := by
  obtain ⟨hlo, hhi⟩ := h.sum_bounds
  have := v.le_toInt
  rw [Int64.le_iff_toInt_le, toInt_ofInt_cases hlo hhi, Spares]
  split_ifs <;> omega

/-- A step of somebody does not lower a balance exactly when all its writes spare it. -/
theorem Deed.not_lowered_iff (h : Indexed t.service.bankRepo) (hactor : x.actor t = some a)
    {v : Int64} (hv : balanceOf t.service.bankRepo u = some v) :
    (∀ w, balanceOf (t.step jvm x.step).service.bankRepo u = some w → v ≤ w) ↔
      ∀ m base delta, x.move t = some m → Writes jvm t.service m u base delta →
        Spares v base delta := by
  obtain ⟨m, hm, hstep⟩ := Deed.exists_move jvm hactor
  rw [hstep]
  constructor
  · intro hnot m' base delta hm' hwrites
    obtain rfl : m = m' := Option.some.inj (hm.symm.trans hm')
    exact (hwrites.spares_iff v).mp (hnot _ (balanceOf_of_writes h hwrites))
  · intro hspares w hw
    -- A balance that is lowered has changed, and a change is a write.
    by_cases hsame : balanceOf (m.action.run jvm t.service).bankRepo u =
        balanceOf t.service.bankRepo u
    · rw [hsame, hv] at hw
      cases hw
      exact Int64.le_refl v
    · obtain ⟨base, delta, hwrites⟩ := writes_of_ne h hsame
      rw [balanceOf_of_writes h hwrites] at hw
      rw [← Option.some.inj hw]
      exact (hwrites.spares_iff v).mpr (hspares m base delta hm hwrites)

end Authority

/-- **Nobody spends the money of somebody else:** in a run of requests to the controller, other
requests, and operations of contracts, no request lowers the balance of a user other than its
subject, and no operation that of a user other than the uploader of its contract, exactly when every
write of such a step to the balance of such a user spares it. -/
theorem no_foreign_debit_iff (jvm : Jvm) (xs : List Deed) :
    (∀ ys x, ys ++ [x] <+: xs → ∀ a u v w, x.actor (afterDeeds jvm ys) = some a → u ≠ a →
      balanceOf (afterDeeds jvm ys).service.bankRepo u = some v →
      balanceOf (afterDeeds jvm (ys ++ [x])).service.bankRepo u = some w → v ≤ w) ↔
    ∀ ys x, ys ++ [x] <+: xs → ∀ a u v, x.actor (afterDeeds jvm ys) = some a → u ≠ a →
      balanceOf (afterDeeds jvm ys).service.bankRepo u = some v →
      ∀ m base delta, x.move (afterDeeds jvm ys) = some m →
        Writes jvm (afterDeeds jvm ys).service m u base delta → Spares v base delta := by
  -- One deed at a time: the run is reached by the deeds before it.
  constructor
  · intro h ys x hprefix a u v hactor hne hv
    refine (Deed.not_lowered_iff (afterDeeds_indexed ys) hactor hv).mp fun w hw => ?_
    rw [← afterDeeds_concat] at hw
    exact h ys x hprefix a u v w hactor hne hv hw
  · intro h ys x hprefix a u v w hactor hne hv hw
    rw [afterDeeds_concat] at hw
    exact (Deed.not_lowered_iff (afterDeeds_indexed ys) hactor hv).mpr
      (h ys x hprefix a u v hactor hne hv) w hw

/-! ## Money that is taken -/

/-- A cache with `bob`, who has 10, and `eve`, who has nothing. -/
def bobAndEve : Java.Redis :=
  (BankServiceReplicationJedisCluster.addNewUser "eve" "secret" (some 0)
    (BankServiceReplicationJedisCluster.addNewUser "bob" "secret" (some 10) Redis.empty).2).2

/-- The registrations of both, and a contract of `eve` that queues a negative transfer to `bob`. -/
def eveUploads : List Deed :=
  [.rest (.createNew (some "bob") (some "secret") (some 10) none),
    .rest (.createNew (some "eve") (some "secret") (some 0) none),
    .rest (.smartContract (some "eve") []),
    .queue 0 "TRANSFER_MONEY bob -3"]

/-- The transfer of 10 from `bob` to `eve` that `eve` asks for, as `PUT /amount` makes it. -/
def eveTransfers : Rest := .transferMoney (some "eve") (some "bob") (some "eve") 10 0 10

/-- A machine on which every contract queues that transfer. -/
def takingJvm : Jvm := Jvm.plain (ContractClass.queueing ["TRANSFER_MONEY bob -3"])

/-- **Money that is taken:** the token of `eve` is good enough to transfer the money of `bob`, and so
is a contract of `eve` with a negative amount. -/
theorem foreign_debit :
    RestAPIController.transferMoney "bob" "eve" 10 bobAndEve = some eveTransfers.command ∧
      (Deed.rest eveTransfers).actor (afterDeeds takingJvm eveUploads) = some (some "eve") ∧
      (Deed.execute 0 0 0).actor (afterDeeds takingJvm eveUploads) = some (some "eve") ∧
      balanceOf (afterDeeds takingJvm eveUploads).service.bankRepo (some "bob") = some 10 ∧
      balanceOf (afterDeeds takingJvm (eveUploads ++ [.rest eveTransfers])).service.bankRepo
        (some "bob") = some 0 ∧
      balanceOf (afterDeeds takingJvm (eveUploads ++ [.execute 0 0 0])).service.bankRepo
        (some "bob") = some 7 := by
  decide

end NovaBank.Money
