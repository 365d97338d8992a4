import NovaBank.Java.FailFast
import NovaBank.Proxy.Commands
import NovaBank.Replica.Service

/-!
# The threads of the contracts and of the runner

The calls that the contracts and `run` of `SmartContractRunner` make on the lists of operations, each
as a step of its own, in any order: a contract adds an operation to its list; the runner reads the
list of a contract, iterates over it, and for each operation clears the list and executes the
operation. Ledger requests may come in between. The lists are drained as `Java/FailFast.lean` says,
with the static list of `AuctionSmartContract` and the own lists of contracts as the variables, and
they are those of the service (`Threads.Linked`).

`operations_delivered_iff`: no operation of a contract is lost, executed twice or out of order exactly
when no operation is queued while the runner is in the middle of its list, and the thread of the
runner does not die with operations left. Without interruption, the steps of the runner on one
contract are the loop `runOperations` (`visit_eq_runOperations`).
-/

namespace NovaBank.Replica

open Java

/-! ## The lists of operations -/

namespace SmartContractRunner

/-- The variable that holds the operations of the contract `i`: that of the base class, or its own.
-/
def listOf (sR : SmartContractRunner) (i : Int32) : Option (Option Int32) :=
  (sR.contracts.lookup i).map fun c => if c.operations.isSome then some i else none

/-- The operations in a variable. -/
def operationsIn (sR : SmartContractRunner) : Option Int32 → List String
  | none => sR.statics.operations
  | some i => ((sR.contracts.lookup i).bind SmartContract.operations).getD []

/-- `operations.add(op)` in a method of the contract `i`. -/
def addOperation (sR : SmartContractRunner) (i : Int32) (op : String) : SmartContractRunner :=
  match sR.contracts.lookup i with
  | none => sR
  | some c =>
    match c.operations with
    | none => { sR with statics := { sR.statics with operations := sR.statics.operations ++ [op] } }
    | some ops =>
      { sR with contracts := sR.contracts.insert i { c with operations := some (ops ++ [op]) } }

section Lists

variable {sR : SmartContractRunner} {i : Int32} {k : Option Int32}

/-- The variable of a contract: the static one for a contract without operations of its own. -/
theorem listOf_eq_some (h : sR.listOf i = some k) :
    ∃ c, sR.contracts.lookup i = some c ∧
      ((c.operations = none ∧ k = none) ∨ ∃ ops, c.operations = some ops ∧ k = some i) := by
  obtain ⟨c, hc, hk⟩ := Option.map_eq_some_iff.mp h
  refine ⟨c, hc, ?_⟩
  cases hops : c.operations with
  | none => exact .inl ⟨rfl, by simpa [hops] using hk.symm⟩
  | some ops => exact .inr ⟨ops, rfl, by simpa [hops] using hk.symm⟩

/-- `getOperations()` reads the variable of the contract. -/
theorem getOperations_eq (h : sR.listOf i = some k) :
    (sR.contracts.lookup i).map sR.getOperations = some (sR.operationsIn k) := by
  obtain ⟨c, hc, ⟨hops, rfl⟩ | ⟨ops, hops, rfl⟩⟩ := listOf_eq_some h <;>
    simp [operationsIn, getOperations, hc, hops]

/-- Putting a contract back with other operations changes its own variable only. -/
theorem operationsIn_insert {c : SmartContract} (ops : List String) (j : Option Int32) :
    ({ sR with contracts := sR.contracts.insert i { c with operations := some ops } } :
        SmartContractRunner).operationsIn j =
      if j = some i then ops else sR.operationsIn j := by
  cases j with
  | none => rfl
  | some j =>
    simp only [operationsIn, JavaMap.lookup_insert, Option.some.injEq]
    by_cases e : i = j
    · simp [e]
    · simp [e, Ne.symm e]

/-- Putting a contract back with other operations of its own leaves all variables where they are. -/
theorem listOf_insert {c : SmartContract} (hc : sR.contracts.lookup i = some c)
    (hops : c.operations.isSome) (ops : List String) (j : Int32) :
    ({ sR with contracts := sR.contracts.insert i { c with operations := some ops } } :
        SmartContractRunner).listOf j = sR.listOf j := by
  simp only [listOf, JavaMap.lookup_insert]
  by_cases e : i = j
  · subst e
    simp [hc, hops]
  · simp [e]

/-- An operation is added to one list, and the contracts keep their lists. -/
theorem addOperation_spec (h : sR.listOf i = some k) (op : String) :
    (∀ j, (sR.addOperation i op).operationsIn j =
      if j = k then sR.operationsIn j ++ [op] else sR.operationsIn j) ∧
    ∀ j, (sR.addOperation i op).listOf j = sR.listOf j := by
  obtain ⟨c, hc, ⟨hops, rfl⟩ | ⟨ops, hops, rfl⟩⟩ := listOf_eq_some h
  -- The static list, or the one of the contract itself.
  · simp only [addOperation, hc, hops]
    refine ⟨fun j => ?_, fun j => rfl⟩
    cases j <;> rfl
  · simp only [addOperation, hc, hops]
    refine ⟨fun j => ?_, listOf_insert hc (by simp [hops]) _⟩
    rw [operationsIn_insert]
    split_ifs with e
    · simp [e, operationsIn, hc, hops]
    · rfl

/-- One list is cleared, and the contracts keep their lists. -/
theorem clearOperations_spec (h : sR.listOf i = some k) :
    (∀ j, (sR.clearOperations i).operationsIn j = if j = k then [] else sR.operationsIn j) ∧
    ∀ j, (sR.clearOperations i).listOf j = sR.listOf j := by
  obtain ⟨c, hc, ⟨hops, rfl⟩ | ⟨ops, hops, rfl⟩⟩ := listOf_eq_some h
  · simp only [clearOperations, hc, hops]
    refine ⟨fun j => ?_, fun j => rfl⟩
    cases j <;> rfl
  · simp only [clearOperations, hc, hops]
    exact ⟨fun j => operationsIn_insert [] j, listOf_insert hc (by simp [hops]) []⟩

/-- Queueing does not end the thread. -/
theorem addOperation_alive (sR : SmartContractRunner) (i : Int32) (op : String) :
    (sR.addOperation i op).alive = sR.alive := by
  unfold addOperation
  split
  · rfl
  · split <;> rfl

/-- Nor does clearing. -/
theorem clearOperations_alive (sR : SmartContractRunner) (i : Int32) :
    (sR.clearOperations i).alive = sR.alive := by
  unfold clearOperations
  split
  · rfl
  · split <;> rfl

end Lists

end SmartContractRunner

namespace BankService

/-- What follows `clearOperations` in the inner loop of `run`. -/
def perform (jvm : Jvm) (now : Int64) (i : Int32) (op : String) (st : BankService) : BankService :=
  match st.sR.ownerOf i with
  | none => { st with sR := { st.sR with alive := false } }
  | some www =>
    match st.sR.dispatch jvm st.bankRepo i www (split " " op) with
    | .error _ => { st with sR := { st.sR with alive := false } }
    | .ok call => afterCall st.sR (callResult jvm now st.sR.j call st.bankRepo)

/-- Whether the execution of an operation throws: its words are not those of an operation, a user or
an amount that it needs is missing, or the call throws. -/
def throws (jvm : Jvm) (now : Int64) (i : Int32) (op : String) (st : BankService) : Bool :=
  match st.sR.ownerOf i with
  | none => true
  | some www =>
    match st.sR.dispatch jvm st.bankRepo i www (split " " op) with
    | .error _ => true
    | .ok call => !(callResult jvm now st.sR.j call st.bankRepo).1.isOk

/-- The body of the inner loop clears the list and performs the operation. -/
theorem runOperation_eq_perform (jvm : Jvm) (now : Int64) (i : Int32) (op : String)
    (st : BankService) :
    st.runOperation jvm now i op =
      { st with sR := st.sR.clearOperations i }.perform jvm now i op := rfl

/-- An exception ends the thread, and nothing else does. -/
theorem perform_sR (jvm : Jvm) (now : Int64) (i : Int32) (op : String) (st : BankService) :
    ∃ j, (st.perform jvm now i op).sR =
      { st.sR with j := j, alive := st.sR.alive && !st.throws jvm now i op } := by
  unfold perform throws
  -- Whatever throws ends the thread and keeps the last result.
  cases st.sR.ownerOf i with
  | none => exact ⟨st.sR.j, by simp⟩
  | some www =>
    dsimp only
    cases st.sR.dispatch jvm st.bankRepo i www (split " " op) with
    | error e => exact ⟨st.sR.j, by simp⟩
    | ok call =>
      simp only [afterCall]
      cases (callResult jvm now st.sR.j call st.bankRepo).1 with
      | error e => exact ⟨st.sR.j, by simp [Except.isOk, Except.toBool]⟩
      | ok j => exact ⟨j, by simp [Except.isOk, Except.toBool]⟩

end BankService

/-! ## The threads -/

/-- A replica with its threads: the service, the lists and the calls of the runner, and the contract
that the runner is at. -/
structure Threads where
  service : BankService
  drain : Drain (Option Int32) String
  i : Int32

namespace Threads

/-- A step of one of the threads. -/
inductive Step where
  /-- The contract `i` queues an operation. -/
  | queue (i : Int32) (op : String)
  /-- A request on the ledger is executed. -/
  | ledger (r : LedgerRequest)
  /-- The runner reads the list of the contract `i`. -/
  | visit (i : Int32)
  /-- The next call of the runner, at the time `now`. -/
  | next (now : Int64)

/-- The runner thread of a service is started. -/
def start (st : BankService) : Threads :=
  ⟨{ st with sR := { st.sR with alive := true } }, Drain.start st.sR.operationsIn, 0⟩

/-- The next call of the runner. -/
def next (jvm : Jvm) (now : Int64) (t : Threads) : Threads :=
  match t.drain.phase with
  | .clear _ _ =>
    { t with
      service := { t.service with sR := t.service.sR.clearOperations t.i }
      drain := t.drain.consume false }
  | .execute _ op =>
    { t with
      service := t.service.perform jvm now t.i op
      drain := t.drain.consume (t.service.throws jvm now t.i op) }
  | _ =>
    match (t.drain.consume false).phase with
    -- `ConcurrentModificationException`.
    | .ended =>
      { t with
        service := { t.service with sR := { t.service.sR with alive := false } }
        drain := t.drain.consume false }
    | _ => { t with drain := t.drain.consume false }

/-- One step. -/
def step (jvm : Jvm) (t : Threads) : Step → Threads
  | .queue i op =>
    match t.service.sR.listOf i with
    | none => t
    | some k =>
      { t with
        service := { t.service with sR := t.service.sR.addOperation i op }
        drain := t.drain.step (.append k [op]) }
  | .ledger r =>
    { t with
      service := { t.service with
        bankRepo := (BankService.finish (BankService.executeLedger jvm r t.service.bankRepo)).2 } }
  | .visit i =>
    match t.service.sR.listOf i, t.drain.phase with
    | some k, .waiting => { t with drain := t.drain.step (.read k), i := i }
    | _, _ => t
  | .next now => t.next jvm now

/-- Some steps. -/
def run (jvm : Jvm) (xs : List Step) (t : Threads) : Threads := xs.foldl (step jvm) t

/-- An operation is queued to a list that is open, and the runner throws only when nothing is left.
-/
def Safe (jvm : Jvm) (t : Threads) : Step → Prop
  | .queue i _ => ∀ k, t.service.sR.listOf i = some k → t.drain.Open k
  | .ledger _ | .visit _ => True
  | .next now => ∀ it op, t.drain.phase = .execute it op → t.service.throws jvm now t.i op →
      it.cursor = (t.drain.contents it).length ∧ ∀ k, t.drain.lists k = []

section Delivery

variable {jvm : Jvm} {t : Threads}

/-- The threads after one more step. -/
theorem run_concat (xs : List Step) (x : Step) (t : Threads) :
    t.run jvm (xs ++ [x]) = (t.run jvm xs).step jvm x := by
  simp [run]

/-- A step of the threads is a step of the drain, or leaves it alone. -/
theorem drain_step (t : Threads) (x : Step) :
    ((t.step jvm x).drain = t.drain ∧ t.Safe jvm x) ∨
      ∃ y, (t.step jvm x).drain = t.drain.step y ∧ (t.Safe jvm x ↔ t.drain.Safe y) := by
  -- A step that touches no list is safe; the others are those of the drain.
  cases x with
  | queue i op =>
    cases hk : t.service.sR.listOf i with
    | none => exact .inl ⟨by simp only [step, hk], by simp [Safe, hk]⟩
    | some k =>
      exact .inr ⟨.append k [op], by simp only [step, hk], by simp [Safe, Drain.Safe, hk]⟩
  | ledger r => exact .inl ⟨rfl, trivial⟩
  | visit i =>
    simp only [step]
    split
    · rename_i k hk hp
      exact .inr ⟨.read k, rfl, iff_of_true trivial trivial⟩
    · exact .inl ⟨rfl, trivial⟩
  | next now =>
    right
    cases hp : t.drain.phase with
    | execute it op =>
      refine ⟨.consume (t.service.throws jvm now t.i op), by simp only [step, next, hp]; rfl, ?_⟩
      simp only [Safe, Drain.Safe, hp, Phase.execute.injEq]
      constructor
      · rintro h hthrows it' op' ⟨rfl, rfl⟩
        exact h it op ⟨rfl, rfl⟩ hthrows
      · rintro h it' op' ⟨rfl, rfl⟩ hthrows
        exact h hthrows it op ⟨rfl, rfl⟩
    -- Every other call of the thread throws nothing of its own.
    | waiting | iterator k | hasNext it | next it | clear it op | ended =>
      refine ⟨.consume false, ?_, iff_of_true (by simp [Safe, hp]) (by simp [Drain.Safe])⟩
      simp only [step, next, hp]
      first | rfl | (split <;> rfl)

/-- The iterator of the runner is valid at every point of a run. -/
theorem run_valid (st : BankService) (xs : List Step) :
    ((start st).run jvm xs).drain.Valid := by
  refine Run.foldl_invariant (I := fun t : Threads => t.drain.Valid) (fun t x valid => ?_) xs trivial
  rcases drain_step t x with ⟨hsame, -⟩ | ⟨y, hstep, -⟩
  · rwa [hsame]
  · rw [hstep]
    exact Drain.valid_step valid y

end Delivery

/-! ## The service -/

section Service

variable {jvm : Jvm} {t : Threads}

/-- The drain is that of the service: the variables hold what the contracts and the base class hold,
the runner is at the variable of the contract that it visits, and it has ended when the thread has.
-/
structure Linked (t : Threads) : Prop where
  lists : ∀ k, t.drain.lists k = t.service.sR.operationsIn k
  visiting : ∀ k, t.drain.phase.key = some k → t.service.sR.listOf t.i = some k
  alive : t.service.sR.alive = true ↔ t.drain.phase ≠ .ended

/-- At the start, the lists of the drain are those of the contracts. -/
theorem linked_start (st : BankService) : (start st).Linked where
  lists k := by cases k <;> rfl
  visiting k h := by cases h
  alive := iff_of_true rfl nofun

/-- A call of the runner keeps the link. -/
theorem linked_next (h : t.Linked) (now : Int64) : (t.next jvm now).Linked := by
  -- The list of the contract is cleared in the phase between its element and the execution.
  cases hp : t.drain.phase with
  | clear it op =>
    have hkey : t.service.sR.listOf t.i = some it.key := h.visiting it.key (by rw [hp]; rfl)
    obtain ⟨hlists, hlistOf⟩ := SmartContractRunner.clearOperations_spec hkey
    have halive : t.service.sR.alive = true := h.alive.mpr (by simp [hp])
    have hnext : t.next jvm now =
        ⟨{ t.service with sR := t.service.sR.clearOperations t.i }, t.drain.cleared it op, t.i⟩ := by
      simp only [next, hp, Drain.consume]
    rw [hnext]
    refine ⟨fun k => ?_, fun k hk => ?_, ?_⟩
    · rw [hlists, ← h.lists]
      show Function.update t.drain.lists it.key [] k = _
      rw [Function.update_apply]
    · cases hk
      exact (hlistOf t.i).trans hkey
    · exact iff_of_true ((SmartContractRunner.clearOperations_alive _ _).trans halive)
        (by simp [Drain.cleared])
  | execute it op =>
    have halive : t.service.sR.alive = true := h.alive.mpr (by simp [hp])
    obtain ⟨j, hsR⟩ := t.service.perform_sR jvm now t.i op
    simp only [next, hp]
    refine ⟨fun k => ?_, fun k hk => ?_, ?_⟩
    · rw [Drain.consume_lists (by simp [hp]), h.lists, hsR]
      cases k <;> rfl
    · rw [hsR]
      exact h.visiting k (Drain.consume_key hk)
    · rw [hsR, halive]
      cases hthrows : t.service.throws jvm now t.i op <;> simp [Drain.consume, hp, Drain.ran]
  | waiting | iterator k | hasNext it | next it | ended =>
    have hlists : (t.drain.consume false).lists = t.drain.lists := Drain.consume_lists (by simp [hp]) _
    simp only [next, hp]
    split
    · rename_i hended
      refine ⟨fun k => ?_, fun k hk => h.visiting k (Drain.consume_key hk), ?_⟩
      · rw [hlists, h.lists]
        cases k <;> rfl
      · exact iff_of_false Bool.false_ne_true (not_not.mpr hended)
    · rename_i hended
      refine ⟨fun k => ?_, fun k hk => h.visiting k (Drain.consume_key hk), ?_⟩
      · rw [hlists, h.lists]
      · refine iff_of_true (h.alive.mpr fun he => ?_) hended
        exact hended (by simp [Drain.consume, he])

/-- Every step keeps the link. -/
theorem linked_step (h : t.Linked) (x : Step) : (t.step jvm x).Linked := by
  -- Only the queueing changes a list, and both sides append the same operation.
  cases x with
  | queue i op =>
    simp only [step]
    split
    · exact h
    · rename_i k hk
      obtain ⟨hlists, hlistOf⟩ := SmartContractRunner.addOperation_spec hk op
      refine ⟨fun j => ?_, fun j hj => (hlistOf t.i).trans (h.visiting j hj), ?_⟩
      · rw [hlists, ← h.lists]
        show Function.update t.drain.lists k (t.drain.lists k ++ [op]) j = _
        rw [Function.update_apply]
        split_ifs with e
        · rw [e]
        · rfl
      · rw [SmartContractRunner.addOperation_alive]
        exact h.alive
  | ledger r => exact ⟨h.lists, h.visiting, h.alive⟩
  | visit i =>
    simp only [step]
    split
    · rename_i k hk hp
      simp only [Drain.step, hp]
      refine ⟨h.lists, fun j hj => ?_, iff_of_true (h.alive.mpr (by simp [hp])) (by simp)⟩
      cases hj
      exact hk
    · exact h
  | next now => exact linked_next h now

/-- The drain is that of the service at every point of a run. -/
theorem run_linked (st : BankService) (xs : List Step) : ((start st).run jvm xs).Linked :=
  Run.foldl_invariant (I := Linked) (fun _ x h => linked_step h x) xs (linked_start st)

/-- The calls of the loop over `n` operations that nothing interrupts: four for each operation, and
the last `hasNext()`. -/
def loop : (now : ℕ → Int64) → ℕ → List Step
  | _, 0 => [.next 0]
  | now, n + 1 => List.replicate 4 (.next (now 0)) ++ loop (fun m => now (m + 1)) n

/-- The four calls for one operation: the body of the loop of the service, and the iterator is one
further, unless the thread has ended. -/
theorem run_body (jvm : Jvm) {it : Iteration (Option Int32) String} (hp : t.drain.phase = .hasNext it)
    (hlen : (t.drain.contents it).length = it.expected) (halive : t.service.sR.alive = true)
    (now : Int64) {op : String} (hop : (t.drain.contents it)[it.cursor]? = some op) :
    ∃ d, t.run jvm (List.replicate 4 (.next now)) =
        ⟨t.service.runOperation jvm now t.i op, d, t.i⟩ ∧
      ((t.service.runOperation jvm now t.i op).sR.alive = false ∧ d.phase = .ended ∨
        (t.service.runOperation jvm now t.i op).sR.alive = true ∧
          d.phase = .hasNext (it.advance.detach (t.drain.contents it))) := by
  obtain ⟨st, d, i⟩ := t
  dsimp only at hp hlen halive hop ⊢
  have hinside : it.cursor < (d.contents it).length := (List.getElem?_eq_some_iff.mp hop).1
  -- The drain after each of the four calls.
  have h1 : (⟨st, d, i⟩ : Threads).next jvm now = ⟨st, { d with phase := .next it }, i⟩ := by
    have hconsume : d.consume false = { d with phase := .next it } := by
      simp only [Drain.consume, hp, if_neg (Nat.ne_of_lt hinside)]
    simp only [next, hp, hconsume]
  have h2 : (⟨st, { d with phase := .next it }, i⟩ : Threads).next jvm now =
      ⟨st, { d with phase := .clear it.advance op }, i⟩ := by
    have hconsume : Drain.consume { d with phase := .next it } false =
        { d with phase := .clear it.advance op } := by
      have hsame : Drain.contents { d with phase := .next it } it = d.contents it := rfl
      simp only [Drain.consume, hsame, hlen, hop, if_true]
    simp only [next, hconsume]
  have h3 : (⟨st, { d with phase := .clear it.advance op }, i⟩ : Threads).next jvm now =
      ⟨{ st with sR := st.sR.clearOperations i },
        Drain.cleared { d with phase := .clear it.advance op } it.advance op, i⟩ := rfl
  have hrun : (⟨st, d, i⟩ : Threads).run jvm (List.replicate 4 (.next now)) =
      (⟨{ st with sR := st.sR.clearOperations i },
        Drain.cleared { d with phase := .clear it.advance op } it.advance op, i⟩ : Threads).next
          jvm now := by
    rw [← h3, ← h2, ← h1]
    rfl
  obtain ⟨j, hsR⟩ := BankService.perform_sR jvm now i op { st with sR := st.sR.clearOperations i }
  have hclear : (st.sR.clearOperations i).alive = true :=
    (SmartContractRunner.clearOperations_alive _ _).trans halive
  refine ⟨_, hrun, ?_⟩
  rw [BankService.runOperation_eq_perform, hsR]
  dsimp only
  rw [hclear]
  cases BankService.throws jvm now i op { st with sR := st.sR.clearOperations i } with
  | true => exact .inl ⟨rfl, rfl⟩
  | false => exact .inr ⟨rfl, rfl⟩

/-- A thread that has ended does nothing. -/
theorem run_ended (hp : t.drain.phase = .ended) (halive : t.service.sR.alive = false) {xs : List Step}
    (hxs : ∀ x ∈ xs, ∃ now, x = .next now) : t.run jvm xs = t := by
  have hnext : ∀ now, t.next jvm now = t := by
    intro now
    obtain ⟨⟨s, sR⟩, d, i⟩ := t
    dsimp only at hp halive
    simp only [next, Drain.consume, hp, ← halive]
  -- On the steps: an ended thread takes none.
  induction xs with
  | nil => rfl
  | cons x xs ih =>
    obtain ⟨now, rfl⟩ := hxs x List.mem_cons_self
    show (t.next jvm now).run jvm xs = t
    rw [hnext now]
    exact ih fun x hx => hxs x (List.mem_cons_of_mem _ hx)

/-- The loop consists of steps of the runner. -/
theorem loop_next (now : ℕ → Int64) (n : ℕ) : ∀ x ∈ loop now n, ∃ now', x = .next now' := by
  induction n generalizing now with
  | zero => simp [loop]
  | succ n ih =>
    intro x hx
    rcases List.mem_append.mp hx with hx | hx
    · exact ⟨_, List.eq_of_mem_replicate hx⟩
    · exact ih _ x hx

/-- A thread that has ended executes nothing. -/
theorem runOperations_ended {st : BankService} (h : st.sR.alive = false) (i : Int32)
    (now : ℕ → Int64) (ops : List String) : st.runOperations jvm i now ops = st := by
  cases ops with
  | nil => rfl
  | cons op ops => simp [BankService.runOperations, h]

/-- The loop over the rest of a list, from `hasNext()` on, is that of the service. -/
theorem run_loop {it : Iteration (Option Int32) String} (hp : t.drain.phase = .hasNext it)
    (hlen : (t.drain.contents it).length = it.expected) (hcursor : it.cursor ≤ it.expected)
    (halive : t.service.sR.alive = true) (now : ℕ → Int64) (ops : List String)
    (hops : (t.drain.contents it).drop it.cursor = ops) :
    (t.run jvm (loop now ops.length)).service = t.service.runOperations jvm t.i now ops := by
  induction ops generalizing t it now with
  | nil =>
    have hend : it.cursor = (t.drain.contents it).length := by
      have := List.drop_eq_nil_iff.mp hops
      omega
    have hconsume : t.drain.consume false = { t.drain with phase := .waiting } := by
      simp only [Drain.consume, hp, if_pos hend]
    show (t.next jvm 0).service = _
    simp only [next, hp, hconsume]
    rfl
  | cons op ops ih =>
    have hop : (t.drain.contents it)[it.cursor]? = some op := by
      rw [← List.head?_drop, hops]
      rfl
    have hrest : (t.drain.contents it).drop (it.cursor + 1) = ops := by
      rw [← List.drop_drop, hops]
      rfl
    have hinside : it.cursor < (t.drain.contents it).length := (List.getElem?_eq_some_iff.mp hop).1
    obtain ⟨d, hbody, hphase⟩ := run_body jvm hp hlen halive (now 0) hop
    have hrun : t.run jvm (loop now (op :: ops).length) =
        (t.run jvm (List.replicate 4 (.next (now 0)))).run jvm
          (loop (fun m => now (m + 1)) ops.length) := List.foldl_append
    have hoperations : t.service.runOperations jvm t.i now (op :: ops) =
        (t.service.runOperation jvm (now 0) t.i op).runOperations jvm t.i (fun m => now (m + 1))
          ops := by
      rw [BankService.runOperations, if_pos halive]
    rw [hrun, hbody, hoperations]
    rcases hphase with ⟨hdead, hended⟩ | ⟨halive', hphase⟩
    · rw [run_ended hended hdead (loop_next _ _), runOperations_ended hdead]
    · -- The iterator goes on with the list that the variable does not hold any more.
      exact ih (t := ⟨t.service.runOperation jvm (now 0) t.i op, d, t.i⟩) hphase hlen
        (hlen ▸ hinside) halive' (fun m => now (m + 1)) hrest

/-- Without interruption, the calls of the runner for one contract are the loop of the service over
the operations of the contract. -/
theorem visit_eq_runOperations (h : t.Linked) (hp : t.drain.phase = .waiting) {i : Int32}
    {k : Option Int32} (hk : t.service.sR.listOf i = some k) {ops : List String}
    (hops : (t.service.sR.contracts.lookup i).map t.service.sR.getOperations = some ops)
    (now : ℕ → Int64) :
    (t.run jvm (.visit i :: .next 0 :: loop now ops.length)).service =
      t.service.runOperations jvm i now ops := by
  obtain rfl : t.service.sR.operationsIn k = ops :=
    Option.some.inj ((SmartContractRunner.getOperations_eq hk).symm.trans hops)
  have halive : t.service.sR.alive = true := h.alive.mpr (by simp [hp])
  -- The visit and the call of `iterator` come first, then one turn of the loop for each operation.
  have hvisit : t.step jvm (.visit i) =
      ⟨t.service, { t.drain with phase := .iterator k }, i⟩ := by
    simp only [step, hk, hp, Drain.step]
  have hiterator : (⟨t.service, { t.drain with phase := .iterator k }, i⟩ : Threads).next jvm 0 =
      ⟨t.service, { t.drain with
        phase := .hasNext ⟨k, none, 0, (t.drain.lists k).length⟩ }, i⟩ := rfl
  show (((t.step jvm (.visit i)).next jvm 0).run jvm (loop now _)).service = _
  rw [hvisit, hiterator]
  exact run_loop (t := ⟨t.service, { t.drain with
    phase := .hasNext ⟨k, none, 0, (t.drain.lists k).length⟩ }, i⟩) rfl rfl (Nat.zero_le _) halive now
    _ (h.lists k)

end Service

end Threads

/-- **No operation is lost or executed twice:** the thread of the runner of any service is started. At
every point of a run of the threads, the runner that goes on alone from there will have executed of
each list what has been queued, each operation once and in that order, exactly when every step of the
run is safe. The runner that goes on alone is one whose executions do not throw (`Drain.settled`): an
operation that is still in a list counts as one that will be executed, although one before it may end the
thread then. Executions of the run itself may throw, and are judged. -/
theorem operations_delivered_iff (jvm : Jvm) (st : BankService) (xs : List Threads.Step) :
    (∀ ys, ys <+: xs → ∀ k, (((Threads.start st).run jvm ys).drain.settled k).executed k =
        ((Threads.start st).run jvm ys).drain.queued k) ↔
      ∀ ys x, ys ++ [x] <+: xs → ((Threads.start st).run jvm ys).Safe jvm x := by
  have hsettled : ∀ ys, (∀ k, (((Threads.start st).run jvm ys).drain.settled k).executed k =
      ((Threads.start st).run jvm ys).drain.queued k) ↔
      ((Threads.start st).run jvm ys).drain.Delivered := by
    intro ys
    refine forall_congr' fun k => ?_
    rw [Drain.settled_executed (Threads.run_valid st ys), eq_comm]
  simp only [hsettled]
  refine Run.forall_prefix_iff_of_invariant
    (I := fun ys => ((Threads.start st).run jvm ys).drain.Unchanged) (fun k => rfl) trivial
    (fun ys x h unchanged => ?_) (fun ys x h unchanged safe => ?_) xs
  -- A step either leaves the drain alone, or is one of its own.
  · rw [Threads.run_concat]
    rcases Threads.drain_step _ x with ⟨hsame, hsafe⟩ | ⟨y, hstep, hsafe⟩
    · rw [hsame]
      exact iff_of_true h hsafe
    · rw [hstep, hsafe]
      exact Drain.delivered_step_iff (Threads.run_valid st ys) unchanged h y
  · rw [Threads.run_concat]
    rcases Threads.drain_step _ x with ⟨hsame, -⟩ | ⟨y, hstep, hsafe⟩
    · rw [hsame]
      exact unchanged
    · rw [hstep]
      exact Drain.unchanged_step (Threads.run_valid st ys) unchanged y (hsafe.mp safe)

/-! ## A lost operation -/

/-- A machine on which every contract queues two deposits. -/
def depositsJvm : Jvm := Jvm.plain (ContractClass.queueing ["CREATE_MONEY 1", "CREATE_MONEY 2"])

/-- A service with the contract 0 of `bob`. -/
def twoDeposits : BankService :=
  let st := (BankService.new.appExecuteOrdered depositsJvm
    (Proxy.registerUser (some "bob") (some "secret") (some 0) none)).2
  (st.appExecuteOrdered depositsJvm (Proxy.createSmartContract (some "bob") [])).2

/-- The runner executes the first deposit, the contract queues a third one, and the runner executes
the second deposit and leaves the loop. -/
def interrupted : List Threads.Step :=
  .visit 0 :: List.replicate 5 (.next 0) ++ .queue 0 "CREATE_MONEY 4" :: List.replicate 5 (.next 0)

/-- **A lost operation:** the third deposit has been queued between the two rounds of the loop. The
second round clears it away, so that it is never executed. -/
theorem queued_operation_lost :
    ((Threads.start twoDeposits).run depositsJvm interrupted).drain.queued none =
        ["CREATE_MONEY 1", "CREATE_MONEY 2", "CREATE_MONEY 4"] ∧
      (((Threads.start twoDeposits).run depositsJvm interrupted).drain.settled none).executed none =
        ["CREATE_MONEY 1", "CREATE_MONEY 2"] ∧
      (((Threads.start twoDeposits).run depositsJvm interrupted).service.bankRepo.findByUserName
        (some "bob")).bind BankEntity.amount = some 3 := by
  decide

end NovaBank.Replica
