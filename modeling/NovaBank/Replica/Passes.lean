import NovaBank.Replica.Attribution

/-!
# The operations of a pass

The list of a contract is read when the runner comes to the contract, and it is cleared with the first
operation that is executed. A list may be that of several contracts, and then the first of them that the
runner comes to has all its operations. So what a pass executes is fixed when it begins (`schedule`), if
nothing is queued meanwhile: `pass_eq_runAll_schedule` says that a pass is the run of these actions, and
`exists_visit` that every list of a contract is among them.
-/

namespace NovaBank.Replica

open Java

/-! ## The schedule -/

/-- The contracts that have a list, in the order of the visits, each with the operations that the runner
finds there. -/
def visits (listOf : Int32 → Option (Option Int32)) :
    List Int32 → (Option Int32 → List String) → List (Int32 × List String)
  | [], _ => []
  | i :: is, lists =>
    match listOf i with
    | none => visits listOf is lists
    | some k => (i, lists k) :: visits listOf is (Function.update lists k [])

/-- The operations of one visit, at their times. -/
def visitActions (now : Int32 → ℕ → Int64) (v : Int32 × List String) : List Action :=
  v.2.zipIdx.map fun e => .operation (now v.1 e.2) v.1 e.1

namespace BankService

/-- The visits of a pass. -/
def passVisits (jvm : Jvm) (st : BankService) : List (Int32 × List String) :=
  visits st.sR.listOf (jvm.order st.sR.contracts.keys) st.sR.operationsIn

/-- The operations of a pass, in their order. -/
def schedule (jvm : Jvm) (now : Int32 → ℕ → Int64) (st : BankService) : List Action :=
  (st.passVisits jvm).flatMap (visitActions now)

end BankService

/-- Every list of a contract that is visited is found by the first contract that has it. -/
theorem exists_visit {listOf : Int32 → Option (Option Int32)} {i : Int32} {k : Option Int32}
    (hk : listOf i = some k) {is : List Int32} (hi : i ∈ is) (lists : Option Int32 → List String) :
    ∃ j, listOf j = some k ∧ (j, lists k) ∈ visits listOf is lists := by
  induction is generalizing lists with
  | nil => cases hi
  | cons j is ih =>
    unfold visits
    cases hj : listOf j with
    | none =>
      rcases List.mem_cons.mp hi with rfl | hi
      · rw [hk] at hj
        cases hj
      · exact ih hi lists
    | some k' =>
      by_cases e : k = k'
      · subst e
        exact ⟨j, hj, List.mem_cons_self⟩
      · -- Another list, and so another contract.
        have hi' : i ∈ is := by
          rcases List.mem_cons.mp hi with rfl | hi
          · exact absurd (Option.some.inj (hk.symm.trans hj)) e
          · exact hi
        obtain ⟨j', hj', hmem⟩ := ih hi' (Function.update lists k' [])
        rw [Function.update_of_ne e] at hmem
        exact ⟨j', hj', List.mem_cons_of_mem _ hmem⟩

/-! ## A pass executes its schedule -/

section Pass

variable {jvm : Jvm} {st : BankService}

/-- The actions of visits are operations. -/
theorem exists_operation_of_mem {now : Int32 → ℕ → Int64} {vs : List (Int32 × List String)} {x : Action}
    (hx : x ∈ vs.flatMap (visitActions now)) : ∃ t i op, x = .operation t i op := by
  obtain ⟨v, -, hx⟩ := List.mem_flatMap.mp hx
  obtain ⟨e, -, rfl⟩ := List.mem_map.mp hx
  exact ⟨_, _, _, rfl⟩

/-- A thread that has ended executes nothing. -/
theorem runAll_ended (h : st.sR.alive = false) {xs : List Action}
    (hxs : ∀ x ∈ xs, ∃ t i op, x = .operation t i op) : st.runAll jvm xs = st := by
  unfold BankService.runAll
  induction xs with
  | nil => rfl
  | cons x xs ih =>
    obtain ⟨t, i, op, rfl⟩ := hxs x List.mem_cons_self
    have hrun : (Action.operation t i op).run jvm st = st := by simp [Action.run, h]
    rw [List.foldl_cons, hrun]
    exact ih fun y hy => hxs y (List.mem_cons_of_mem _ hy)

/-- A thread that has ended visits no contract. -/
theorem runContracts_ended (h : st.sR.alive = false) (now : Int32 → ℕ → Int64) (is : List Int32) :
    st.runContracts jvm now is = st := by
  induction is with
  | nil => rfl
  | cons i is ih =>
    unfold BankService.runContracts
    dsimp only
    rw [Threads.runOperations_ended h]
    exact ih

/-- The inner loop executes the operations of a visit. -/
theorem runOperations_eq_visit (i : Int32) (now : Int32 → ℕ → Int64) (ops : List String)
    (st : BankService) :
    st.runOperations jvm i (now i) ops = st.runAll jvm (visitActions now (i, ops)) := by
  -- On the rest of the list, with the number of operations before it.
  have hrest : ∀ (ops : List String) (n : ℕ) (st : BankService),
      st.runOperations jvm i (fun m => now i (m + n)) ops =
        st.runAll jvm ((ops.zipIdx n).map fun e => .operation (now i e.2) i e.1) := by
    intro ops
    induction ops with
    | nil => exact fun n st => rfl
    | cons op ops ih =>
      intro n st
      rw [List.zipIdx_cons, List.map_cons, BankService.runAll, List.foldl_cons, ← BankService.runAll,
        ← ih (n + 1)]
      cases halive : st.sR.alive with
      | false =>
        have hrun : (Action.operation (now i n) i op).run jvm st = st := by simp [Action.run, halive]
        rw [hrun, Threads.runOperations_ended halive, Threads.runOperations_ended halive]
      | true =>
        simp only [BankService.runOperations, halive, if_true, Action.run, Nat.zero_add]
        congr 1
        funext m
        rw [Nat.add_right_comm, Nat.add_assoc]
  exact hrest ops 0 st

/-- The lists after a visit that has found operations: that of the contract is cleared. -/
structure Cleared (k : Option Int32) (sR sR' : SmartContractRunner) : Prop where
  lists : sR'.operationsIn = Function.update sR.operationsIn k []
  listOf : sR'.listOf = sR.listOf

/-- What is cleared and then cleared again is cleared. -/
theorem Cleared.trans {k : Option Int32} {sR sR' sR'' : SmartContractRunner} (h : Cleared k sR sR')
    (h' : Cleared k sR' sR'') : Cleared k sR sR'' :=
  ⟨by rw [h'.lists, h.lists, Function.update_idem], h'.listOf.trans h.listOf⟩

/-- An operation clears the list that it was read from. -/
theorem cleared_runOperation (jvm : Jvm) {i : Int32} {k : Option Int32}
    (hk : st.sR.listOf i = some k) (now : Int64) (op : String) :
    Cleared k st.sR (st.runOperation jvm now i op).sR := by
  obtain ⟨hlists, hlistOf⟩ := SmartContractRunner.clearOperations_spec hk
  obtain ⟨j, hsR⟩ := BankService.perform_sR jvm now i op
    { st with sR := st.sR.clearOperations i }
  rw [BankService.runOperation_eq_perform, hsR]
  constructor
  · funext l
    rw [Function.update_apply, ← hlists l]
    cases l <;> rfl
  · funext l
    exact hlistOf l

/-- So do all operations of a list, if there is one. -/
theorem cleared_runOperations (jvm : Jvm) {i : Int32} {k : Option Int32} {ops : List String}
    (hk : st.sR.listOf i = some k) (halive : st.sR.alive = true) (hops : ops ≠ []) (now : ℕ → Int64) :
    Cleared k st.sR (st.runOperations jvm i now ops).sR := by
  -- On the operations: the list is cleared by the first one, and stays so.
  induction ops generalizing st now with
  | nil => exact absurd rfl hops
  | cons op ops ih =>
    have hfirst := cleared_runOperation jvm hk (now 0) op
    rw [BankService.runOperations, if_pos halive]
    cases halive' : (st.runOperation jvm (now 0) i op).sR.alive with
    -- An operation that throws ends the thread.
    | false =>
      rw [Threads.runOperations_ended halive']
      exact hfirst
    | true =>
      cases ops with
      | nil => exact hfirst
      | cons op' ops => exact hfirst.trans (ih (hfirst.listOf ▸ hk) halive' (by simp) _)

/-- The outer loop executes the visits. -/
theorem runContracts_eq_visits (now : Int32 → ℕ → Int64) (is : List Int32) (st : BankService) :
    st.runContracts jvm now is =
      st.runAll jvm ((visits st.sR.listOf is st.sR.operationsIn).flatMap (visitActions now)) := by
  -- On the contracts; two of them may share a list, which only the first one finds filled.
  induction is generalizing st with
  | nil => rfl
  | cons i is ih =>
    cases halive : st.sR.alive with
    | false =>
      rw [runContracts_ended halive, runAll_ended halive fun x hx => exists_operation_of_mem hx]
    | true =>
      unfold BankService.runContracts visits
      dsimp only
      cases hk : st.sR.listOf i with
      | none =>
        have hlookup : st.sR.contracts.lookup i = none := Option.map_eq_none_iff.mp hk
        rw [hlookup]
        exact ih st
      | some k =>
        rw [SmartContractRunner.getOperations_eq hk, Option.getD_some]
        dsimp only
        rw [List.flatMap_cons, BankService.runAll_append, ← runOperations_eq_visit, ih]
        by_cases hops : st.sR.operationsIn k = []
        · have hsame : Function.update st.sR.operationsIn k [] = st.sR.operationsIn :=
            Function.update_eq_self_iff.mpr hops.symm
          rw [hops, hsame]
          rfl
        · have hcleared := cleared_runOperations jvm hk halive hops (now i)
          rw [hcleared.lists, hcleared.listOf]

/-- A pass executes its schedule. -/
theorem pass_eq_runAll_schedule (now : Int32 → ℕ → Int64) (st : BankService) :
    st.pass jvm now = st.runAll jvm (st.schedule jvm now) :=
  runContracts_eq_visits now _ st

end Pass

end NovaBank.Replica
