import Mathlib.Logic.Relation
import NovaBank.Common.Run
import NovaBank.Replica.Agreement
import NovaBank.Replica.Runs
import NovaBank.Replica.Threads

/-!
# On whose behalf an operation is executed

`AuctionSmartContract` keeps the owner in a static field that its constructor sets, and the runner
asks for the owner when it executes an operation. So all contracts have the owner that the last
instance was made with, whoever uploaded the contract that queued the operation.

A run is made of requests, of operations that instances queue, of further instances that the code of a
contract makes, and of executions of operations that have been queued, in any order; the requests of the
run make the first instances, with their uploaders (`Attributed`). The runs of requests and whole passes
of the runner are among them (`Attributed.exists_run`). `attribution_iff`: every execution is on behalf of
the uploader exactly when the last instance that was made before it has the uploader as its owner.
-/

namespace NovaBank.Replica

open Java

/-- An object of an uploaded class: who has uploaded it, and the owner that its constructor has set.
-/
structure Instance where
  uploader : JString
  owner : JString
  deriving DecidableEq

/-- The object that a request makes, if it makes one: an upload of a registered user whose class has
the constructor that is called. The base class has set the owner even if the class then throws, or
turns out to be no contract. -/
def instantiated (jvm : Jvm) (st : BankService) : Access → Option Instance
  | .ordered command =>
    match decodeOrdered command with
    | .ok (.createSmartContract who code) =>
      match st.bankRepo.findByUserName who, jvm.defineClass code with
      | some _, .ok cl =>
        if cl.hasStringConstructor then some ⟨who, cl.otherOwner.getD who⟩ else none
      | _, _ => none
    | _ => none
  | .unordered _ => none

/-- `new AuctionSmartContract(who)` sets the static owner. -/
def SmartContractRunner.setOwner (sR : SmartContractRunner) (who : JString) : SmartContractRunner :=
  { sR with statics := { sR.statics with who := who } }

/-- The runner after the constructor of the base class, if the class extends it. -/
def constructed (cl : ContractClass) (who : JString) (sR : SmartContractRunner) :
    SmartContractRunner :=
  if cl.extendsAuction then sR.setOwner (cl.otherOwner.getD who) else sR

/-- What a request does to the runner: nothing, or it makes an instance, which may be submitted. -/
inductive Accessed (jvm : Jvm) (sR : SmartContractRunner) :
    Option Instance → SmartContractRunner → Prop where
  | nothing : Accessed jvm sR none sR
  | made (who : JString) (code : List UInt8) (cl : ContractClass)
      (loaded : jvm.defineClass code = .ok cl) :
      Accessed jvm sR (some ⟨who, cl.otherOwner.getD who⟩) (constructed cl who sR)
  | submitted (who : JString) (code : List UInt8) (cl : ContractClass)
      (loaded : jvm.defineClass code = .ok cl) :
      Accessed jvm sR (some ⟨who, cl.otherOwner.getD who⟩) ((constructed cl who sR).runContract cl who)

/-- Every request does one of these things. -/
theorem accessed (jvm : Jvm) (st : BankService) (a : Access) :
    Accessed jvm st.sR (instantiated jvm st a) (st.access jvm a).2.sR := by
  cases a with
  | unordered command => exact .nothing
  | ordered command =>
    simp only [BankService.access, BankService.appExecuteOrdered, instantiated]
    cases decodeOrdered command with
    | error e => exact .nothing
    | ok request =>
      cases request with
      | ledger r => exact .nothing
      | other => exact .nothing
      | createSmartContract who code =>
        simp only [BankService.executeCreateSmartContract, SmartContractRunner.createObjectFromFile]
        cases st.bankRepo.findByUserName who with
        | none => exact .nothing
        | some b =>
          cases hloaded : jvm.defineClass code with
          | error e => exact .nothing
          | ok cl =>
            have hmade : Accessed jvm st.sR _ _ := .made who code cl hloaded
            have hsubmitted : Accessed jvm st.sR _ _ := .submitted who code cl hloaded
            cases hconstructor : cl.hasStringConstructor with
            | false => simpa [hconstructor] using Accessed.nothing
            | true =>
              simp only [hconstructor, Bool.not_true, Bool.false_eq_true, if_false, if_true]
              -- The constructor of the base class has run, whatever comes after it.
              cases cl.constructorThrows with
              | true => exact hmade
              | false =>
                cases cl.isSmartContract with
                | false => exact hmade
                | true =>
                  simp only [Bool.not_true, Bool.false_eq_true, if_false]
                  split
                  · exact hmade
                  · exact hsubmitted

/-- A replica, with the instances in the order in which they were made and all operations that they
have queued. -/
structure Attributed where
  service : BankService
  instances : List Instance
  queued : List (Instance × String)

namespace Attributed

/-- A step of a run. -/
inductive Step where
  /-- A request is executed. -/
  | access (a : Access)
  /-- The instance number `n` queues an operation. -/
  | queue (n : ℕ) (op : String)
  /-- The code of the instance number `n` calls the public constructor of the base class. -/
  | construct (n : ℕ) (owner : JString)
  /-- The runner executes the queued operation number `m` as one of the contract `i`. -/
  | execute (now : Int64) (i : Int32) (m : ℕ)

/-- A replica to which nothing has been uploaded. -/
def new : Attributed := ⟨BankService.new, [], []⟩

/-- One step. -/
def step (jvm : Jvm) (t : Attributed) : Step → Attributed
  | .access a =>
    { t with
      service := (t.service.access jvm a).2
      instances := t.instances ++ (instantiated jvm t.service a).toList }
  | .queue n op =>
    match t.instances[n]? with
    | none => t
    | some inst => { t with queued := t.queued ++ [(inst, op)] }
  | .construct n owner =>
    match t.instances[n]? with
    | none => t
    | some inst =>
      { t with
        service := { t.service with sR := t.service.sR.setOwner owner }
        instances := t.instances ++ [⟨inst.uploader, owner⟩] }
  | .execute now i m =>
    match t.queued[m]? with
    | none => t
    | some (_, op) => { t with service := (Action.operation now i op).run jvm t.service }

/-- The replica after some steps. -/
def run (jvm : Jvm) (xs : List Step) : Attributed := xs.foldl (step jvm) new

/-- The replica after one more step. -/
theorem run_concat (jvm : Jvm) (xs : List Step) (x : Step) :
    run jvm (xs ++ [x]) = (run jvm xs).step jvm x := by
  simp [run]

/-- At every point of a run, the maps of the repository agree. -/
theorem run_indexed (jvm : Jvm) (xs : List Step) : Indexed (run jvm xs).service.bankRepo := by
  refine Run.foldl_invariant (I := fun t : Attributed => Indexed t.service.bankRepo)
    (fun t x h => ?_) xs Indexed.new
  -- Only requests and operations touch the repository.
  cases x with
  | access a =>
    cases a with
    | ordered command => exact h.updates (appExecuteOrdered_updates command t.service)
    | unordered command => exact h.updates (appExecuteUnordered_updates command t.service.bankRepo)
  | queue n op | construct n owner =>
    simp only [step]
    split <;> exact h
  | execute now i m =>
    simp only [step]
    split
    · exact h
    · exact h.updates (Action.run_updates _ t.service)

end Attributed

/-! ## The passes of the runner -/

section Passes

variable {jvm : Jvm} {sR : SmartContractRunner}

/-- The list of a contract is in its variable. -/
theorem SmartContractRunner.exists_listOf {i : Int32} {ops : List String}
    (h : (sR.contracts.lookup i).map sR.getOperations = some ops) :
    ∃ k, sR.listOf i = some k ∧ sR.operationsIn k = ops := by
  obtain ⟨c, hc, -⟩ := Option.map_eq_some_iff.mp h
  have hk : sR.listOf i = some (if c.operations.isSome then some i else none) := by
    simp [listOf, hc]
  exact ⟨_, hk, Option.some.inj ((getOperations_eq hk).symm.trans h)⟩

/-- Clearing a list adds nothing to any list. -/
theorem SmartContractRunner.mem_of_clearOperations {i : Int32} {k : Option Int32} {op : String}
    (h : op ∈ (sR.clearOperations i).operationsIn k) : op ∈ sR.operationsIn k := by
  cases hi : sR.listOf i with
  | none =>
    have hlookup : sR.contracts.lookup i = none := Option.map_eq_none_iff.mp hi
    simpa [clearOperations, hlookup] using h
  | some k' =>
    rw [(clearOperations_spec hi).1] at h
    split_ifs at h
    · cases h
    · exact h

/-- A contract that is submitted adds its operations to one list. -/
theorem SmartContractRunner.mem_of_runContract {cl : ContractClass} {who : JString}
    {k : Option Int32} {op : String} (h : op ∈ (sR.runContract cl who).operationsIn k) :
    op ∈ sR.operationsIn k ∨ op ∈ cl.operations := by
  unfold runContract at h
  split at h
  · exact .inl h
  -- A class with a list of its own puts its operations there, and any other one into the static list.
  · cases k with
    | none =>
      cases hown : cl.ownOperations with
      | true => exact .inl (by simpa [operationsIn, hown] using h)
      | false => simpa [operationsIn, hown] using h
    | some j =>
      by_cases e : sR.i = j
      · cases hown : cl.ownOperations with
        | true => exact .inr (by simpa [operationsIn, hown, e] using h)
        | false => simp [operationsIn, hown, e] at h
      · exact .inl (by simpa [operationsIn, e] using h)

/-- A request adds operations to the lists only when it makes an instance. -/
theorem exists_added (jvm : Jvm) (st : BankService) (a : Access) :
    ∃ ops, (ops = [] ∨ ∃ inst, instantiated jvm st a = some inst) ∧
      ∀ k, ∀ op ∈ (st.access jvm a).2.sR.operationsIn k, op ∈ st.sR.operationsIn k ∨ op ∈ ops := by
  have haccessed := accessed jvm st a
  generalize instantiated jvm st a = made, (st.access jvm a).2.sR = sR at haccessed ⊢
  have hlists : ∀ (cl : ContractClass) (who : JString) (k : Option Int32),
      (constructed cl who st.sR).operationsIn k = st.sR.operationsIn k := by
    intro cl who k
    unfold constructed
    -- The construction itself changes the static owner only.
    split
    · cases k <;> rfl
    · rfl
  cases haccessed with
  | nothing => exact ⟨[], .inl rfl, fun k op hop => .inl hop⟩
  | made who code cl loaded => exact ⟨[], .inl rfl, fun k op hop => .inl (hlists cl who k ▸ hop)⟩
  | submitted who code cl loaded =>
    refine ⟨cl.operations, .inr ⟨_, rfl⟩, fun k op hop => ?_⟩
    rw [← hlists cl who k]
    exact SmartContractRunner.mem_of_runContract hop

namespace Attributed

variable {t : Attributed}

/-- Every operation in a list has been queued by an instance. -/
def Listed (t : Attributed) : Prop :=
  ∀ k, ∀ op ∈ t.service.sR.operationsIn k, ∃ inst, (inst, op) ∈ t.queued

/-- An execution adds nothing to any list. -/
theorem Listed.execute (h : t.Listed) (now : Int64) (i : Int32) (m : ℕ) :
    (t.step jvm (.execute now i m)).Listed := by
  simp only [step]
  split
  · exact h
  · rename_i inst op hop
    intro k op' hop'
    simp only [Action.run] at hop'
    split at hop'
    · obtain ⟨j, hsR⟩ := BankService.perform_sR jvm now i op
        { t.service with sR := t.service.sR.clearOperations i }
      rw [BankService.runOperation_eq_perform, hsR] at hop'
      -- The lists are those that have been cleared.
      have hcleared : op' ∈ (t.service.sR.clearOperations i).operationsIn k := by
        cases k <;> exact hop'
      exact h k op' (SmartContractRunner.mem_of_clearOperations hcleared)
    · exact h k op' hop'

/-- The second state is reached from the first one by executions. -/
def Executes (jvm : Jvm) : Attributed → Attributed → Prop :=
  Relation.ReflTransGen fun t t' => ∃ now i m, t' = t.step jvm (.execute now i m)

/-- Executions keep that all operations in the lists have been queued. -/
theorem Executes.listed {t' : Attributed} (h : Executes jvm t t') (hlisted : t.Listed) :
    t'.Listed := by
  induction h with
  | refl => exact hlisted
  | tail _ hstep ih =>
    obtain ⟨now, i, m, rfl⟩ := hstep
    exact ih.execute now i m

/-- Executions go on with a run. -/
theorem Executes.exists_run {t' : Attributed} {xs : List Step} (h : Executes jvm (run jvm xs) t') :
    ∃ ys, t' = run jvm (xs ++ ys) := by
  induction h with
  | refl => exact ⟨[], by rw [List.append_nil]⟩
  | tail _ hstep ih =>
    obtain ⟨ys, rfl⟩ := ih
    obtain ⟨now, i, m, rfl⟩ := hstep
    exact ⟨ys ++ [.execute now i m], by rw [← run_concat, List.append_assoc]⟩

/-- The inner loop of the runner over queued operations executes them. -/
theorem executes_runOperations (jvm : Jvm) (i : Int32) (now : ℕ → Int64) (ops : List String) (t : Attributed)
    (hops : ∀ op ∈ ops, ∃ inst, (inst, op) ∈ t.queued) :
    Executes jvm t { t with service := t.service.runOperations jvm i now ops } := by
  induction ops generalizing t now with
  | nil => exact .refl
  | cons op ops ih =>
    unfold BankService.runOperations
    split
    · rename_i halive
      obtain ⟨inst, hmem⟩ := hops op List.mem_cons_self
      obtain ⟨m, hm⟩ := List.getElem?_of_mem hmem
      have hstep : t.step jvm (.execute (now 0) i m) =
          { t with service := t.service.runOperation jvm (now 0) i op } := by
        simp [step, hm, Action.run, halive]
      have hrest := ih (fun n => now (n + 1))
        { t with service := t.service.runOperation jvm (now 0) i op }
        fun op hop => hops op (List.mem_cons_of_mem _ hop)
      exact .head ⟨now 0, i, m, hstep.symm⟩ hrest
    -- A thread that has ended executes nothing.
    · exact .refl

/-- The outer loop of the runner executes queued operations. -/
theorem executes_runContracts (now : Int32 → ℕ → Int64) (is : List Int32) (t : Attributed)
    (h : t.Listed) :
    Executes jvm t { t with service := t.service.runContracts jvm now is } := by
  -- On the contracts: what is executed before only removes operations.
  induction is generalizing t with
  | nil => exact .refl
  | cons i is ih =>
    have hops : ∀ op ∈ ((t.service.sR.contracts.lookup i).map t.service.sR.getOperations).getD [],
        ∃ inst, (inst, op) ∈ t.queued := by
      cases hlist : (t.service.sR.contracts.lookup i).map t.service.sR.getOperations with
      | none => simp
      | some ops =>
        obtain ⟨k, -, rfl⟩ := SmartContractRunner.exists_listOf hlist
        exact h k
    have hfirst := executes_runOperations jvm i (now i) _ t hops
    exact hfirst.trans (ih _ (hfirst.listed h))

/-- A pass of the runner goes on with a run. -/
theorem Listed.exists_pass {xs : List Step} (h : (run jvm xs).Listed) (now : Int32 → ℕ → Int64) :
    ∃ ys, (run jvm (xs ++ ys)).service = (run jvm xs).service.pass jvm now ∧
      (run jvm (xs ++ ys)).Listed := by
  have hpass : Executes jvm (run jvm xs)
      { run jvm xs with service := (run jvm xs).service.pass jvm now } :=
    executes_runContracts now _ (run jvm xs) h
  obtain ⟨ys, hys⟩ := hpass.exists_run
  refine ⟨ys, ?_⟩
  rw [← hys]
  exact ⟨rfl, hpass.listed h⟩

/-- Operations that an instance queues. -/
theorem foldl_queue {n : ℕ} {inst : Instance} (t : Attributed) (hinst : t.instances[n]? = some inst)
    (ops : List String) :
    (ops.map (Step.queue n)).foldl (step jvm) t =
      { t with queued := t.queued ++ ops.map (Prod.mk inst) } := by
  induction ops generalizing t with
  | nil => simp
  | cons op ops ih =>
    have hstep : t.step jvm (.queue n op) = { t with queued := t.queued ++ [(inst, op)] } := by
      simp [step, hinst]
    rw [List.map_cons, List.foldl_cons, hstep,
      ih { t with queued := t.queued ++ [(inst, op)] } hinst]
    simp

/-- A request goes on with a run, in which an instance that it makes queues its operations. -/
theorem Listed.exists_access {xs : List Step} (h : (run jvm xs).Listed) (a : Access) :
    ∃ ys, (run jvm (xs ++ ys)).service = ((run jvm xs).service.access jvm a).2 ∧
      (run jvm (xs ++ ys)).Listed := by
  obtain ⟨ops, hmade, hops⟩ := exists_added jvm (run jvm xs).service a
  have hstep : run jvm (xs ++ [.access a]) = (run jvm xs).step jvm (.access a) := run_concat jvm xs _
  rcases hmade with rfl | ⟨inst, hinst⟩
  · refine ⟨[.access a], by rw [hstep]; rfl, ?_⟩
    rw [hstep]
    intro k op hop
    exact h k op ((hops k op hop).resolve_right List.not_mem_nil)
  · -- The new instance comes after all others.
    have hnew : ((run jvm xs).step jvm (.access a)).instances[(run jvm xs).instances.length]? =
        some inst := by
      simp [step, hinst]
    have hrun : run jvm (xs ++ .access a :: ops.map (Step.queue (run jvm xs).instances.length)) =
        { (run jvm xs).step jvm (.access a) with
          queued := (run jvm xs).queued ++ ops.map (Prod.mk inst) } := by
      rw [run, List.foldl_append, List.foldl_cons]
      exact foldl_queue _ hnew ops
    refine ⟨.access a :: ops.map (Step.queue (run jvm xs).instances.length), by rw [hrun]; rfl, ?_⟩
    rw [hrun]
    intro k op hop
    rcases hops k op hop with hold | hadded
    · obtain ⟨inst', hmem⟩ := h k op hold
      exact ⟨inst', List.mem_append_left _ hmem⟩
    · exact ⟨inst, List.mem_append_right _ (List.mem_map_of_mem hadded)⟩

/-- Every run of ordered requests and passes of the runner is one of these runs. -/
theorem exists_run (jvm : Jvm) (es : List Event) :
    ∃ xs, (run jvm xs).service = (BankService.new.run jvm es).2 := by
  -- On the events, from any state that has been reached so far.
  have hgoes : ∀ (es : List Event) (xs : List Step), (run jvm xs).Listed →
      ∃ ys, (run jvm (xs ++ ys)).service = ((run jvm xs).service.run jvm es).2 := by
    intro es
    induction es with
    | nil => exact fun xs _ => ⟨[], by rw [List.append_nil]; rfl⟩
    | cons e es ih =>
      intro xs h
      cases e with
      | ordered command =>
        obtain ⟨ys, hservice, hlisted⟩ := h.exists_access (.ordered command)
        obtain ⟨zs, hzs⟩ := ih (xs ++ ys) hlisted
        exact ⟨ys ++ zs, by rw [← List.append_assoc, hzs, hservice]; rfl⟩
      | drain now =>
        obtain ⟨ys, hservice, hlisted⟩ := h.exists_pass now
        obtain ⟨zs, hzs⟩ := ih (xs ++ ys) hlisted
        exact ⟨ys ++ zs, by rw [← List.append_assoc, hzs, hservice]; rfl⟩
  have hempty : (run jvm []).Listed := by
    intro k op hop
    cases k <;> cases hop
  obtain ⟨ys, hys⟩ := hgoes es [] hempty
  exact ⟨ys, hys⟩

end Attributed

end Passes

/-! ## The static owner -/

/-- Clearing the list of a contract keeps all owners. -/
theorem SmartContractRunner.ownerOf_clearOperations (sR : SmartContractRunner) (i j : Int32) :
    (sR.clearOperations i).ownerOf j = sR.ownerOf j := by
  unfold SmartContractRunner.clearOperations
  split
  · rfl
  · rename_i c hc
    split
    · rfl
    · by_cases e : i = j
      · subst e
        simp [ownerOf, hc, getOwner, JavaMap.lookup_insert]
      · simp only [ownerOf, JavaMap.lookup_insert, e, if_false]
        rfl

/-- Every uploaded class extends `AuctionSmartContract`. -/
def ExtendsAuction (jvm : Jvm) : Prop :=
  ∀ code cl, jvm.defineClass code = .ok cl → cl.extendsAuction = true

/-- All contracts have the static owner, which is that of the last instance. -/
structure StaticOwner (sR : SmartContractRunner) (instances : List Instance) : Prop where
  shared : ∀ i c, sR.contracts.lookup i = some c → c.owner = none
  made : ∀ i c, sR.contracts.lookup i = some c → instances ≠ []
  last : ∀ inst, instances.getLast? = some inst → sR.statics.who = inst.owner

section StaticOwner

variable {jvm : Jvm} {sR sR' : SmartContractRunner} {instances : List Instance}

/-- Only the owners of the contracts and the static field matter. -/
theorem StaticOwner.congr (h : StaticOwner sR instances) (hwho : sR'.statics.who = sR.statics.who)
    (howner : ∀ i c, sR'.contracts.lookup i = some c →
      ∃ b, sR.contracts.lookup i = some b ∧ c.owner = b.owner) : StaticOwner sR' instances where
  shared i c hc := by
    obtain ⟨b, hb, hcb⟩ := howner i c hc
    exact hcb.trans (h.shared i b hb)
  made i c hc := by
    obtain ⟨b, hb, -⟩ := howner i c hc
    exact h.made i b hb
  last inst hinst := hwho.trans (h.last inst hinst)

/-- Clearing a list touches no owner. -/
theorem StaticOwner.clearOperations (h : StaticOwner sR instances) (i : Int32) :
    StaticOwner (sR.clearOperations i) instances := by
  unfold SmartContractRunner.clearOperations
  split
  · exact h
  · rename_i c hc
    split
    · exact h.congr rfl fun j b hb => ⟨b, hb, rfl⟩
    -- The contract whose list is cleared keeps its owner.
    · refine h.congr rfl fun j b hb => ?_
      rw [JavaMap.lookup_insert] at hb
      split_ifs at hb with e
      · subst e
        cases hb
        exact ⟨c, hc, rfl⟩
      · exact ⟨b, hb, rfl⟩

/-- An operation touches no owner. -/
theorem StaticOwner.operation {st : BankService} (h : StaticOwner st.sR instances) (now : Int64)
    (i : Int32) (op : String) :
    StaticOwner ((Action.operation now i op).run jvm st).sR instances := by
  simp only [Action.run]
  split
  · obtain ⟨j, hsR⟩ := BankService.perform_sR jvm now i op { st with sR := st.sR.clearOperations i }
    rw [BankService.runOperation_eq_perform, hsR]
    exact (h.clearOperations i).congr rfl fun i c hc => ⟨c, hc, rfl⟩
  · exact h

/-- The constructor of the base class sets the static owner, whoever calls it. -/
theorem StaticOwner.setOwner (h : StaticOwner sR instances) (uploader owner : JString) :
    StaticOwner (sR.setOwner owner) (instances ++ [⟨uploader, owner⟩]) := by
  refine ⟨h.shared, fun _ _ _ => by simp, fun inst hinst => ?_⟩
  rw [List.getLast?_concat] at hinst
  cases hinst
  rfl

/-- An upload calls it. -/
theorem StaticOwner.constructed (h : StaticOwner sR instances) {cl : ContractClass}
    (hextends : cl.extendsAuction = true) (who : JString) :
    StaticOwner (constructed cl who sR) (instances ++ [⟨who, cl.otherOwner.getD who⟩]) := by
  rw [Replica.constructed, if_pos hextends]
  exact h.setOwner who _

/-- A contract that is submitted has no owner of its own. -/
theorem StaticOwner.runContract (h : StaticOwner sR instances) (hmade : instances ≠ [])
    {cl : ContractClass} (hextends : cl.extendsAuction = true) (who : JString) :
    StaticOwner (sR.runContract cl who) instances := by
  -- The new contract has no owner of its own, like the others.
  have howner : ∀ i c, (sR.runContract cl who).contracts.lookup i = some c → c.owner = none := by
    intro i c hc
    unfold SmartContractRunner.runContract at hc
    split at hc
    · exact h.shared i c hc
    · rw [JavaMap.lookup_insert] at hc
      by_cases e : sR.i = i
      · rw [if_pos e] at hc
        cases hc
        rfl
      · rw [if_neg e] at hc
        exact h.shared i c hc
  have hwho : (sR.runContract cl who).statics.who = sR.statics.who := by
    unfold SmartContractRunner.runContract
    split
    · rfl
    · dsimp only
      split <;> rfl
  exact ⟨howner, fun _ _ _ => hmade, fun inst hinst => hwho.trans (h.last inst hinst)⟩

/-- A request leaves all contracts with the owner of the last instance. -/
theorem StaticOwner.access {st : BankService} (hclasses : ExtendsAuction jvm)
    (h : StaticOwner st.sR instances) (a : Access) :
    StaticOwner (st.access jvm a).2.sR (instances ++ (instantiated jvm st a).toList) := by
  have haccessed := accessed jvm st a
  generalize instantiated jvm st a = made, (st.access jvm a).2.sR = sR at haccessed ⊢
  cases haccessed with
  | nothing => simpa using h
  | made who code cl loaded => exact h.constructed (hclasses code cl loaded) who
  | submitted who code cl loaded =>
    have hextends := hclasses code cl loaded
    exact (h.constructed hextends who).runContract (by simp) hextends who

namespace Attributed

/-- At every point of a run, all contracts have the owner of the last instance. -/
theorem run_staticOwner (hclasses : ExtendsAuction jvm) (xs : List Step) :
    StaticOwner (run jvm xs).service.sR (run jvm xs).instances := by
  refine Run.foldl_invariant (I := fun t : Attributed => StaticOwner t.service.sR t.instances)
    (fun t x h => ?_) xs ⟨nofun, nofun, nofun⟩
  -- Only a request and a construction write the static owner, and both are recorded as instances.
  cases x with
  | access a => exact h.access hclasses a
  | queue n op =>
    simp only [step]
    split <;> exact h
  | construct n owner =>
    simp only [step]
    split
    · exact h
    · exact h.setOwner _ owner
  | execute now i m =>
    simp only [step]
    split
    · exact h
    · exact h.operation now i _

/-- The user for whom the operations of a registered contract are executed is the owner of the last
instance. -/
theorem onBehalfOf_iff (hclasses : ExtendsAuction jvm) (xs : List Step) (i : Int32) (www : JString) :
    Action.onBehalfOf (run jvm xs).service i = some www ↔
      (run jvm xs).service.sR.alive = true ∧
        ((run jvm xs).service.sR.contracts.lookup i).isSome ∧
        ∃ inst, (run jvm xs).instances.getLast? = some inst ∧ inst.owner = www := by
  have h := run_staticOwner hclasses xs
  rw [Action.onBehalfOf, SmartContractRunner.ownerOf_clearOperations]
  cases halive : (run jvm xs).service.sR.alive with
  | false => simp
  | true =>
    cases hc : (run jvm xs).service.sR.contracts.lookup i with
    | none => simp [SmartContractRunner.ownerOf, hc]
    -- A registered contract was made by somebody, so there is a last instance.
    | some c =>
      obtain ⟨last, hlast⟩ := Option.ne_none_iff_exists'.mp
        (mt List.getLast?_eq_none_iff.mp (h.made i c hc))
      have howner : (run jvm xs).service.sR.ownerOf i = some last.owner := by
        simp [SmartContractRunner.ownerOf, SmartContractRunner.getOwner, hc, h.shared i c hc,
          h.last last hlast]
      simp [howner, hlast]

/-- The operations of the contract `i` are executed on behalf of nobody but `u` exactly when the last
instance has the owner `u`, provided that the runner executes them at all. -/
theorem onBehalfOf_only_iff (hclasses : ExtendsAuction jvm) (xs : List Step) (i : Int32)
    (u : JString) :
    (∀ www, Action.onBehalfOf (run jvm xs).service i = some www → www = u) ↔
      ((run jvm xs).service.sR.alive = true →
        ((run jvm xs).service.sR.contracts.lookup i).isSome →
        ∀ last ∈ (run jvm xs).instances.getLast?, last.owner = u) := by
  constructor
  · intro h halive hcontract last hlast
    exact h last.owner ((onBehalfOf_iff hclasses xs i _).mpr ⟨halive, hcontract, last, hlast, rfl⟩)
  · intro h www hwww
    obtain ⟨halive, hcontract, last, hlast, rfl⟩ := (onBehalfOf_iff hclasses xs i www).mp hwww
    exact h halive hcontract last hlast

end Attributed

end StaticOwner

/-- **Whose operations a contract executes:** in a run with any requests, and any interleaving of them
with the contracts and the runner, every operation is executed on behalf of the user who uploaded the
instance that queued it exactly when, at each execution, the last instance made so far has that user
as its owner. -/
theorem attribution_iff (jvm : Jvm) (hclasses : ExtendsAuction jvm) (xs : List Attributed.Step) :
    (∀ ys now i m, ys ++ [.execute now i m] <+: xs →
      ∀ inst op, (Attributed.run jvm ys).queued[m]? = some (inst, op) →
        ∀ www, Action.onBehalfOf (Attributed.run jvm ys).service i = some www → www = inst.uploader) ↔
    ∀ ys now i m, ys ++ [.execute now i m] <+: xs →
      ∀ inst op, (Attributed.run jvm ys).queued[m]? = some (inst, op) →
        (Attributed.run jvm ys).service.sR.alive = true →
        ((Attributed.run jvm ys).service.sR.contracts.lookup i).isSome →
        ∀ last ∈ (Attributed.run jvm ys).instances.getLast?, last.owner = inst.uploader := by
  -- An operation at a time, by who the runner acts for at that point.
  constructor
  · intro h ys now i m hprefix inst op hqueued
    exact (Attributed.onBehalfOf_only_iff hclasses ys i inst.uploader).mp
      (h ys now i m hprefix inst op hqueued)
  · intro h ys now i m hprefix inst op hqueued
    exact (Attributed.onBehalfOf_only_iff hclasses ys i inst.uploader).mpr
      (h ys now i m hprefix inst op hqueued)

/-! ## An operation for somebody else -/

/-- A machine on which the empty byte code is a contract that queues a deposit, and all other code is
one that queues nothing. -/
def uploadsJvm : Jvm where
  order := id
  order_perm := List.Perm.refl
  foldCase := id
  text := fun _ => ""
  defineClass := fun code =>
    .ok (ContractClass.queueing (if code = [] then ["CREATE_MONEY 5"] else []))

/-- `alice` and `bob` register, `alice` uploads a contract, and it queues its deposit. -/
def aliceQueues : List Attributed.Step :=
  [.access (.ordered (Proxy.registerUser (some "alice") (some "secret") (some 0) none)),
    .access (.ordered (Proxy.registerUser (some "bob") (some "secret") (some 0) none)),
    .access (.ordered (Proxy.createSmartContract (some "alice") [])),
    .queue 0 "CREATE_MONEY 5"]

/-- All these classes extend `AuctionSmartContract`. -/
theorem extendsAuction_uploadsJvm : ExtendsAuction uploadsJvm := by
  intro code cl hcl
  cases hcl
  rfl

/-- Executed at once, the deposit is one of `alice`. -/
theorem attribution_alice :
    ExtendsAuction uploadsJvm ∧
      ∀ ys now i m, ys ++ [.execute now i m] <+: aliceQueues ++ [.execute 0 0 0] →
        ∀ inst op, (Attributed.run uploadsJvm ys).queued[m]? = some (inst, op) →
          ∀ www, Action.onBehalfOf (Attributed.run uploadsJvm ys).service i = some www →
            www = inst.uploader := by
  refine ⟨extendsAuction_uploadsJvm,
    (attribution_iff uploadsJvm extendsAuction_uploadsJvm (aliceQueues ++ [.execute 0 0 0])).mpr ?_⟩
  intro ys now i m hprefix inst op hqueued _ _ last hlast
  -- Only the last step executes anything.
  rcases List.prefix_concat_iff.mp hprefix with heq | hprefix
  · obtain ⟨rfl, hx⟩ := List.append_inj' heq rfl
    cases hx
    have hq : (Attributed.run uploadsJvm aliceQueues).queued[0]? =
        some (⟨some "alice", some "alice"⟩, "CREATE_MONEY 5") := by decide
    have hl : (Attributed.run uploadsJvm aliceQueues).instances.getLast? =
        some ⟨some "alice", some "alice"⟩ := by decide
    rw [hq] at hqueued
    rw [hl] at hlast
    cases hqueued
    cases hlast
    rfl
  · have hmem : Attributed.Step.execute now i m ∈ aliceQueues := hprefix.subset (by simp)
    simp [aliceQueues] at hmem

/-- **An operation for somebody else:** `bob` uploads a contract that does nothing before the runner
reads the list, so the deposit of `alice` is executed on behalf of `bob` and goes to that account. -/
theorem deposit_for_bob :
    let t := Attributed.run uploadsJvm
      (aliceQueues ++ [.access (.ordered (Proxy.createSmartContract (some "bob") [1]))])
    t.queued[0]? = some (⟨some "alice", some "alice"⟩, "CREATE_MONEY 5") ∧
      Action.onBehalfOf t.service 0 = some (some "bob") ∧
      ((t.service.pass uploadsJvm fun _ _ => 0).bankRepo.findByUserName (some "alice")).bind
        BankEntity.amount = some 0 ∧
      ((t.service.pass uploadsJvm fun _ _ => 0).bankRepo.findByUserName (some "bob")).bind
        BankEntity.amount = some 5 := by
  decide

end NovaBank.Replica
