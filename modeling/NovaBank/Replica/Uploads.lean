import NovaBank.Replica.Service

/-!
# The verifier and the code that uploads execute

`CREATE_SMART_CONTRACT` makes an object of the uploaded class, has the class verified, and submits
the object to the runner. `uploadEvents` is what it does with the class, in this order, and
`executeCreateSmartContract_events` ties it to the request.

The constructor comes before the verifier, so the code of a class runs unverified. The handler in
`validateCode` builds an object with the error of the verifier and drops it. And `verifyFields`
compares the class of the reflective `Field` object with the type that it wants, which no field
passes (`verifyFields_throws`). `upload_gated_iff`: an upload is gated by the verifier exactly when
no code of the class gets to run at all.
-/

namespace NovaBank.Replica

open Java AuctionCreatorSmartContractByteCodeVerifier

/-- All verifiers return normally on a class. -/
def Verified (jvm : Jvm) (cl : ContractClass) : Prop :=
  verifyInterfaces jvm cl = .ok () ∧ verifyConstructors cl = .ok () ∧ verifyFields jvm cl = .ok ()

/-- What an upload does with the class. -/
inductive UploadEvent where
  /-- The constructor is executed. -/
  | constructor
  /-- The verifiers are called. -/
  | verifier
  /-- The object is added to the runner, and its `run` method is executed. -/
  | run
  deriving DecidableEq

/-- The events of an upload, in their order. -/
def uploadEvents (jvm : Jvm) (who : JString) (code : List UInt8) (st : BankService) :
    List UploadEvent :=
  match st.bankRepo.findByUserName who, jvm.defineClass code with
  | some _, .ok cl =>
    if !cl.hasStringConstructor then []
    else .constructor ::
      match (st.sR.createObjectFromFile jvm who code).1 with
      | .error _ => []
      | .ok cl => .verifier ::
        if (BankServiceHelper.validateCode jvm cl).has "error" || cl.otherOwner.isSome then []
        else [.run]
  | _, _ => []

section Events

variable {jvm : Jvm} {who : JString} {code : List UInt8} {st : BankService} {cl : ContractClass}
  {sR sR' : SmartContractRunner}

/-- A new object is no contract of the runner yet. -/
theorem createObjectFromFile_contracts (jvm : Jvm) (who : JString) (code : List UInt8)
    (sR : SmartContractRunner) :
    (sR.createObjectFromFile jvm who code).2.contracts = sR.contracts ∧
      (sR.createObjectFromFile jvm who code).2.i = sR.i := by
  unfold SmartContractRunner.createObjectFromFile
  cases jvm.defineClass code with
  | error e => exact ⟨rfl, rfl⟩
  | ok cl =>
    dsimp only
    split_ifs <;> exact ⟨rfl, rfl⟩

/-- An object is made of a class with the constructor. -/
theorem loaded_of_createObjectFromFile (h : (sR.createObjectFromFile jvm who code).1 = .ok cl) :
    jvm.defineClass code = .ok cl ∧ cl.hasStringConstructor = true := by
  unfold SmartContractRunner.createObjectFromFile at h
  cases hcl : jvm.defineClass code with
  | error e =>
    rw [hcl] at h
    cases h
  | ok cl' =>
    rw [hcl] at h
    dsimp only at h
    -- Without the constructor, nothing is made.
    split_ifs at h with hstring
    all_goals
      cases h
      exact ⟨rfl, by simpa using hstring⟩

/-- A submitted object is a new contract, if the owner is the one that it was made with. -/
theorem runContract_contracts (cl : ContractClass) (who : JString) (sR : SmartContractRunner) :
    if cl.otherOwner.isSome then (sR.runContract cl who).contracts = sR.contracts
    else ∃ c, (sR.runContract cl who).contracts = sR.contracts.insert sR.i c := by
  unfold SmartContractRunner.runContract
  by_cases h : cl.otherOwner.isSome = true
  · rw [if_pos h, if_pos h]
  · rw [if_neg h, if_neg h]
    exact ⟨_, rfl⟩

/-- An upload adds a contract to the runner when its `run` method is executed, and else none. -/
theorem executeCreateSmartContract_events (jvm : Jvm) (who : JString) (code : List UInt8)
    (st : BankService) :
    if .run ∈ uploadEvents jvm who code st then
      ∃ c, (BankService.executeCreateSmartContract jvm who code st).2.contracts =
        st.sR.contracts.insert st.sR.i c
    else
      (BankService.executeCreateSmartContract jvm who code st).2.contracts = st.sR.contracts := by
  obtain ⟨hcontracts, hi⟩ := createObjectFromFile_contracts jvm who code st.sR
  unfold BankService.executeCreateSmartContract uploadEvents
  cases st.bankRepo.findByUserName who with
  | none => simp
  | some b =>
    dsimp only
    cases hmade : st.sR.createObjectFromFile jvm who code with
    | mk result sR =>
      rw [hmade] at hcontracts hi
      cases result with
      | error e =>
        cases jvm.defineClass code with
        | error e' => simpa using hcontracts
        | ok cl => simpa using hcontracts
      | ok cl =>
        obtain ⟨hcl, hstring⟩ := loaded_of_createObjectFromFile (congrArg Prod.fst hmade)
        have hrun := runContract_contracts cl who sR
        rw [hcl]
        simp only [hstring, Bool.not_true, Bool.false_eq_true, if_false]
        dsimp only at hcontracts hi
        -- The code is run only when it passes the verifier, and a class with another owner is not
        -- registered.
        by_cases herror : (BankServiceHelper.validateCode jvm cl).has "error" = true
        · simpa [herror] using hcontracts
        · by_cases howner : cl.otherOwner.isSome = true
          · rw [if_pos howner, hcontracts] at hrun
            simpa [herror, howner] using hrun
          · rw [if_neg howner, hcontracts, hi] at hrun
            simpa [herror, howner] using hrun

/-- No class passes `verifyFields`: the names of the two classes that are compared differ in their
lengths. -/
theorem verifyFields_throws (jvm : Jvm) (cl : ContractClass) : verifyFields jvm cl ≠ .ok () := by
  -- The type of the reflected object is compared, and not that of the field.
  have hlong : Java.equalsIgnoreCase jvm.foldCase "java.lang.reflect.Field" "java.lang.Long" = false := by
    rw [Java.equalsIgnoreCase, beq_eq_false_iff_ne]
    intro h
    have hlength := congrArg List.length h
    rw [List.length_map, List.length_map] at hlength
    exact absurd hlength (by decide)
  have hfield : ∃ e, verifyField jvm cl "DURABILITY" "java.lang.Long" = .error e := by
    unfold verifyField
    rw [hlong]
    split
    · exact ⟨_, rfl⟩
    · exact ⟨_, rfl⟩
  obtain ⟨e, he⟩ := hfield
  rw [verifyFields, he]
  intro h
  cases h

/-- No class passes the verifier. -/
theorem not_verified (jvm : Jvm) (cl : ContractClass) : ¬ Verified jvm cl :=
  fun h => verifyFields_throws jvm cl h.2.2

/-- Nothing happens with a class of an unregistered user, or without the constructor; otherwise the
constructor is executed. -/
theorem uploadEvents_cases (jvm : Jvm) (who : JString) (code : List UInt8) (st : BankService) :
    ((st.bankRepo.findByUserName who = none ∨
        ∀ cl, jvm.defineClass code = .ok cl → cl.hasStringConstructor = false) ∧
      uploadEvents jvm who code st = []) ∨
    ∃ b cl, st.bankRepo.findByUserName who = some b ∧ jvm.defineClass code = .ok cl ∧
      cl.hasStringConstructor = true ∧ .constructor ∈ uploadEvents jvm who code st := by
  unfold uploadEvents
  -- The account, the class and its constructor are asked for in this order.
  cases st.bankRepo.findByUserName who with
  | none => exact .inl ⟨.inl rfl, rfl⟩
  | some b =>
    cases jvm.defineClass code with
    | error e => exact .inl ⟨.inr (by simp), rfl⟩
    | ok cl =>
      cases hstring : cl.hasStringConstructor with
      | false => exact .inl ⟨.inr (by simp [hstring]), by simp [hstring]⟩
      | true => exact .inr ⟨b, cl, rfl, rfl, hstring, by simp [hstring]⟩

end Events

/-- An upload is gated by the verifier: code of the class is executed only if all verifiers return
normally on it, and when one of them throws, the reply carries an error and no contract is added. -/
def Gated (jvm : Jvm) (st : BankService) (command : Command) : Prop :=
  ∀ who code, decodeOrdered command = .ok (.createSmartContract who code) →
    (∀ cl, jvm.defineClass code = .ok cl →
      .constructor ∈ uploadEvents jvm who code st ∨ .run ∈ uploadEvents jvm who code st →
        Verified jvm cl) ∧
    (∀ cl, jvm.defineClass code = .ok cl → .verifier ∈ uploadEvents jvm who code st →
      ¬ Verified jvm cl →
        (∃ j, (st.appExecuteOrdered jvm command).1 = .ok (BankService.jsonReply j) ∧
          j.has "error" = true) ∧
        (st.appExecuteOrdered jvm command).2.sR.contracts = st.sR.contracts)

/-- **When an upload is gated by the verifier:** exactly when the user is not registered, or the
uploaded bytes define no class with a constructor that takes a string, so that none of its code is
executed. -/
theorem upload_gated_iff (jvm : Jvm) (st : BankService) (command : Command) (who : JString)
    (code : List UInt8) (upload : decodeOrdered command = .ok (.createSmartContract who code)) :
    Gated jvm st command ↔
      st.bankRepo.findByUserName who = none ∨
        ∀ cl, jvm.defineClass code = .ok cl → cl.hasStringConstructor = false := by
  rcases uploadEvents_cases jvm who code st with ⟨hcond, hnil⟩ | ⟨b, cl, hu, hcl, hstring, hrun⟩
  · refine iff_of_true (fun who' code' upload' => ?_) hcond
    rw [upload] at upload'
    cases upload'
    rw [hnil]
    simp
  · -- The constructor is executed, but no class is verified.
    refine iff_of_false (fun h => ?_) ?_
    · exact not_verified jvm cl ((h who code upload).1 cl hcl (.inl hrun))
    · rintro (hnone | hno)
      · rw [hu] at hnone
        cases hnone
      · rw [hno cl hcl] at hstring
        cases hstring

/-- A class that cannot be made an object of. -/
def unconstructible : ContractClass :=
  { ContractClass.queueing [] with hasStringConstructor := false }

/-- A replica with the user `bob`. -/
def bobRegistered : BankService :=
  ((BankService.new.appExecuteOrdered (Jvm.plain unconstructible)
    [.object (.str "REGISTER_USER"), .object (.str "bob"), .object (.str "secret"),
      .object (.long 10), .object .null])).2

/-- The upload of the bytes `[1]` by `bob`. -/
def bobUploads : Command :=
  .object (.str "CREATE_SMART_CONTRACT") :: .object (.str "bob") :: (writeInt 1 ++ writeBytes [1])

/-- No code of a class without the constructor is executed. -/
theorem upload_gated_unconstructible :
    bobRegistered.bankRepo.findByUserName (some "bob") ≠ none ∧
      Gated (Jvm.plain unconstructible) bobRegistered bobUploads :=
  ⟨by decide, (upload_gated_iff _ bobRegistered bobUploads (some "bob") [1] rfl).mpr
    (.inr (by rintro cl ⟨⟩; rfl))⟩

/-- **Unverified code runs:** all three verifiers throw on the class that `bob` uploads, and yet its
constructor is executed, the reply tells success, and its `run` method queues an operation. -/
theorem unverified_code_runs :
    let jvm := Jvm.plain (ContractClass.queueing ["CREATE_MONEY 5"])
    let r := bobRegistered.appExecuteOrdered jvm bobUploads
    (verifyConstructors (ContractClass.queueing ["CREATE_MONEY 5"])).toBool = false ∧
      (verifyFields jvm (ContractClass.queueing ["CREATE_MONEY 5"])).toBool = false ∧
      (verifyInterfaces jvm (ContractClass.queueing ["CREATE_MONEY 5"])).toBool = false ∧
      uploadEvents jvm (some "bob") [1] bobRegistered = [.constructor, .verifier, .run] ∧
      r.1 = .ok (BankService.jsonReply (JSONObject.empty.put "SUCCESS" (some (.bool true)))) ∧
      r.2.sR.statics.operations = ["CREATE_MONEY 5"] ∧ r.2.sR.contracts.size = 1 := by
  decide

end NovaBank.Replica
