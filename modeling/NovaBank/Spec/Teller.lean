import NovaBank.Ledger.AllAccounts
import NovaBank.Money.Stale

/-!
# A proxy is a teller

What the calls of the controller are for: a map of names to balances, with registrations, deposits,
transfers and questions. `Accounts.call` says what each call answers and what it makes of the map, its
odd cases included: a deposit to a balance below zero counts from the negated balance, one to the least
balance never returns, a balance of -1 is reported as that of nobody, and who asks for a user whom there
is not gets an exception.

`rest_is_teller`: a proxy with its cache, in front of the replicas, does just this over any run of calls,
those that fail included. The calls must be `Safe`: the names of registrations are texts that are not
empty, and no transfer is larger than the balance of its sender.
-/

namespace NovaBank.Spec

open Java Replica Proxy Money

open Proxy.BankServiceReplicationJedisCluster (Holds Entry assign assign_of_some cachedAccount
  cachedAccounts hashOf hashOf_perm accountsHash_eq userKey isUserKey_userKey parseLong_jlongToText)

/-- The balances under the names. -/
abbrev Accounts := String → Option JLong

/-- The result of a call. -/
abbrev Result := Except JavaException Status

namespace Accounts

/-- Nobody has an account. -/
def new : Accounts := fun _ => none

/-- The answer to who asks for a balance. -/
def amountOf (m : Accounts) (who : String) : Result :=
  match m who with
  | some (some v) => .ok (if v = -1 then .notFound else .ok)
  | _ => .error .nullPointer

open Classical in
/-- What a call returns and makes of the accounts, `none` when it never returns. -/
noncomputable def call (m : Accounts) : RestCall → Option (Result × Accounts)
  | .createNew userName password _ amount roles =>
    match userName, password with
    | some u, some _ =>
      -- A role that is `null` is reported like a name that is taken.
      if m u = none ∧ ∀ r ∈ roles.getD [], r ≠ none then
        some (.ok .ok, Function.update m u (some amount))
      else some (.ok .conflict, m)
    | _, _ => some (.error .other, m)
  | .createMoney who amount =>
    match m who, amount with
    | none, _ => some (.error .nullPointer, m)
    | some none, _ => some (.error .numberFormat, m)
    | some (some _), none => some (.error .nullPointer, m)
    | some (some v), some amount =>
      if v = Int64.minValue then none
      else some (.ok .ok, assign m who ((if 0 ≤ v then v else -v) + amount))
  | .transferMoney sender receiver amount =>
    match amount, m sender, m receiver with
    | none, _, _ => some (.error .nullPointer, m)
    | some _, none, _ => some (.ok .notFound, m)
    | some _, some _, none => some (.ok .notFound, m)
    | some amount, some (some v), some (some w) =>
      some (.ok .ok, assign (assign m sender (v - amount)) receiver (w + amount))
    | some _, some _, some _ => some (.error .numberFormat, m)
  | .getAmountOfUser who => some (m.amountOf who, m)
  | .getAll =>
    some (if ∀ u, m u ≠ some none then .ok .ok else .error .numberFormat, m)

/-- The results of some calls, and the accounts after them. -/
noncomputable def run (m : Accounts) : List RestCall → Option (List Result × Accounts)
  | [] => some ([], m)
  | c :: cs =>
    match m.call c with
    | none => none
    | some (r, m') => (m'.run cs).map fun p => (r :: p.1, p.2)

/-- The calls that the cache and the replicas treat alike. -/
def SafeCall (m : Accounts) : RestCall → Prop
  | .createNew userName _ _ _ _ => userName ≠ none ∧ userName ≠ some ""
  | .transferMoney sender receiver (some amount) => ∀ v w, m sender = some (some v) →
      m receiver = some (some w) → 0 ≤ v - amount ∨ amount = 0
  | _ => True

/-- Each call is safe at its time. -/
def Safe (m : Accounts) : List RestCall → Prop
  | [] => True
  | c :: cs => m.SafeCall c ∧ ∀ r m', m.call c = some (r, m') → m'.Safe cs

end Accounts

/-! ## One call -/

section Calls

variable {env : Environment} {d : Deployment}

/-- A call at the proxy does what the teller does: it returns just the result, with the accounts on both
sides, or does not return. -/
def Simulates (env : Environment) (d : Deployment) (c : RestCall) :
    Option (Result × Accounts) → Prop
  | none => ∀ result d', ¬ Retry.Returns (c.attempt env) d result d'
  | some (r, m) => ∃ d', Mirrors d' ∧ accountsOf d'.service.bankRepo = m ∧
      ∀ result d₂, Retry.Returns (c.attempt env) d result d₂ ↔ result = r ∧ d₂ = d'

/-- A call that is finished by its first attempt. -/
theorem simulates_of_done {c : RestCall} {r : Result} {d' : Deployment} {m : Accounts}
    (hattempt : c.attempt env d = (some r, d')) (h : Mirrors d')
    (haccounts : accountsOf d'.service.bankRepo = m) : Simulates env d c (some (r, m)) :=
  ⟨d', h, haccounts, fun _ _ => Retry.returns_iff_of_done hattempt⟩

/-- A call that leaves the deployment as it is. -/
theorem simulates_of_same {c : RestCall} {r : Result} (h : Mirrors d)
    (hattempt : c.attempt env d = (some r, d)) :
    Simulates env d c (some (r, accountsOf d.service.bankRepo)) :=
  simulates_of_done hattempt h rfl

/-- A call that leaves the cache and the accounts as they are. -/
theorem simulates_of_users {c : RestCall} {r : Result} {d' : Deployment} (h : Mirrors d)
    (hattempt : c.attempt env d = (some r, d')) (hcache : d'.cache = d.cache)
    (husers : d'.service.bankRepo.users = d.service.bankRepo.users) :
    Simulates env d c (some (r, accountsOf d.service.bankRepo)) :=
  simulates_of_done hattempt (h.of_users hcache husers) (accountsOf_of_users husers)

/-- Roles without a `null` make an account. -/
theorem new_isOk_iff (jvm : Jvm) (userName password : JString) (amount : JLong)
    (roles : Option (List JString)) :
    (∃ b, BankEntity.new jvm userName password amount roles = .ok b) ↔
      ∀ r ∈ roles.getD [], r ≠ none := by
  -- On the roles, with what was joined already.
  have happend : ∀ (rs : List JString) (acc : String),
      (∃ r, BankEntity.appendRoles jvm acc rs = .ok r) ↔ ∀ r ∈ rs, r ≠ none := by
    intro rs
    induction rs with
    | nil => exact fun acc => iff_of_true ⟨acc, rfl⟩ (by simp)
    | cons r rs ih =>
      intro acc
      cases r with
      | none => exact iff_of_false (by simp [BankEntity.appendRoles]) (by simp)
      | some r =>
        rw [BankEntity.appendRoles]
        split_ifs <;> simp [ih]
  cases roles with
  | none => exact iff_of_true ⟨_, rfl⟩ (by simp)
  | some rs =>
    rw [BankEntity.new, Option.getD_some, ← happend rs "ROLE_USER"]
    cases BankEntity.appendRoles jvm "ROLE_USER" rs <;> simp [Except.map]

/-- The accounts of a deployment. -/
abbrev accounts (d : Deployment) : Accounts := accountsOf d.service.bankRepo

/-- A registration that is refused. -/
theorem createNew_conflict {u : String} (password encoded : String) (amount : JLong)
    (roles : Option (List JString))
    (refused : d.service.bankRepo.findByUserName (some u) ≠ none ∨
      ∃ e, BankEntity.new env.jvm (some u) (some encoded) amount roles = .error e) :
    ∃ d', RestAPIController.createNew env (some u) (some password) encoded amount roles d =
        (.ok .conflict, d') ∧
      d'.cache = d.cache ∧ d'.service.bankRepo.users = d.service.bankRepo.users := by
  unfold RestAPIController.createNew
  dsimp only
  rw [BankService.appExecuteOrdered, decodeOrdered_registerUser]
  dsimp only [BankService.executeLedger, BankService.executeRegisterUser]
  cases hfree : d.service.bankRepo.findByUserName (some u) with
  | some b => exact ⟨_, rfl, rfl, rfl⟩
  | none =>
    obtain ⟨e, he⟩ := refused.resolve_left (not_not.mpr hfree)
    dsimp only [BankServiceHelper.registerUser]
    rw [he]
    dsimp only [Except.map, BankService.finish]
    -- An exception of the stream is caught by the replica, which answers nothing; any other one passes.
    by_cases hstream : e.isStream = true
    · rw [if_pos hstream]
      exact ⟨_, rfl, rfl, rfl⟩
    · rw [if_neg hstream]
      exact ⟨_, rfl, rfl, rfl⟩

/-- A registration that is accepted. -/
theorem createNew_done {u : String} (hu : u ≠ "") (password encoded : String) {amount : JLong}
    {roles : Option (List JString)} {b : BankEntity}
    (free : d.service.bankRepo.findByUserName (some u) = none)
    (account : BankEntity.new env.jvm (some u) (some encoded) amount roles = .ok b) :
    ∃ d', RestAPIController.createNew env (some u) (some password) encoded amount roles d =
        (.ok .ok, d') ∧
      d'.service.bankRepo.users = (d.service.bankRepo.newUserBankEntity b).users := by
  have hname := BankEntity.userName_of_new account
  -- Neither the lookup nor the construction stops the registration, and the reply is the name.
  unfold RestAPIController.createNew
  dsimp only
  rw [BankService.appExecuteOrdered, decodeOrdered_registerUser]
  dsimp only [BankService.executeLedger, BankService.executeRegisterUser]
  rw [free]
  dsimp only [BankServiceHelper.registerUser]
  rw [account]
  dsimp only [Except.map, BankService.finish, received]
  rw [hname]
  dsimp only [ClientRequestHandler.invokeCreateNew]
  rw [if_neg hu]
  exact ⟨_, rfl, rfl⟩

/-- A registration at a proxy is one at the teller. -/
theorem simulates_createNew (h : Mirrors d) {u : String} (hu : u ≠ "") (password : JString)
    (encoded : String) (amount : JLong) (roles : Option (List JString)) :
    Simulates env d (.createNew (some u) password encoded amount roles)
      (Accounts.call (accounts d) (.createNew (some u) password encoded amount roles)) := by
  cases password with
  | none => exact simulates_of_same h (by rfl)
  | some password =>
    have hnew := new_isOk_iff env.jvm (some u) (some encoded) amount roles
    have hfree : accounts d u = none ↔ d.service.bankRepo.findByUserName (some u) = none :=
      Option.map_eq_none_iff
    -- The replica refuses a taken name and `null` roles, and both become the same status.
    by_cases haccepted : accounts d u = none ∧ ∀ r ∈ roles.getD [], r ≠ none
    · obtain ⟨b, hb⟩ := hnew.mpr haccepted.2
      obtain ⟨d', hcall, husers⟩ := createNew_done hu password encoded (hfree.mp haccepted.1) hb
      have hteller : Accounts.call (accounts d)
          (.createNew (some u) (some password) encoded amount roles) =
          some (.ok .ok, Function.update (accounts d) u (some amount)) := if_pos haccepted
      rw [hteller]
      refine simulates_of_done (by rw [RestCall.attempt, RestCall.once, hcall])
        (mirrors_createNew h hcall) ?_
      rw [accountsOf_of_users husers, ← BankEntity.amount_of_new hb]
      exact accountsOf_newUserBankEntity (BankEntity.userName_of_new hb)
    · have hteller : Accounts.call (accounts d)
          (.createNew (some u) (some password) encoded amount roles) =
          some (.ok .conflict, accounts d) := if_neg haccepted
      rw [hteller]
      have hrefused : d.service.bankRepo.findByUserName (some u) ≠ none ∨
          ∃ e, BankEntity.new env.jvm (some u) (some encoded) amount roles = .error e := by
        rcases not_and_or.mp haccepted with htaken | hnull
        · exact .inl fun hf => htaken (hfree.mpr hf)
        · right
          cases hb : BankEntity.new env.jvm (some u) (some encoded) amount roles with
          | error e => exact ⟨e, rfl⟩
          | ok b => exact absurd (hnew.mp ⟨b, hb⟩) hnull
      obtain ⟨d', hcall, hcache, husers⟩ := createNew_conflict password encoded amount roles hrefused
      exact simulates_of_users h (by rw [RestCall.attempt, RestCall.once, hcall]) hcache husers

/-- So is a deposit. -/
theorem simulates_createMoney (h : Mirrors d) (who : String) (amount : JLong) :
    Simulates env d (.createMoney who amount)
      (Accounts.call (accounts d) (.createMoney who amount)) := by
  have hget := h.holds.getMoney_eq who
  -- The request reads the cache first, and ends there when the user has no balance.
  cases hwho : accountsOf d.service.bankRepo who with
  | none =>
    rw [hwho] at hget
    simp only [Accounts.call, hwho]
    refine simulates_of_same h ?_
    cases amount with
    | none => simp only [RestCall.attempt, RestCall.once, hget]
    | some amount => rw [RestCall.attempt, RestAPIController.attemptCreateMoney, hget]
  | some a =>
    cases a with
    | none =>
      rw [hwho] at hget
      simp only [Accounts.call, hwho]
      refine simulates_of_same h ?_
      cases amount with
      | none => simp only [RestCall.attempt, RestCall.once, hget]
      | some amount => rw [RestCall.attempt, RestAPIController.attemptCreateMoney, hget]
    | some v =>
      rw [hwho] at hget
      cases amount with
      | none =>
        simp only [Accounts.call, hwho]
        refine simulates_of_same h ?_
        simp only [RestCall.attempt, RestCall.once, hget]
      | some amount =>
        simp only [Accounts.call, hwho]
        obtain ⟨b, hb, hv⟩ := find_of_accountsOf hwho
        by_cases hmin : v = Int64.minValue
        · subst hmin
          rw [if_pos rfl]
          exact fun result d' => deposit_never env h.holds hwho hb hv
        · have hcounted : countedFrom v v = if 0 ≤ v then v else -v := if_pos rfl
          obtain ⟨d', hreturns, hholds, husers⟩ := returns_deposit env h.holds hwho hb hv amount hmin
          rw [hcounted] at hholds husers
          rw [if_neg hmin]
          refine ⟨d', h.setAmount hb hholds husers, ?_, hreturns⟩
          rw [accountsOf_of_users husers, accountsOf_setAmount hb]

/-- So is a transfer that the cache does not refuse. -/
theorem simulates_transferMoney (h : Mirrors d) {sender receiver : String} {amount : JLong}
    (safe : Accounts.SafeCall (accounts d) (.transferMoney sender receiver amount)) :
    Simulates env d (.transferMoney sender receiver amount)
      (Accounts.call (accounts d) (.transferMoney sender receiver amount)) := by
  cases amount with
  | none => exact simulates_of_same h rfl
  | some amount =>
    have habsent : accounts d sender = none ∨ accounts d receiver = none →
        (RestCall.transferMoney sender receiver (some amount)).attempt env d =
          (some (.ok .notFound), d) := by
      intro hnone
      rw [RestCall.attempt, RestAPIController.attemptTransferMoney,
        h.holds.getTransferInfo_of_none hnone amount]
    have hnull : ∀ a a', accounts d sender = some a → accounts d receiver = some a' →
        a = none ∨ a' = none →
        (RestCall.transferMoney sender receiver (some amount)).attempt env d =
          (some (.error .numberFormat), d) := by
      intro a a' hs ht hor
      rw [RestCall.attempt, RestAPIController.attemptTransferMoney,
        h.holds.getTransferInfo_of_null hs ht amount hor]
    -- The request ends at the cache unless both users have a balance there.
    cases hs : accounts d sender with
    | none =>
      simp only [Accounts.call, hs]
      exact simulates_of_same h (habsent (.inl hs))
    | some a =>
      cases ht : accounts d receiver with
      | none =>
        simp only [Accounts.call, hs, ht]
        exact simulates_of_same h (habsent (.inr ht))
      | some a' =>
        cases a with
        | none =>
          simp only [Accounts.call, hs, ht]
          exact simulates_of_same h (hnull none a' hs ht (.inl rfl))
        | some v =>
          cases a' with
          | none =>
            simp only [Accounts.call, hs, ht]
            exact simulates_of_same h (hnull (some v) none hs ht (.inr rfl))
          | some w =>
            simp only [Accounts.call, hs, ht]
            obtain ⟨d', hd', -, haccounts, -⟩ := transfer_done env h hs ht amount
            refine simulates_of_done hd' ?_ haccounts
            refine mirrors_transferMoney h ?_ ((Retry.returns_iff_of_done hd').mpr ⟨rfl, rfl⟩)
            intro v' hv'
            obtain ⟨b, hb, hbv⟩ := find_of_balanceOf hv'
            have hs' : accounts d sender = some (some v') := by
              rw [accounts, accountsOf_of_find hb, hbv]
            exact safe v' w hs' ht

/-- What a question for a balance finds on both sides. -/
theorem getAmountOfUser_eq (env : Environment) (h : Mirrors d) (who : String) :
    RestAPIController.getAmountOfUser env who d =
      (Accounts.amountOf (accounts d) who, { d with
        service := (d.service.access env.jvm
          (.unordered (queryCommand (.checkCurrentAmount (some who))))).2 }) := by
  have hcheck := invokeCheckCurrentAmount_eq env.jvm d.service (some who)
  have hget := h.holds.getMoney_eq who
  have hbalance : balanceOf d.service.bankRepo (some who) =
      (accountsOf d.service.bankRepo who).bind id := by
    unfold balanceOf accountsOf
    cases d.service.bankRepo.findByUserName (some who) <;> rfl
  rw [hbalance] at hcheck
  unfold RestAPIController.getAmountOfUser Accounts.amountOf accounts
  dsimp only
  rw [hcheck]
  -- The cache has the amount of the replica, so nothing is corrected.
  cases hwho : accountsOf d.service.bankRepo who with
  | none => rfl
  | some a =>
    cases a with
    | none => rfl
    | some v =>
      rw [hwho] at hget
      dsimp only [Option.bind_some, id]
      by_cases hv : v = -1
      · rw [if_pos hv, if_pos hv]
      · rw [if_neg hv, if_neg hv, hget]
        dsimp only
        rw [if_pos rfl]

/-- So is the question for a balance. -/
theorem simulates_getAmountOfUser (h : Mirrors d) (who : String) :
    Simulates env d (.getAmountOfUser who)
      (Accounts.call (accounts d) (.getAmountOfUser who)) := by
  have hattempt := congrArg (fun p => (some p.1, p.2)) (getAmountOfUser_eq env h who)
  exact simulates_of_users h hattempt rfl (access_unordered_users env.jvm d.service _)

/-- Each key that the cache lists is that of an account. -/
theorem account_of_key (env : Environment) (h : Mirrors d) {s : String} (hs : s ∈ env.keys d.cache) :
    ∃ u a, s = userKey u ∧ accounts d u = some a ∧ Entry d.cache u a := by
  obtain ⟨huser, hmem⟩ := (env.mem_keys d.cache s).mp hs
  have hhash : s ∈ d.cache.hashes.keys := hmem.resolve_right fun hset => by
    rw [h.holds.sets s hset] at huser
    cases huser
  obtain ⟨u, a, rfl, hentry⟩ := h.holds.holdsUsers.hashes s hhash huser
  cases hu : accounts d u with
  | none => exact absurd (h.holds.absent hu) hentry.lookup_ne_none
  | some a' => exact ⟨u, a', rfl, hu, h.holds.entry hu⟩

/-- An amount that is `null` is no number in the cache. -/
theorem cachedAccount_of_null {r : Redis} {u : String} (h : Entry r u none) :
    cachedAccount r (userKey u) = .error .numberFormat := by
  unfold cachedAccount
  dsimp only
  rw [h.2, Option.bind_some, parseLong_jlongToText]

/-- The list of the cached accounts cannot be read when one of them has no amount. -/
theorem cachedAccounts_of_null (env : Environment) (h : Mirrors d) {u : String}
    (hu : accounts d u = some none) :
    cachedAccounts (env.keys d.cache) d.cache = .error .numberFormat := by
  have hentry := h.holds.entry hu
  have hkey : userKey u ∈ env.keys d.cache :=
    (env.mem_keys _ _).mpr ⟨isUserKey_userKey u, .inl hentry.mem_keys⟩
  -- An error is always that of a text which is no number, whichever key it came from.
  cases hlist : cachedAccounts (env.keys d.cache) d.cache with
  | ok list =>
    obtain ⟨j, hj⟩ := ok_of_mapM hlist _ hkey
    rw [cachedAccount_of_null hentry] at hj
    cases hj
  | error e =>
    obtain ⟨s, -, he⟩ := exists_error_of_mapM hlist
    unfold cachedAccount at he
    dsimp only at he
    split at he
    · cases he
      rfl
    · cases he

/-- Otherwise it can. -/
theorem exists_cachedAccounts (env : Environment) (h : Mirrors d)
    (hall : ∀ u, accounts d u ≠ some none) :
    ∃ list, cachedAccounts (env.keys d.cache) d.cache = .ok list := by
  cases hlist : cachedAccounts (env.keys d.cache) d.cache with
  | ok list => exact ⟨list, rfl⟩
  | error e =>
    obtain ⟨s, hs, he⟩ := exists_error_of_mapM hlist
    obtain ⟨u, a, rfl, hu, hentry⟩ := account_of_key env h hs
    cases a with
    | none => exact absurd hu (hall u)
    | some v =>
      rw [Ledger.cachedAccount_eq hentry] at he
      cases he

/-- The hashes of the cache and of the replicas are equal, and the cached accounts are returned. -/
theorem getAll_eq (h : Mirrors d) {list : List JSONObject}
    (hlist : cachedAccounts (env.keys d.cache) d.cache = .ok list) :
    RestAPIController.getAll env d =
      (.ok .ok, { d with service := { d.service with bankRepo := d.service.bankRepo.save } }) := by
  -- The hash is that of the same accounts in another order.
  have hhash : BankService.accountsHash env.jvm (d.service.bankRepo.usersIterator env.jvm) =
      hashOf env.jvm list := by
    rw [accountsHash_eq]
    refine hashOf_perm env.jvm (List.Perm.trans ?_ (cachedAccounts_perm env h hlist).symm)
    exact (inOrder_perm env.jvm d.service.bankRepo.users).map _
  have hanswer := BankService.access_of_answer env.jvm d.service
    (decodeUnordered_queryCommand .listAllBankAccounts) rfl
  unfold RestAPIController.getAll
  rw [hlist]
  dsimp only
  rw [hanswer]
  dsimp only [received, ClientRequestHandler.invokeListAllBankAccounts]
  rw [if_neg (not_not.mpr hhash)]

/-- The request for all accounts is the one at the teller. -/
theorem simulates_getAll (h : Mirrors d) :
    Simulates env d .getAll (Accounts.call (accounts d) .getAll) := by
  unfold Accounts.call
  by_cases hall : ∀ u, accounts d u ≠ some none
  · obtain ⟨list, hlist⟩ := exists_cachedAccounts env h hall
    rw [if_pos hall]
    have hattempt := congrArg (fun p => (some p.1, p.2)) (getAll_eq h hlist)
    exact simulates_of_users h hattempt rfl rfl
  · obtain ⟨u, hu⟩ := not_forall_not.mp hall
    rw [if_neg hall]
    refine simulates_of_same h ?_
    rw [RestCall.attempt, RestCall.once, RestAPIController.getAll, cachedAccounts_of_null env h hu]

/-- **One call:** the proxy and the replicas do what the teller does. -/
theorem simulates_call (h : Mirrors d) {c : RestCall} (safe : Accounts.SafeCall (accounts d) c) :
    Simulates env d c (Accounts.call (accounts d) c) := by
  cases c with
  | createNew userName password encoded amount roles =>
    obtain ⟨u, rfl⟩ := Option.ne_none_iff_exists'.mp safe.1
    exact simulates_createNew h (fun hu => safe.2 (congrArg some hu)) password encoded amount roles
  | createMoney who amount => exact simulates_createMoney h who amount
  | transferMoney sender receiver amount => exact simulates_transferMoney h safe
  | getAmountOfUser who => exact simulates_getAmountOfUser h who
  | getAll => exact simulates_getAll h

end Calls

/-! ## Runs -/

/-- Calls at the proxy, one after the other, with what they return. -/
inductive Answers (env : Environment) : Deployment → List RestCall → List Result → Deployment → Prop
  | nil (d : Deployment) : Answers env d [] [] d
  | call {d d' d'' : Deployment} {c : RestCall} {cs : List RestCall} {r : Result} {rs : List Result} :
    Retry.Returns (c.attempt env) d r d' → Answers env d' cs rs d'' →
      Answers env d (c :: cs) (r :: rs) d''

/-- Without calls there are no answers, and nothing has changed. -/
theorem answers_nil_iff {env : Environment} {d d' : Deployment} {rs : List Result} :
    Answers env d [] rs d' ↔ rs = [] ∧ d' = d := by
  constructor
  · intro h
    cases h
    exact ⟨rfl, rfl⟩
  · rintro ⟨rfl, rfl⟩
    exact .nil d'

/-- A run starts with its first call. -/
theorem answers_cons_iff {env : Environment} {d d'' : Deployment} {c : RestCall} {cs : List RestCall}
    {rs : List Result} :
    Answers env d (c :: cs) rs d'' ↔ ∃ r d' rs', rs = r :: rs' ∧
      Retry.Returns (c.attempt env) d r d' ∧ Answers env d' cs rs' d'' := by
  constructor
  · intro h
    cases h with
    | call hreturns hrest => exact ⟨_, _, _, rfl, hreturns, hrest⟩
  · rintro ⟨r, d', rs', rfl, hreturns, hrest⟩
    exact .call hreturns hrest

/-- A run from accounts that the cache mirrors. -/
theorem answers_iff (env : Environment) {d : Deployment} (h : Mirrors d) {calls : List RestCall}
    (safe : Accounts.Safe (accounts d) calls) (results : List Result) (m : Accounts) :
    (∃ d', Answers env d calls results d' ∧ accounts d' = m) ↔
      Accounts.run (accounts d) calls = some (results, m) := by
  -- On the calls, from any deployment whose cache is right.
  induction calls generalizing d results with
  | nil =>
    simp only [answers_nil_iff, Accounts.run, Option.some.injEq, Prod.mk.injEq]
    constructor
    · rintro ⟨d', ⟨rfl, rfl⟩, rfl⟩
      exact ⟨rfl, rfl⟩
    · rintro ⟨rfl, rfl⟩
      exact ⟨d, ⟨rfl, rfl⟩, rfl⟩
  | cons c cs ih =>
    obtain ⟨hsafe, hrest⟩ := safe
    have hcall : Simulates env d c _ := simulates_call h hsafe
    simp only [answers_cons_iff, Accounts.run]
    cases hteller : Accounts.call (accounts d) c with
    | none =>
      rw [hteller] at hcall
      -- A call that never returns gives no results on either side.
      refine iff_of_false ?_ (Option.some_ne_none _).symm
      rintro ⟨d'', ⟨r, d', rs', -, hreturns, -⟩, -⟩
      exact hcall r d' hreturns
    | some p =>
      obtain ⟨r, m'⟩ := p
      rw [hteller] at hcall
      obtain ⟨d', hmirrors, haccounts, hreturns⟩ := hcall
      have hsafe' : Accounts.Safe (accounts d') cs := by
        rw [accounts, haccounts]
        exact hrest r m' hteller
      dsimp only
      constructor
      · rintro ⟨d'', ⟨r', d₁, rs', rfl, hfirst, hanswers⟩, hm⟩
        obtain ⟨rfl, rfl⟩ := (hreturns r' d₁).mp hfirst
        have hrun := (ih hmirrors hsafe' rs').mp ⟨d'', hanswers, hm⟩
        rw [accounts, haccounts] at hrun
        rw [hrun, Option.map_some]
      · intro hrun
        obtain ⟨⟨rs', m₁⟩, hrun', hp⟩ := Option.map_eq_some_iff.mp hrun
        cases hp
        rw [← haccounts] at hrun'
        obtain ⟨d'', hanswers, hm⟩ := (ih hmirrors hsafe' rs').mpr hrun'
        exact ⟨d'', ⟨r, d', rs', rfl, (hreturns r d').mpr ⟨rfl, rfl⟩, hanswers⟩, hm⟩

/-- **A proxy is a teller:** from an empty cache and replicas without users, the calls return some
results and leave some accounts exactly when the teller does, and none of it when one of its calls never
returns. -/
theorem rest_is_teller (env : Environment) {calls : List RestCall}
    (safe : Accounts.Safe Accounts.new calls) (results : List Result) (m : Accounts) :
    (∃ d, Answers env ⟨Redis.empty, BankService.new⟩ calls results d ∧ accounts d = m) ↔
      Accounts.run Accounts.new calls = some (results, m) :=
  answers_iff env mirrors_start safe results m

/-- Two registrations, one of them twice, a deposit to a balance below zero, a transfer and two
questions. -/
def day : List RestCall :=
  [.createNew (some "alice") (some "secret") "$2a$10$alice" (some 5) none,
    .createNew (some "bob") (some "secret") "$2a$10$bob" (some (-4)) none,
    .createNew (some "alice") (some "other") "$2a$10$other" (some 9) none,
    .createMoney "bob" (some 3), .transferMoney "alice" "bob" (some 2), .getAmountOfUser "bob",
    .getAmountOfUser "carol"]

/-- No transfer of the day is larger than the balance of its sender. -/
theorem safe_day : Accounts.Safe Accounts.new day := by
  simp [day, Accounts.Safe, Accounts.SafeCall, Accounts.call, Accounts.new, assign]

/-- The day is answered: `bob` has -4 and is given 3, and has 7 then. -/
theorem day_answered :
    ∃ d, Answers plainEnvironment ⟨Redis.empty, BankService.new⟩ day
        [.ok .ok, .ok .ok, .ok .conflict, .ok .ok, .ok .ok, .ok .ok, .error .nullPointer] d ∧
      accounts d "alice" = some (some 3) ∧ accounts d "bob" = some (some 9) := by
  have hrun : ∃ m, Accounts.run Accounts.new day = some ([.ok .ok, .ok .ok, .ok .conflict, .ok .ok,
      .ok .ok, .ok .ok, .error .nullPointer], m) ∧ m "alice" = some (some 3) ∧
      m "bob" = some (some 9) := by
    simp [day, Accounts.run, Accounts.call, Accounts.amountOf, Accounts.new, assign]
  obtain ⟨m, hrun, halice, hbob⟩ := hrun
  obtain ⟨d, hanswers, rfl⟩ := (rest_is_teller plainEnvironment safe_day _ m).mpr hrun
  exact ⟨d, hanswers, halice, hbob⟩

end NovaBank.Spec
