import NovaBank.Proxy.Commands
import NovaBank.Replica.Answers

/-!
# Snapshots and saved files

What survives a state transfer (`getSnapshot`, `installSnapshot`) and a restart (`save`, `load`).

A snapshot is the version alone. `snapshot_faithful_iff`: a replica that installs the snapshot of
another one answers like it from then on, on every machine, exactly when its book was the same
before. And the version is counted by unordered requests, too, which replicas receive in different
numbers: `snapshots_agree_iff` says that two replicas with the same ordered requests have the same
snapshot exactly when the numbers of their unordered requests that complete agree modulo `2^32`.

The saved file begins with one byte for the version, where `load` reads four, so `load` always fails
before it has read anything. `load_save_iff`: a fresh repository recovers the state exactly when
that state is the fresh one.
-/

namespace NovaBank.Replica

open Java

/-! ## Sequences of requests -/

namespace BankService

/-- The replies to a sequence of requests, and the state after it. The runner executes nothing
meanwhile. -/
def serve (jvm : Jvm) : List Access → BankService → List (Except JavaException Reply) × BankService
  | [], st => ([], st)
  | a :: as, st =>
    let (reply, st) := st.access jvm a
    let (replies, st) := serve jvm as st
    (reply :: replies, st)

end BankService

/-- The book itself, with its times. -/
abbrev book (s : BankRepository) : Book := view (fun t => t) s

/-- Keeping the times keeps a result. -/
theorem except_map_retime_same (x : Except JavaException Reply) :
    x.map (Reply.retime fun t => t) = x := by
  cases x <;> simp [Except.map]

/-- A request to two replicas with the same book. -/
theorem access_same (jvm : Jvm) {st st' : BankService}
    (h : Sim (fun t => t) st.bankRepo st'.bankRepo)
    (a : Access) :
    (st.access jvm a).1 = (st'.access jvm a).1 ∧
      Sim (fun t => t) (st.access jvm a).2.bankRepo (st'.access jvm a).2.bankRepo := by
  -- Without a change of times, equal up to times is equal.
  cases a with
  | ordered command =>
    obtain ⟨⟨hreply, hsim⟩, -⟩ := appExecuteOrdered_agrees jvm h command
    rw [except_map_retime_same, except_map_retime_same] at hreply
    exact ⟨hreply, hsim⟩
  | unordered command =>
    obtain ⟨hreply, hsim⟩ := appExecuteUnordered_agrees jvm h command
    rw [except_map_retime_same, except_map_retime_same] at hreply
    exact ⟨hreply, hsim⟩

/-- A sequence of requests to two replicas with the same book. -/
theorem serve_same {jvm : Jvm} (as : List Access) {st st' : BankService}
    (h : Sim (fun t => t) st.bankRepo st'.bankRepo) :
    (st.serve jvm as).1 = (st'.serve jvm as).1 := by
  induction as generalizing st st' with
  | nil => rfl
  | cons a as ih =>
    obtain ⟨hreply, hsim⟩ := access_same jvm h a
    simp only [BankService.serve]
    rw [hreply, ih hsim]

/-! ## A book is known from its answers -/

section Observe

/-- Lists that are the same under a finer function are so under a coarser one. -/
theorem map_eq_of_map_eq {α β γ : Type} {p : α → β} {q : α → γ} (hpq : ∀ a b, p a = p b → q a = q b)
    {l l' : List α} (h : l.map p = l'.map p) : l.map q = l'.map q := by
  induction l generalizing l' with
  | nil =>
    rw [List.map_nil, eq_comm, List.map_eq_nil_iff] at h
    rw [h]
  | cons a l ih =>
    obtain ⟨b, l', rfl, hab, hl⟩ := List.map_eq_cons_iff.mp h.symm
    rw [List.map_cons, List.map_cons, ih hl.symm, hpq a b hab.symm]

/-- The listing of an account determines its name. -/
theorem userName_of_getJSONSecure {b b' : BankEntity} (h : b.getJSONSecure = b'.getJSONSecure) :
    b.userName = b'.userName := by
  cases hu : b.userName <;> cases ha : b.amount <;> cases hu' : b'.userName <;>
    cases ha' : b'.amount <;>
    simp_all [BankEntity.getJSONSecure, JSONObject.put, JSONObject.empty]

/-- The object of an account determines its data. -/
theorem data_of_getJSON {b b' : BankEntity} (h : b.getJSON = b'.getJSON) :
    b.userName = b'.userName ∧ b.password = b'.password ∧ b.amount = b'.amount ∧
      b.roles = b'.roles := by
  cases hu : b.userName <;> cases hp : b.password <;> cases ha : b.amount <;>
    cases hu' : b'.userName <;> cases hp' : b'.password <;> cases ha' : b'.amount <;>
    simp_all [BankEntity.getJSON, JSONObject.put, JSONObject.empty]

/-- The object of a bid determines the bid. -/
theorem bid_of_getJSON {b b' : BidEntity} (h : b.getJSON = b'.getJSON) : b = b' := by
  obtain ⟨i, u, a, t⟩ := b
  obtain ⟨i', u', a', t'⟩ := b'
  cases u <;> cases u' <;>
    simp_all [BidEntity.getJSON, JSONObject.put, JSONObject.empty]

variable {s t : BankRepository} {cl : ContractClass}

/-- What the answers to unordered requests are compared by: the reply, after the epilogue. -/
def answered (jvm : Jvm) (s : BankRepository) (q : Query) : Except JavaException Reply :=
  (BankService.finish (BankService.answer jvm s q, s)).1

/-- Two repositories that find the same accounts with the same bids have the same users. -/
theorem find_eq_of_answered (h : ∀ q, answered (Jvm.plain cl) s q = answered (Jvm.plain cl) t q)
    (u : JString) : (s.findByUserName u).map (BankEntity.account fun t => t) =
      (t.findByUserName u).map (BankEntity.account fun t => t) := by
  have hfind := h (.findUser u)
  have hbids := h (.listAllBidsFromUser u)
  cases hs : s.findByUserName u with
  | none =>
    cases ht : t.findByUserName u with
    | none => rfl
    | some b' => simp [answered, BankService.finish, BankService.answer, hs, ht] at hfind
  | some b =>
    cases ht : t.findByUserName u with
    | none => simp [answered, BankService.finish, BankService.answer, hs, ht] at hfind
    | some b' =>
      simp only [answered, BankService.finish, BankService.answer, hs, ht, Except.ok.injEq,
        Option.some.injEq, List.cons.injEq, ReplyObject.json.injEq, Json.object.injEq, and_true]
        at hfind
      simp only [answered, BankService.finish, BankService.answer, hs, ht, Except.ok.injEq,
        Option.some.injEq, List.cons.injEq, BankRepository.findAllBidsFromUser, Jvm.plain,
        KeyedMap.inOrder_id] at hbids
      -- The account as shown has all fields but the bids, which the second query lists.
      obtain ⟨hname, hpassword, hamount, hroles⟩ := data_of_getJSON hfind
      have hvalues : b.bids.values = b'.bids.values := by
        have := map_eq_of_map_eq (q := id) (fun x y hxy => bid_of_getJSON (by simpa using hxy)) hbids.2
        simpa using this
      simp [BankEntity.account, hname, hpassword, hamount, hroles, KeyedMap.ext hvalues]

/-- The listed auctions determine a map that files each one under its own id. -/
theorem auctions_eq_of_map {m m' : JavaMap JLong AuctionRef}
    (hm : ∀ {k r}, m.lookup k = some r → (s.auction r).id = k)
    (hm' : ∀ {k r}, m'.lookup k = some r → (t.auction r).id = k)
    (h : m.values.map (fun e => s.auction e.2) = m'.values.map (fun e => t.auction e.2)) :
    m.mapValues (fun r => (s.auction r).retime fun t => t) =
      m'.mapValues (fun r => (t.auction r).retime fun t => t) := by
  -- The keys are the ids of the auctions, so the objects determine the map.
  have hfile : ∀ (u : BankRepository) (n : JavaMap JLong AuctionRef),
      (∀ {k r}, n.lookup k = some r → (u.auction r).id = k) →
      (n.mapValues fun r => (u.auction r).retime fun t => t).values =
        (n.values.map fun e => u.auction e.2).map fun a => (a.id, a) := by
    intro u n hn
    simp only [JavaMap.mapValues, KeyedMap.map_values, List.map_map, AuctionEntity.retime_same]
    apply List.map_congr_left
    rintro ⟨k, r⟩ hkr
    simp [hn (JavaMap.mem_values_iff.mp hkr)]
  apply KeyedMap.ext
  rw [hfile s m hm, hfile t m' hm', h]

/-- Two repositories that answer alike on a plain machine keep the same book. -/
theorem book_eq_of_answered (cl : ContractClass) (hs : Indexed s) (ht : Indexed t)
    (h : ∀ q, answered (Jvm.plain cl) s q = answered (Jvm.plain cl) t q) : book s = book t := by
  have haccounts := h .listAllBankAccounts
  have hopened := h .listAllCurrentOpenedAuctions
  have hclosed := h .listAllCurrentClosedAuctions
  simp only [answered, BankService.finish, BankService.answer, Except.ok.injEq, Option.some.injEq,
    List.cons.injEq, ReplyObject.json.injEq, Json.array.injEq, and_true, Jvm.plain,
    BankRepository.usersIterator, BankRepository.openedAuctionsIterator,
    BankRepository.closedAuctionsIterator, KeyedMap.inOrder_id] at haccounts hopened hclosed
  have hinj : Function.Injective fun a : AuctionEntity => ReplyObject.json (.auction a) :=
    fun a b hab => by simpa using hab
  simp only [book, view, Book.mk.injEq]
  refine ⟨?_, ?_, ?_⟩
  · -- The listing gives the names in their order, and `FIND_USER` the account of each.
    apply KeyedMap.ext_get
    · rw [KeyedMap.keys_map, KeyedMap.keys_map]
      exact map_eq_of_map_eq (fun _ _ => userName_of_getJSONSecure) haccounts.2
    · intro u
      rw [KeyedMap.get_map, KeyedMap.get_map]
      exact find_eq_of_answered h u
  · exact auctions_eq_of_map (fun hk => (hs.object (hs.opened hk).1).2)
      (fun hk => (ht.object (ht.opened hk).1).2)
      (List.map_injective_iff.mpr hinj hopened.2)
  · exact auctions_eq_of_map (fun hk => (hs.object (hs.closed hk).1).2)
      (fun hk => (ht.object (ht.closed hk).1).2)
      (List.map_injective_iff.mpr hinj hclosed.2)

end Observe

/-! ## State transfer -/

/-- **What a snapshot carries:** a replica that installs the snapshot of another one answers every
later sequence of requests like it, on every machine, exactly when it kept the same book before. The
runner takes no step between the requests (`serve`), so contracts and operations that only one of the two
replicas has in its lists are not judged. -/
theorem snapshot_faithful_iff {jvm jvm' : Jvm} {st st' : BankService} (h : Reachable jvm st)
    (h' : Reachable jvm' st') :
    ∃ st'', st'.installSnapshot st.getSnapshot = .ok st'' ∧
      ((∀ m as, (st''.serve m as).1 = (st.serve m as).1) ↔ book st'.bankRepo = book st.bankRepo) := by
  refine ⟨{ st' with bankRepo := { st'.bankRepo with version := st.bankRepo.version } }, rfl, ?_⟩
  constructor
  · intro hall
    -- The installed version is not in the book.
    have hbook : book { st'.bankRepo with version := st.bankRepo.version } = book st.bankRepo := by
      refine book_eq_of_answered (ContractClass.queueing []) (h'.indexed.version _) h.indexed
        fun q => ?_
      have hq := hall (Jvm.plain (ContractClass.queueing [])) [.unordered (Proxy.queryCommand q)]
      simp only [BankService.serve, BankService.access, BankService.appExecuteUnordered,
        BankService.query, Proxy.decodeUnordered_queryCommand, List.cons.injEq, and_true] at hq
      exact hq
    exact hbook
  · intro hbook m as
    exact serve_same as ⟨h'.indexed.version _, h.indexed, hbook⟩

/-- A plain machine without contracts. -/
def plainJvm : Jvm := Jvm.plain (ContractClass.queueing [])

/-- A replica with one user. -/
def registered : BankService :=
  (BankService.new.appExecuteOrdered plainJvm
    (Proxy.registerUser (some "bob") (some "secret") (some 7) none)).2

/-- **A snapshot forgets the ledger:** a new replica that installs the snapshot of a replica with a
user does not know that user. -/
theorem snapshot_forgets_user :
    ∃ st'', BankService.new.installSnapshot registered.getSnapshot = .ok st'' ∧
      (st''.serve plainJvm [.unordered (Proxy.queryCommand (.findUser (some "bob")))]).1 ≠
        (registered.serve plainJvm [.unordered (Proxy.queryCommand (.findUser (some "bob")))]).1 :=
  ⟨_, rfl, by decide⟩

/-- A replica that has registered the user, too, and has been asked for the user. -/
def asked : BankService :=
  (registered.access plainJvm (.unordered (Proxy.queryCommand (.findUser (some "bob"))))).2

/-- It has another version, and after the snapshot it answers alike. -/
theorem snapshot_faithful_registered :
    Reachable plainJvm registered ∧ Reachable plainJvm asked ∧
      asked.bankRepo.version ≠ registered.bankRepo.version ∧
      ∃ st'', asked.installSnapshot registered.getSnapshot = .ok st'' ∧
        ∀ m as, (st''.serve m as).1 = (registered.serve m as).1 := by
  have h : Reachable plainJvm registered := Reachable.new.ordered _
  have h' : Reachable plainJvm asked := h.unordered (Proxy.queryCommand (.findUser (some "bob")))
  obtain ⟨st'', hinstall, hanswers⟩ := snapshot_faithful_iff h h'
  exact ⟨h, h', by decide, st'', hinstall, hanswers.mpr rfl⟩

/-! ## Versions -/

/-- Whether an unordered request fails with an exception that the epilogue does not catch: a type or
a field of the wrong class, or the amount of a user who has none. -/
def readFault (s : BankRepository) (command : Command) : Bool :=
  match decodeUnordered command with
  | .error e => !e.isStream
  | .ok (.checkCurrentAmount who) =>
    match s.findByUserName who with
    | some b => b.amount.isNone
    | none => false
  | .ok _ => false

/-- The epilogue counts the version exactly when it returns. -/
theorem finish_version (r : Outcome Reply) :
    (BankService.finish r).2.version =
      r.2.version + if (BankService.finish r).1.isOk then 1 else 0 := by
  unfold BankService.finish
  split
  · simp [BankRepository.save, Except.isOk, Except.toBool]
  · split
    · simp [BankRepository.save, Except.isOk, Except.toBool]
    · simp [Except.isOk, Except.toBool]

/-- Only the request for a balance can fail after it has been read. -/
theorem answer_ok (jvm : Jvm) (s : BankRepository) {q : Query}
    (hq : ∀ who, q ≠ .checkCurrentAmount who) : ∃ r, BankService.answer jvm s q = .ok r := by
  cases q with
  | checkCurrentAmount who => exact absurd rfl (hq who)
  | findUser u => simp only [BankService.answer]; split <;> exact ⟨_, rfl⟩
  | listAllBidsFromAuction id => simp only [BankService.answer]; split <;> exact ⟨_, rfl⟩
  | listAllBidsFromUser who => simp only [BankService.answer]; split <;> exact ⟨_, rfl⟩
  | checkWinnerBidClosedAuction id => simp only [BankService.answer]; split <;> exact ⟨_, rfl⟩
  | listAllBankAccounts => exact ⟨_, rfl⟩
  | listAllCurrentOpenedAuctions => exact ⟨_, rfl⟩
  | listAllCurrentClosedAuctions => exact ⟨_, rfl⟩
  | unsupported => exact ⟨_, rfl⟩

/-- A request for a balance fails exactly when the user has no amount. -/
theorem checkCurrentAmount_eq (jvm : Jvm) (s : BankRepository) (who : JString) :
    BankService.answer jvm s (.checkCurrentAmount who) = .error .nullPointer ∧
        readFault s (Proxy.queryCommand (.checkCurrentAmount who)) = true ∨
      (∃ r, BankService.answer jvm s (.checkCurrentAmount who) = .ok r) ∧
        readFault s (Proxy.queryCommand (.checkCurrentAmount who)) = false := by
  simp only [readFault, Proxy.decodeUnordered_queryCommand, BankService.answer_checkCurrentAmount]
  cases s.findByUserName who with
  | none => exact .inr ⟨⟨_, rfl⟩, rfl⟩
  | some b =>
    dsimp only [Option.elim_some]
    cases b.amount with
    | none => exact .inl ⟨rfl, rfl⟩
    | some v => exact .inr ⟨⟨_, rfl⟩, rfl⟩

/-- An unordered request returns exactly when it does not fault. -/
theorem appExecuteUnordered_isOk (jvm : Jvm) (command : Command) (s : BankRepository) :
    (BankService.appExecuteUnordered jvm command s).1.isOk = !readFault s command := by
  have hfinish : ∀ r : Reply, (BankService.finish (.ok r, s)).1.isOk = true := fun _ => rfl
  cases hd : decodeUnordered command with
  | error e =>
    simp only [BankService.appExecuteUnordered, BankService.query, readFault, hd]
    cases he : e.isStream <;>
      simp [BankService.finish, bind, Except.bind, he, Except.isOk, Except.toBool]
  | ok q =>
    have hquery : BankService.query jvm command s = BankService.answer jvm s q := by
      simp only [BankService.query, hd]
      rfl
    have hfault : readFault s command = readFault s (Proxy.queryCommand q) := by
      simp only [readFault, hd, Proxy.decodeUnordered_queryCommand]
    rw [BankService.appExecuteUnordered, hquery, hfault]
    -- After the reading, only a request for a balance can fail.
    by_cases hq : ∀ who, q ≠ .checkCurrentAmount who
    · obtain ⟨r, hr⟩ := answer_ok jvm s hq
      rw [hr, hfinish, readFault, Proxy.decodeUnordered_queryCommand]
      cases q <;> first | rfl | exact absurd rfl (hq _)
    · push Not at hq
      obtain ⟨who, rfl⟩ := hq
      rcases checkCurrentAmount_eq jvm s who with ⟨ha, hf⟩ | ⟨⟨r, ha⟩, hf⟩
      · rw [ha, hf]; rfl
      · rw [ha, hf, hfinish]; rfl

/-- An unordered request counts the version exactly when it does not fault. -/
theorem appExecuteUnordered_version (jvm : Jvm) (command : Command) (s : BankRepository) :
    (BankService.appExecuteUnordered jvm command s).2.version =
      s.version + if readFault s command then 0 else 1 := by
  have h := finish_version (BankService.query jvm command s, s)
  have hok := appExecuteUnordered_isOk jvm command s
  unfold BankService.appExecuteUnordered at hok ⊢
  rw [h, hok]
  cases readFault s command <;> rfl

/-- An ordered request counts the version exactly when it returns. -/
theorem appExecuteOrdered_version (jvm : Jvm) (command : Command) (st : BankService) :
    (st.appExecuteOrdered jvm command).2.bankRepo.version =
      st.bankRepo.version + if (st.appExecuteOrdered jvm command).1.isOk then 1 else 0 := by
  unfold BankService.appExecuteOrdered
  -- The change itself keeps the version, and `save` counts it unless the request has thrown.
  cases decodeOrdered command with
  | error e => exact finish_version (.error e, st.bankRepo)
  | ok r =>
    cases r with
    | ledger r =>
      have h := finish_version (BankService.executeLedger jvm r st.bankRepo)
      rw [(executeLedger_changes r st.bankRepo).version_eq] at h
      exact h
    | createSmartContract who code => exact finish_version (_, st.bankRepo)
    | other => exact finish_version (_, st.bankRepo)

/-- The ordered requests among some requests. -/
def orderedOf : List Access → List Command
  | [] => []
  | .ordered command :: as => command :: orderedOf as
  | .unordered _ :: as => orderedOf as

/-- The number of unordered requests in a sequence that do not fault in the state that they meet. -/
def servedReads (jvm : Jvm) : List Access → BankService → ℕ
  | [], _ => 0
  | .ordered command :: as, st => servedReads jvm as (st.appExecuteOrdered jvm command).2
  | .unordered command :: as, st =>
    (if readFault st.bankRepo command then 0 else 1) +
      servedReads jvm as (st.access jvm (.unordered command)).2

/-- A run has the version of the run of its ordered requests alone, and one more for every unordered
request that does not fault. -/
theorem serve_version (jvm : Jvm) (as : List Access) {st st' : BankService}
    (h : Sim (fun t => t) st.bankRepo st'.bankRepo) :
    (st.serve jvm as).2.bankRepo.version + st'.bankRepo.version =
      (st'.serve jvm ((orderedOf as).map .ordered)).2.bankRepo.version + st.bankRepo.version +
        Int32.ofNat (servedReads jvm as st) := by
  -- On the requests. The book of both sides stays the same, so an ordered request returns on both
  -- sides or on none.
  induction as generalizing st st' with
  | nil =>
    simp only [BankService.serve, orderedOf, List.map_nil, servedReads]
    grind
  | cons a as ih =>
    cases a with
    | ordered command =>
      obtain ⟨hreply, hsim⟩ := access_same jvm h (.ordered command)
      have hih := ih hsim
      simp only [BankService.access] at hreply hih
      simp only [BankService.serve, BankService.access, orderedOf, List.map_cons, servedReads]
      have hv := appExecuteOrdered_version jvm command st
      have hv' := appExecuteOrdered_version jvm command st'
      rw [hreply] at hv
      grind
    | unordered command =>
      -- The request is on the left only, and leaves the book alone.
      have hsim : Sim (fun t => t) (st.access jvm (.unordered command)).2.bankRepo st'.bankRepo := by
        refine ⟨h.left.updates (appExecuteUnordered_updates command st.bankRepo), h.right, ?_⟩
        rw [← h.view]
        simp only [BankService.access, BankService.appExecuteUnordered, BankService.finish]
        split
        · rfl
        · split <;> rfl
      have hih := ih hsim
      have hv : (st.access jvm (.unordered command)).2.bankRepo.version =
          st.bankRepo.version + if readFault st.bankRepo command then 0 else 1 :=
        appExecuteUnordered_version jvm command st.bankRepo
      simp only [BankService.serve, orderedOf, servedReads]
      rw [Int32.ofNat_add]
      cases hf : readFault st.bankRepo command <;> simp only [hf] at hv ⊢ <;> grind

/-- **When snapshots agree:** an unordered request leaves the version alone exactly when it faults;
and two replicas that executed the same ordered requests, with any unordered ones between them, have
the same snapshot exactly when the numbers of their unordered requests that did not fault agree
modulo `2^32`. -/
theorem snapshots_agree_iff (jvm : Jvm) :
    (∀ (st : BankService) (command : Command),
      (st.access jvm (.unordered command)).2.getSnapshot = st.getSnapshot ↔
        readFault st.bankRepo command = true) ∧
    ∀ as as' : List Access, orderedOf as = orderedOf as' →
      ((BankService.new.serve jvm as).2.getSnapshot = (BankService.new.serve jvm as').2.getSnapshot ↔
        servedReads jvm as BankService.new % 2^32 = servedReads jvm as' BankService.new % 2^32) := by
  -- The snapshot is the version and nothing else.
  have hsnap : ∀ st st' : BankService,
      st.getSnapshot = st'.getSnapshot ↔ st.bankRepo.version = st'.bankRepo.version := by
    intro st st'
    simp [BankService.getSnapshot]
  refine ⟨?_, ?_⟩
  · intro st command
    have hv : (st.access jvm (.unordered command)).2.bankRepo.version =
        st.bankRepo.version + if readFault st.bankRepo command then 0 else 1 :=
      appExecuteUnordered_version jvm command st.bankRepo
    rw [hsnap, hv]
    cases readFault st.bankRepo command <;> simp
  · intro as as' heq
    have hnew : Sim (fun t => t) BankService.new.bankRepo BankService.new.bankRepo :=
      ⟨Indexed.new, Indexed.new, rfl⟩
    have h := serve_version jvm as hnew
    have h' := serve_version jvm as' hnew
    rw [← heq] at h'
    have hofNat : ∀ n m : ℕ, Int32.ofNat n = Int32.ofNat m ↔ n % 2^32 = m % 2^32 := by
      intro n m
      rw [← Int32.toBitVec_inj, ← BitVec.toNat_inj]
      simp
    -- The ordered requests count alike on both sides, so only the reads are left to compare.
    rw [hsnap, ← hofNat]
    constructor <;> intro e <;> grind

/-- A listing of the accounts. -/
def listing : Access := .unordered (Proxy.queryCommand .listAllBankAccounts)

/-- **A read changes the snapshot:** of two new replicas, the one that has listed its accounts has
another snapshot. -/
theorem read_changes_snapshot :
    orderedOf [listing] = orderedOf [] ∧
      (BankService.new.serve plainJvm [listing]).2.getSnapshot ≠
        (BankService.new.serve plainJvm []).2.getSnapshot := by
  decide

/-- Two replicas with one read each, before and after a registration. -/
theorem snapshots_agree_registration :
    (BankService.new.serve plainJvm
        [listing, .ordered (Proxy.registerUser (some "bob") none (some 7) none)]).2.getSnapshot =
      (BankService.new.serve plainJvm
        [.ordered (Proxy.registerUser (some "bob") none (some 7) none), listing]).2.getSnapshot :=
  ((snapshots_agree_iff plainJvm).2 _ _ rfl).mpr (by decide)

/-! ## Restart -/

/-- What `REGISTER_USER` stores about a user. -/
def BankEntity.registration (b : BankEntity) : JString × JString × JLong × String :=
  (b.userName, b.password, b.amount, b.roles)

/-- Two repositories hold the same: the version, the users with their registration, and the
auctions, opened auctions, closed auctions and bids. -/
structure SameContent (s t : BankRepository) : Prop where
  version : s.version = t.version
  users : ∀ u, (s.findByUserName u).map BankEntity.registration =
    (t.findByUserName u).map BankEntity.registration
  auctions : ∀ k, (s.auctions.lookup k).map s.auction = (t.auctions.lookup k).map t.auction
  openedAuctions : ∀ k, (s.openedAuctions.lookup k).map s.auction =
    (t.openedAuctions.lookup k).map t.auction
  closedAuctions : ∀ k, (s.closedAuctions.lookup k).map s.auction =
    (t.closedAuctions.lookup k).map t.auction
  bids : ∀ i, s.bids.get i = t.bids.get i

/-- `load` fails on every file that `save` leaves, and changes nothing. -/
theorem load_savedFile (s t : BankRepository) : t.load s.savedFile = t := by
  -- `write` has emitted one byte, and an object follows where `readInt` wants three more.
  rfl

/-- **What a restart recovers:** loading what `save` wrote into a fresh repository yields what was
saved exactly when nothing was in it and the version that `save` counted to is 0. -/
theorem load_save_iff (s : BankRepository) :
    SameContent (BankRepository.new.load s.savedFile) s.save ↔
      s.version = -1 ∧ s.users = KeyedMap.empty ∧ s.auctions = KeyedMap.empty ∧
        s.openedAuctions = KeyedMap.empty ∧ s.closedAuctions = KeyedMap.empty ∧
        s.bids = KeyedMap.empty := by
  rw [load_savedFile]
  constructor
  -- The loaded repository is the empty one, so the saved one has to be empty up to its version.
  · rintro ⟨hversion, husers, hauctions, hopened, hclosed, hbids⟩
    have hlookup : ∀ (m : JavaMap JLong AuctionRef),
        (∀ k, (m.lookup k).map s.save.auction = none) → m = KeyedMap.empty := by
      intro m hm
      apply KeyedMap.eq_empty_of_get
      intro k
      have hk := hm k
      rw [Option.map_eq_none_iff] at hk
      exact Option.map_eq_none_iff.mp hk
    refine ⟨?_, ?_, hlookup _ fun k => (hauctions k).symm, hlookup _ fun k => (hopened k).symm,
      hlookup _ fun k => (hclosed k).symm, KeyedMap.eq_empty_of_get fun i => (hbids i).symm⟩
    · have : (0 : Int32) = s.version + 1 := hversion
      grind
    · apply KeyedMap.eq_empty_of_get
      intro u
      exact Option.map_eq_none_iff.mp (husers u).symm
  · rintro ⟨hversion, husers, hauctions, hopened, hclosed, hbids⟩
    constructor
    · show (0 : Int32) = s.version + 1
      rw [hversion]
      rfl
    · intro u
      simp [BankRepository.findByUserName, BankRepository.save, husers, BankRepository.new]
    all_goals
      intro k
      simp [BankRepository.save, hauctions, hopened, hclosed, hbids, BankRepository.new]

/-- **A restart loses the ledger:** the user of a reachable repository is gone after it. -/
theorem restart_loses_user :
    ¬ SameContent (BankRepository.new.load registered.bankRepo.savedFile) registered.bankRepo.save := by
  intro h
  exact absurd (h.users (some "bob")) (by decide)

end NovaBank.Replica
