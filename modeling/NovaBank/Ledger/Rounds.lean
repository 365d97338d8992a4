import NovaBank.Ledger.Accounts
import NovaBank.Proxy.Delivery
import NovaBank.Proxy.SingleReply

/-!
# Requests to replicas of which some are Byzantine

Each correct replica has a history of its own: what it executes at each moment, in whatever order and
with whatever its contracts do in between. A `Round` is a request from the moment at which a proxy sends
it to the moment at which `deliver` returns a message for the replies that have arrived. Two rounds are
decided by two quorums, and these share a correct replica, which has executed both requests.

So what was confirmed is there for whoever asks later: the account of a confirmed registration
(`registration_durable`). And no two proxies get different registrations of one name confirmed, however
they overlap (`name_confirmed_once`).
-/

namespace NovaBank.Ledger

open Java Replica Money Proxy

/-! ## The quorum of a delivery -/

section Delivery

variable {w : Wire} {n f : ℕ} {content : Fin n → Content} {message : Bytes}

/-- The count of equal replies. -/
theorem sameContent_eq_ok {x : Fin n} {is : List (Fin n)} {same : ℕ}
    (h : sameContent w content x is = .ok same) :
    same = (is.filter fun i => w.compare (content i) (content x) = .ok 0).length + 1 := by
  -- On the replies that are compared with the last one.
  induction is generalizing same with
  | nil =>
    cases h
    rfl
  | cons i is ih =>
    unfold sameContent at h
    obtain ⟨order, horder, h⟩ := bind_eq_ok h
    obtain ⟨rest, hrest, h⟩ := bind_eq_ok h
    have hcount := ih hrest
    rw [List.filter_cons]
    cases h
    by_cases hzero : order = 0
    · simp [horder, hzero, hcount]
    · simp [horder, hzero, hcount]

/-- A message that is delivered is like the contents of a quorum of the replies. -/
theorem quorum_of_deliver {received arriving : List (Fin n)} (hnd : (received ++ arriving).Nodup)
    (h : deliver w content f received arriving = .ok (some (some message))) :
    ∃ quorum : Finset (Fin n), 2 * f + 1 ≤ quorum.card ∧ ∀ i ∈ quorum, i ∈ received ++ arriving ∧
      ∃ b x, content i = some b ∧ withoutSignature b = .ok x ∧ w.Alike x message := by
  -- On the replies that arrive, up to the decisive one.
  induction arriving generalizing received with
  | nil => cases h
  | cons x arriving ih =>
    unfold deliver at h
    obtain ⟨same, hsame, h⟩ := bind_eq_ok h
    have hnd' : (received ++ [x] ++ arriving).Nodup := by simpa using hnd
    split_ifs at h with hquorum
    · obtain ⟨m, hm, h⟩ := bind_eq_ok h
      cases h
      obtain ⟨-, b, hb, hmessage⟩ := Wire.extractResponse_eq_some_iff.mp hm
      have hx : content x = some b := by simpa [repliesOf] using hb
      refine ⟨(received.filter (fun i => w.compare (content i) (content x) = .ok 0) ++ [x]).toFinset,
        ?_, ?_⟩
      · have hsub : (received.filter (fun i => w.compare (content i) (content x) = .ok 0) ++ [x]).Sublist
            (received ++ [x]) := List.filter_sublist.append_right [x]
        rw [List.toFinset_card_of_nodup ((hnd'.of_append_left).sublist hsub), List.length_append,
          List.length_singleton, ← sameContent_eq_ok hsame]
        exact hquorum
      · intro i hi
        rcases List.mem_append.mp (List.mem_toFinset.mp hi) with hi | hi
        · obtain ⟨hreceived, hcompare⟩ := List.mem_filter.mp hi
          rw [hx, decide_eq_true_eq] at hcompare
          rcases Wire.alike_of_compare hcompare with ⟨-, hnull⟩ | ⟨a, b', y, z, ha, hb', hy, hz, halike⟩
          · cases hnull
          · cases hb'
            obtain rfl : z = message := Except.ok.inj (hz.symm.trans hmessage)
            exact ⟨by simp [hreceived], a, y, ha, hy, halike⟩
        · obtain rfl := List.mem_singleton.mp hi
          exact ⟨by simp, b, message, hx, hmessage, .inl rfl⟩
    · obtain ⟨quorum, hcard, hmembers⟩ := ih hnd' h
      exact ⟨quorum, hcard, fun i hi => by simpa using hmembers i hi⟩

end Delivery

/-! ## Histories and rounds -/

/-- The history of a replica: its state at each moment, and what it executes then, if anything. -/
structure History (jvm : Jvm) where
  state : ℕ → BankService
  action : ℕ → Option Action
  start : state 0 = BankService.new
  step : ∀ t, state (t + 1) = (action t).elim (state t) fun x => x.run jvm (state t)

namespace History

variable {jvm : Jvm} (h : History jvm)

/-- From one moment to a later one, the repository of a replica is updated. -/
theorem updates {t t' : ℕ} (hle : t ≤ t') : Updates (h.state t).bankRepo (h.state t').bankRepo := by
  induction t', hle using Nat.le_induction with
  | base => exact .refl
  | succ t' _ ih =>
    rw [h.step]
    cases h.action t' with
    | none => exact ih
    | some x => exact ih.trans (x.run_updates _)

/-- At every moment the maps of a replica agree. -/
theorem indexed (t : ℕ) : Indexed (h.state t).bankRepo := by
  have hstart : Indexed (h.state 0).bankRepo := h.start ▸ Indexed.new
  exact hstart.updates (h.updates (Nat.zero_le t))

/-- A user who is there stays there as the same user. -/
theorem kept {t t' : ℕ} (hle : t ≤ t') : UsersKept (h.state t).bankRepo (h.state t').bankRepo :=
  .of_updates (h.indexed t) (h.updates hle)

/-- The replica with the number `i` executes a request at the moment `t`, which is after the request was
sent and before it was decided, and sends the reply with this content. -/
def RepliesAt (w : Wire) (i : ℕ) (access : Access) (sent decided : ℕ) (content : Content) (t : ℕ) :
    Prop :=
  sent ≤ t ∧ t < decided ∧ h.action t = some access.action ∧
    ∃ reply, ((h.state t).access jvm access).1 = .ok reply ∧ Sends w jvm i reply content

/-- The history of a new replica that executes these actions. -/
def of (jvm : Jvm) (action : ℕ → Option Action) : History jvm where
  state t := t.rec BankService.new fun t st => (action t).elim st fun x => x.run jvm st
  action := action
  start := rfl
  step _ := rfl

end History

/-- A request to `3 f + 1` replicas, of which those in `byzantine` send anything. Every correct replica
whose reply has arrived has executed the request after it was sent, and before the proxy decided. -/
structure Round {jvm : Jvm} (w : Wire) (f : ℕ) (byzantine : Finset (Fin (3 * f + 1)))
    (replica : Fin (3 * f + 1) → History jvm) where
  access : Access
  sent : ℕ
  decided : ℕ
  content : Fin (3 * f + 1) → Content
  /-- The replicas whose replies have arrived, in the order of arrival. -/
  arrival : List (Fin (3 * f + 1))
  once : arrival.Nodup
  answered : ∀ i ∈ arrival, i ∉ byzantine →
    ∃ t, (replica i).RepliesAt w i access sent decided (content i) t
  message : Bytes
  delivered : deliver w content f [] arrival = .ok (some (some message))

section Rounds

variable {jvm : Jvm} {w : Wire} {f : ℕ} {byzantine : Finset (Fin (3 * f + 1))}
  {replica : Fin (3 * f + 1) → History jvm}

/-- The replica `i` has executed the request of a round at the moment `t`, and has replied with objects
of which the first one is that of the message. -/
structure Served (r : Round w f byzantine replica) (i : Fin (3 * f + 1)) (t : ℕ) : Prop where
  after : r.sent ≤ t
  before : t < r.decided
  action : (replica i).action t = some r.access.action
  reply : ∃ os, (((replica i).state t).access jvm r.access).1 = .ok (some os) ∧
    ∀ x xs, os = x :: xs → (∀ b, x ≠ .bid b) → w.readFirst r.message = .ok (objectOf jvm x)

/-- What a correct replica does for a round: it executes the request at the moment `t` and sends its
reply. -/
def ExecutedAt (r : Round w f byzantine replica) (i : Fin (3 * f + 1)) (t : ℕ) : Prop :=
  (replica i).RepliesAt w i r.access r.sent r.decided (r.content i) t

/-- The message of a round is that of a quorum: whatever its correct members have answered served the
round. -/
theorem Round.quorum_executed (r : Round w f byzantine replica) :
    ∃ quorum : Finset (Fin (3 * f + 1)), 2 * f + 1 ≤ quorum.card ∧
      ∀ i ∈ quorum, i ∈ r.arrival ∧ ∀ t, ExecutedAt r i t → Served r i t := by
  obtain ⟨quorum, hcard, hmembers⟩ :=
    @quorum_of_deliver w _ f r.content r.message [] r.arrival (by simpa using r.once) r.delivered
  refine ⟨quorum, hcard, fun i hi => ?_⟩
  -- A member of the quorum sent something like the message.
  obtain ⟨harrival, a, y, ha, hy, halike⟩ := hmembers i hi
  refine ⟨by simpa using harrival, ?_⟩
  rintro t ⟨hsent, hdecided, haction, reply, hreply, hsends⟩
  rw [ha] at hsends
  cases reply with
  | none => cases hsends
  | some os =>
    -- A null reply is not like a message with an object in it.
    refine ⟨hsent, hdecided, haction, os, hreply, ?_⟩
    rintro x xs rfl hx
    exact readFirst_of_sends hsends hx hy halike

/-- A round is served by the correct members of a quorum. -/
theorem Round.quorum (r : Round w f byzantine replica) :
    ∃ quorum : Finset (Fin (3 * f + 1)), 2 * f + 1 ≤ quorum.card ∧
      ∀ i ∈ quorum, i ∉ byzantine → ∃ t, Served r i t := by
  obtain ⟨quorum, hcard, hmembers⟩ := r.quorum_executed
  refine ⟨quorum, hcard, fun i hi hcorrect => ?_⟩
  obtain ⟨harrival, hserved⟩ := hmembers i hi
  obtain ⟨t, ht⟩ := r.answered i harrival hcorrect
  exact ⟨t, hserved t ht⟩

/-- Two rounds are served by one correct replica. -/
theorem exists_served (few : byzantine.card ≤ f) (r r' : Round w f byzantine replica) :
    ∃ i t t', i ∉ byzantine ∧ Served r i t ∧ Served r' i t' := by
  obtain ⟨quorum, hcard, hserved⟩ := r.quorum
  obtain ⟨quorum', hcard', hserved'⟩ := r'.quorum
  obtain ⟨i, hi, hi', hcorrect⟩ :=
    Quorum.exists_correct_of_two (Fintype.card_fin _) few hcard hcard'
  obtain ⟨t, ht⟩ := hserved i hi hcorrect
  obtain ⟨t', ht'⟩ := hserved' i hi' hcorrect
  exact ⟨i, t, t', hcorrect, ht, ht'⟩

/-! ## Registrations -/

variable {username password : JString} {amount : JLong} {roles : Option (List JString)}

/-- A registration that is answered with something has made the account. -/
theorem registered_of_reply {st : BankService} {os : List ReplyObject}
    (h : (st.access jvm (.ordered (registerUser username password amount roles))).1 = .ok (some os)) :
    st.bankRepo.findByUserName username = none ∧
      ∃ b, BankEntity.new jvm username password amount roles = .ok b ∧
        ((Action.ordered (registerUser username password amount roles)).run jvm
          st).bankRepo.findByUserName username = some b := by
  simp only [BankService.access, BankService.appExecuteOrdered, decodeOrdered_registerUser,
    BankService.executeLedger, BankService.executeRegisterUser] at h
  -- The reply to a taken name is `null`.
  have hfree : st.bankRepo.findByUserName username = none := by
    cases hfind : st.bankRepo.findByUserName username with
    | none => rfl
    | some b =>
      rw [hfind] at h
      cases h
  rw [hfree] at h
  simp only [BankServiceHelper.registerUser] at h
  cases hnew : BankEntity.new jvm username password amount roles with
  | error e =>
    rw [hnew] at h
    simp only [BankService.finish, Except.map] at h
    split_ifs at h
    cases h
  | ok b =>
    refine ⟨hfree, b, rfl, ?_⟩
    have hasks : (Action.ordered (registerUser username password amount roles)).asks jvm st =
        some (.register b) := by
      simp only [Action.asks, decodeOrdered_registerUser, LedgerRequest.asks, hfree, hnew]
      rfl
    obtain ⟨v, hrun⟩ :=
      (Action.ordered (registerUser username password amount roles)).run_eq jvm st
    rw [hrun, hasks]
    show (st.bankRepo.newUserBankEntity b).findByUserName username = some b
    rw [BankRepository.newUserBankEntity_findByUserName, if_pos (BankEntity.userName_of_new hnew)]

/-- A replica that has served a registration has the account from then on. -/
theorem Served.account {r : Round w f byzantine replica} {i : Fin (3 * f + 1)} {t t' : ℕ}
    (h : Served r i t) (hr : r.access = .ordered (registerUser username password amount roles))
    (hlt : t < t') :
    ∃ b c, BankEntity.new jvm username password amount roles = .ok b ∧ SameUser b c ∧
      ((replica i).state t').bankRepo.findByUserName username = some c := by
  obtain ⟨os, hos, -⟩ := h.reply
  rw [hr] at hos
  obtain ⟨-, b, hnew, hafter⟩ := registered_of_reply hos
  -- The account is there right after the action, and then it is kept.
  have hstate : (replica i).state (t + 1) =
      (Action.ordered (registerUser username password amount roles)).run jvm ((replica i).state t) := by
    rw [(replica i).step, h.action, hr]
    rfl
  rw [← hstate] at hafter
  obtain ⟨c, hc, hsame⟩ := (replica i).kept hlt username b hafter
  exact ⟨b, c, hnew, hsame, hc⟩

/-- A replica that serves a registration has no such user yet. -/
theorem Served.free {r : Round w f byzantine replica} {i : Fin (3 * f + 1)} {t : ℕ}
    (h : Served r i t) (hr : r.access = .ordered (registerUser username password amount roles)) :
    ((replica i).state t).bankRepo.findByUserName username = none := by
  obtain ⟨os, hos, -⟩ := h.reply
  rw [hr] at hos
  exact (registered_of_reply hos).1

end Rounds

/-- **A confirmed registration is durable:** of `3 f + 1` replicas at most `f` are Byzantine, and the
others execute whatever they execute in whatever order. A registration is confirmed to one proxy, and
then another one asks for the user. The account that it is told of is the one that was registered: it has
the name, the password and the roles of the registration. -/
theorem registration_durable {jvm : Jvm} (w : Wire) (f : ℕ) (byzantine : Finset (Fin (3 * f + 1)))
    (few : byzantine.card ≤ f) (replica : Fin (3 * f + 1) → History jvm)
    (r r' : Round w f byzantine replica) (later : r.decided ≤ r'.sent)
    (username password : JString) (amount : JLong) (roles : Option (List JString))
    (registers : r.access = .ordered (registerUser username password amount roles))
    (asks : r'.access = .unordered (queryCommand (.findUser username))) :
    ∃ b c, BankEntity.new jvm username password amount roles = .ok b ∧ SameUser b c ∧
      w.readFirst r'.message = .ok (.str (jvm.text (.object c.getJSON))) := by
  -- One correct replica has served both rounds.
  obtain ⟨i, t, t', -, hserved, hserved'⟩ := exists_served few r r'
  have hlt : t < t' := by
    have hbefore := hserved.before
    have hafter := hserved'.after
    omega
  obtain ⟨b, c, hnew, hsame, hc⟩ := hserved.account registers hlt
  refine ⟨b, c, hnew, hsame, ?_⟩
  obtain ⟨os, hos, hfirst⟩ := hserved'.reply
  rw [asks, BankService.access_of_answer jvm _ (decodeUnordered_queryCommand _)
    (BankService.answer_findUser jvm _ username), hc] at hos
  cases hos
  exact hfirst _ [] rfl (by simp)

/-- What four replicas execute: `bob` is registered, and then asked for, and `carol` is registered. -/
def bobActions : ℕ → Option Action
  | 0 => some (.ordered (registerUser (some "bob") (some "secret") (some 7) none))
  | 1 => some (.unordered (queryCommand (.findUser (some "bob"))))
  | 2 => some (.ordered (registerUser (some "carol") (some "hidden") (some 8) none))
  | _ => none

/-- A machine that prints one text. -/
def bobJvm : Jvm := { Jvm.plain (ContractClass.queueing []) with text := fun _ => "bob's account" }

/-- Four replicas with this history. -/
def bobReplica : Fin (3 * 1 + 1) → History bobJvm := fun _ => History.of bobJvm bobActions

/-- The replies to the registration of a name: the replica 3 sends another name. -/
def nameContent (name : String) : Fin (3 * 1 + 1) → Content :=
  contentWith (streamHeader ++ stringBytes name) (some (signed 3 (streamHeader ++ stringBytes "eve")))

/-- The correct replicas send the name, when its bytes can be read back. -/
theorem sends_name {name : String} (hread : allObjects 1 (stringBytes name) = some [.str name])
    {i : Fin (3 * 1 + 1)} (hi : i ∉ ({3} : Finset (Fin (3 * 1 + 1)))) :
    Sends javaWire bobJvm i (some [.name (some name)]) (nameContent name i) := by
  unfold nameContent
  rw [contentWith_of_correct _ _ hi]
  exact sends_javaWire i 1 hread

/-- The name of `bob` can be sent. -/
theorem sends_bob {i : Fin (3 * 1 + 1)} (hi : i ∉ ({3} : Finset (Fin (3 * 1 + 1)))) :
    Sends javaWire bobJvm i (some [.name (some "bob")]) (nameContent "bob" i) :=
  sends_name (by decide) hi

/-- So can that of `carol`. -/
theorem sends_carol {i : Fin (3 * 1 + 1)} (hi : i ∉ ({3} : Finset (Fin (3 * 1 + 1)))) :
    Sends javaWire bobJvm i (some [.name (some "carol")]) (nameContent "carol" i) :=
  sends_name (by decide) hi

/-- The reply of the replica 3 arrives first. -/
def bobRegistration : Round javaWire 1 {3} bobReplica where
  access := .ordered (registerUser (some "bob") (some "secret") (some 7) none)
  sent := 0
  decided := 1
  content := nameContent "bob"
  arrival := [3, 0, 1, 2]
  once := by decide
  answered _ _ hi := ⟨0, Nat.le_refl 0, Nat.zero_lt_one, rfl, some [.name (some "bob")], rfl,
    sends_bob hi⟩
  message := streamHeader ++ stringBytes "bob"
  delivered := by decide +kernel

/-- Another proxy has sent the same request, and decides later, without the replica 3. -/
def bobRepeated : Round javaWire 1 {3} bobReplica where
  access := .ordered (registerUser (some "bob") (some "secret") (some 7) none)
  sent := 0
  decided := 3
  content := nameContent "bob"
  arrival := [2, 1, 0]
  once := by decide
  answered _ _ hi := ⟨0, Nat.le_refl 0, by decide, rfl, some [.name (some "bob")], rfl, sends_bob hi⟩
  message := streamHeader ++ stringBytes "bob"
  delivered := by decide +kernel

/-- The replica 3 sends another account. -/
def bobQuery : Round javaWire 1 {3} bobReplica where
  access := .unordered (queryCommand (.findUser (some "bob")))
  sent := 1
  decided := 2
  content := contentWith (streamHeader ++ stringBytes "bob's account")
    (some (signed 3 (streamHeader ++ stringBytes "eve's account")))
  arrival := [0, 3, 1, 2]
  once := by decide
  answered i _ hi := by
    refine ⟨1, Nat.le_refl 1, Nat.one_lt_two, rfl, some [.json (.object _)], rfl, ?_⟩
    rw [contentWith_of_correct _ _ hi]
    exact sends_javaWire i 1 (by decide)
  message := streamHeader ++ stringBytes "bob's account"
  delivered := by decide +kernel

/-- `carol` is registered after the question for `bob` has been decided. -/
def carolRegistration : Round javaWire 1 {3} bobReplica where
  access := .ordered (registerUser (some "carol") (some "hidden") (some 8) none)
  sent := 2
  decided := 3
  content := nameContent "carol"
  arrival := [2, 3, 1, 0]
  once := by decide
  answered _ _ hi := ⟨2, Nat.le_refl 2, by decide, rfl, some [.name (some "carol")], rfl, sends_carol hi⟩
  message := streamHeader ++ stringBytes "carol"
  delivered := by decide +kernel

/-- The two registrations. -/
def registrations : Bool → Round javaWire 1 {3} bobReplica
  | false => bobRegistration
  | true => carolRegistration

/-- Who asks for `bob` later is told of the account. -/
theorem registration_durable_bob :
    ∃ b c, BankEntity.new bobJvm (some "bob") (some "secret") (some 7) none = .ok b ∧ SameUser b c ∧
      javaWire.readFirst bobQuery.message = .ok (.str (bobJvm.text (.object c.getJSON))) :=
  registration_durable javaWire 1 {3} (by decide) bobReplica bobRegistration bobQuery (Nat.le_refl 1)
    (some "bob") (some "secret") (some 7) none rfl rfl

/-- **A name is confirmed once:** two proxies do not both get a registration of the same name confirmed,
however the two requests overlap, unless they have sent the same request. -/
theorem name_confirmed_once {jvm : Jvm} (w : Wire) (f : ℕ) (byzantine : Finset (Fin (3 * f + 1)))
    (few : byzantine.card ≤ f) (replica : Fin (3 * f + 1) → History jvm)
    (r r' : Round w f byzantine replica) (username password password' : JString)
    (amount amount' : JLong) (roles roles' : Option (List JString))
    (registers : r.access = .ordered (registerUser username password amount roles))
    (registers' : r'.access = .ordered (registerUser username password' amount' roles')) :
    password = password' ∧ amount = amount' ∧ roles = roles' := by
  obtain ⟨i, t, t', -, hserved, hserved'⟩ := exists_served few r r'
  -- The later of the two would have found the user.
  have heq : t = t' := by
    rcases Nat.lt_trichotomy t t' with hlt | heq | hlt
    · obtain ⟨-, c, -, -, hc⟩ := hserved.account registers hlt
      rw [hserved'.free registers'] at hc
      cases hc
    · exact heq
    · obtain ⟨-, c, -, -, hc⟩ := hserved'.account registers' hlt
      rw [hserved.free registers] at hc
      cases hc
  have haction : r.access.action = r'.access.action := by
    have h := hserved.action
    rw [heq, hserved'.action] at h
    exact (Option.some.inj h).symm
  rw [registers, registers'] at haction
  have hdecoded := decodeOrdered_registerUser username password amount roles
  rw [Action.ordered.inj haction, decodeOrdered_registerUser] at hdecoded
  simp only [Except.ok.injEq, Request.ledger.injEq, LedgerRequest.registerUser.injEq, Prod.mk.injEq,
    true_and] at hdecoded
  exact ⟨hdecoded.1.symm, hdecoded.2.1.symm, hdecoded.2.2.symm⟩

/-- The registration of `bob` is confirmed to two proxies that have sent the same request, and to none that
has sent another password. -/
theorem name_confirmed_once_bob :
    bobRegistration.arrival ≠ bobRepeated.arrival ∧
      (some "secret" = (some "secret" : JString) ∧ some 7 = (some 7 : JLong) ∧
        none = (none : Option (List JString))) ∧
      ∀ (r : Round javaWire 1 {3} bobReplica) (password : JString),
        r.access = .ordered (registerUser (some "bob") password (some 7) none) →
          password = some "secret" := by
  refine ⟨by decide, name_confirmed_once javaWire 1 {3} (by decide) bobReplica bobRegistration bobRepeated
    (some "bob") (some "secret") (some "secret") (some 7) (some 7) none none rfl rfl, ?_⟩
  intro r password hr
  exact (name_confirmed_once javaWire 1 {3} (by decide) bobReplica bobRegistration r (some "bob")
    (some "secret") password (some 7) (some 7) none none rfl hr).1.symm

end NovaBank.Ledger
