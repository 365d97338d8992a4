import Mathlib.Logic.Equiv.List
import NovaBank.Ledger.Roles
import NovaBank.Proxy.Security
import NovaBank.Spec.Refinement

/-!
# Logins and what is done with their tokens

The system of `Proxy/Security.lean` over whole runs. Every account of a run was registered under a free
name and keeps the password of the registration (`registered_of_find`), so a login is let in by that
password and by no other. `session_iff` says which calls a login makes possible. In the other direction,
`acts_for_login`: whatever headers are sent in whatever order, a handler acts for a user by a token of
the proxy only after a login of that user.
-/

namespace NovaBank.Spec

open Java Replica

/-- Who has no account gets none by a new balance. -/
theorem Bank.assign_eq_none (B : Bank) (who u : JString) (v : Int64) :
    (B.assign who v).holders u = none ↔ B.holders u = none := by
  simp only [Bank.assign, Function.update_apply]
  split_ifs with h
  · rw [h, Option.map_eq_none_iff]
  · rfl

/-- Who has no account gets none by an operation. -/
theorem Bank.run_eq_none (jvm : Jvm) (now : Int64) (op : LedgerOperation) {B : Bank} {u : JString}
    (h : B.holders u = none) : (B.run jvm now op).2.holders u = none := by
  -- Amounts are only assigned to accounts that are there.
  have hassign : ∀ (C : Bank) who v, C.holders u = none → (C.assign who v).holders u = none :=
    fun C who v => (C.assign_eq_none who u v).mpr
  have hpay : ∀ (C : Bank) id sale, C.holders u = none → (C.payOwner id sale).2.holders u = none := by
    intro C id sale hC
    unfold Bank.payOwner
    split
    · exact hC
    · exact hassign C _ _ hC
  cases op with
  | createMoney who amount =>
    simp only [Bank.run, Bank.createMoney]
    split
    · exact hassign B _ _ h
    · exact h
  | transferMoney sender fromAmount receiver toAmount =>
    simp only [Bank.run, Bank.transferMoney]
    split
    · exact h
    · exact hassign B _ _ h
    · exact hassign _ _ _ (hassign B _ _ h)
  | createAuction id who =>
    simp only [Bank.run, Bank.createAuction]
    split <;> exact h
  | createBid bidId auctionId amount who =>
    simp only [Bank.run, Bank.createBid]
    repeat' split
    all_goals first | exact h | exact hassign B _ _ h
  | closeAution id who =>
    simp only [Bank.run, Bank.closeAution]
    repeat' split
    all_goals first | exact h | exact hpay _ _ _ h

end NovaBank.Spec

namespace NovaBank.Ledger

open Java Replica Money Proxy

/-! ## Who is registered -/

section Registered

variable {jvm : Jvm}

/-- An operation makes no account. -/
theorem find_call_eq_none {s : BankRepository} (h : Indexed s) (now : Int64) (op : LedgerOperation)
    {u : JString} (free : s.findByUserName u = none) :
    (op.run jvm now s).2.findByUserName u = none := by
  -- The bank has no account for the user after the operation.
  have hnone : (Spec.bank s).holders u = none := by
    rw [Spec.bank_holders, free]
    rfl
  have hafter := Spec.Bank.run_eq_none jvm now op hnone
  rwa [← (@Spec.run_refines jvm _ h now op).state, Spec.bank_holders, Option.map_eq_none_iff] at hafter

/-- A user whom a registration makes has the name and the password of it. -/
theorem find_newUser {s : BankRepository} {u username password : JString} {amount : JLong}
    {roles : Option (List JString)} {b c : BankEntity} (free : s.findByUserName u = none)
    (account : BankEntity.new jvm username password amount roles = .ok b)
    (user : (s.newUserBankEntity b).findByUserName u = some c) :
    username = u ∧ b = c ∧ c.password = password := by
  rw [BankRepository.newUserBankEntity_findByUserName, BankEntity.userName_of_new account, free] at user
  split_ifs at user with e
  cases user
  exact ⟨e, rfl, congrArg Spec.Holder.password (Spec.holder_of_new account)⟩

/-- A user whom an action makes is registered by it. -/
theorem registered_of_action {st : BankService} (h : Indexed st.bankRepo) {x : Action} {u : JString}
    {c : BankEntity} (free : st.bankRepo.findByUserName u = none)
    (user : (x.run jvm st).bankRepo.findByUserName u = some c) :
    ∃ command amount roles, x = .ordered command ∧
      decodeOrdered command = .ok (.ledger (.registerUser u (.ok (c.password, amount, roles)))) ∧
      BankEntity.new jvm u c.password amount roles = .ok c := by
  obtain ⟨v, hrun⟩ := x.run_eq jvm st
  rw [hrun] at user
  cases hasks : x.asks jvm st with
  | none =>
    rw [hasks] at user
    exact absurd (free.symm.trans user) (by simp)
  | some a =>
    rw [hasks] at user
    cases a with
    | call op =>
      exact absurd ((find_call_eq_none h x.time op free).symm.trans user) (by simp)
    | register b =>
      cases x with
      | unordered command => cases hasks
      | operation now i op =>
        obtain ⟨www, call, hcall, -⟩ := Action.asks_operation hasks
        cases hcall
      | ordered command =>
        simp only [Action.asks] at hasks
        split at hasks
        · rename_i r hr
          cases LedgerRequest.requested_of_asks hasks with
          | registerUser username password amount roles _ _ account =>
            obtain ⟨rfl, rfl, hpassword⟩ := find_newUser free account user
            rw [hpassword]
            exact ⟨command, amount, roles, rfl, hr, account⟩
        · cases hasks

/-- Every user of a run was registered in it under a free name, with the password that the account
has. -/
theorem registered_of_find {xs : List Action} {u : JString} {c : BankEntity}
    (user : (reached jvm xs).findByUserName u = some c) :
    ∃ ys command zs amount roles b, xs = ys ++ .ordered command :: zs ∧
      (reached jvm ys).findByUserName u = none ∧
      decodeOrdered command = .ok (.ledger (.registerUser u (.ok (c.password, amount, roles)))) ∧
      BankEntity.new jvm u c.password amount roles = .ok b ∧ SameUser b c := by
  obtain ⟨ys, x, zs, rfl, hbefore, hafter⟩ :=
    @Run.exists_step _ (fun ys => (reached jvm ys).findByUserName u ≠ none) (fun h => h rfl) xs
      (by simp [user])
  have hfree := not_not.mp hbefore
  obtain ⟨b, hb⟩ := Option.ne_none_iff_exists'.mp hafter
  obtain ⟨command, amount, roles, rfl, hcommand, hnew⟩ :=
    registered_of_action (reached_indexed ys) hfree (by rwa [← reached_concat])
  -- From there on the user is the same user.
  have hupdates := @reached_append jvm (ys ++ [.ordered command]) zs
  rw [List.append_assoc, List.singleton_append] at hupdates
  obtain ⟨c', hc', hsame⟩ := UsersKept.of_updates (reached_indexed _) hupdates u b hb
  obtain rfl : c = c' := Option.some.inj (user.symm.trans hc')
  exact ⟨ys, command, zs, amount, roles, b, rfl, hfree, by rw [hsame.password, hcommand],
    by rw [hsame.password, hnew], hsame⟩

/-- The constructor of an account takes no role that is `null`. -/
theorem roles_of_appendRoles {acc r : String} {rs : List JString}
    (h : BankEntity.appendRoles jvm acc rs = .ok r) : ∃ ts : List String, rs = ts.map some := by
  -- On the roles: a `null` among them would have thrown.
  induction rs generalizing acc with
  | nil => exact ⟨[], rfl⟩
  | cons t rs ih =>
    cases t with
    | none => cases h
    | some t =>
      rw [BankEntity.appendRoles] at h
      obtain ⟨ts, rfl⟩ : ∃ ts : List String, rs = ts.map some := by
        split_ifs at h
        · exact ih h
        · exact ih h
      exact ⟨t :: ts, rfl⟩

/-- The first role of every user of a run is `ROLE_USER`. -/
theorem getRoles_of_find {xs : List Action} {u : JString} {c : BankEntity}
    (user : (reached jvm xs).findByUserName u = some c) : ∃ rest, c.getRoles = "ROLE_USER" :: rest := by
  -- The account was registered, and its roles are those of the registration.
  obtain ⟨-, -, -, amount, roles, b, -, -, -, hnew, hsame⟩ := registered_of_find user
  have hroles : ∃ ts : Option (List String), roles = ts.map (List.map some) := by
    cases roles with
    | none => exact ⟨none, rfl⟩
    | some rs =>
      rw [BankEntity.new] at hnew
      obtain ⟨r, hr, -⟩ := map_eq_ok hnew
      obtain ⟨ts, rfl⟩ := roles_of_appendRoles hr
      exact ⟨some ts, rfl⟩
  obtain ⟨ts, rfl⟩ := hroles
  obtain ⟨rest, hrest⟩ := getRoles_of_new hnew
  refine ⟨rest, ?_⟩
  rw [← hrest, BankEntity.getRoles, hsame.roles]
  rfl

end Registered

/-! ## Logins -/

section Logins

variable {sec : WebSecurity} {jvm : Jvm} {c : BankEntity} {u : String}

/-- The object of an account is read back as it is. -/
theorem reads_getJSON (jvm : Jvm) (c : BankEntity) :
    ReadsValue jvm (accountLibrary c.getJSON) objectValue (.object c.getJSON) :=
  ⟨rfl, fun _ => ⟨rfl, rfl⟩⟩

/-- `loadUserByUsername` makes of the bytes of a reply what it makes of the objects. -/
theorem loadUserByUsername_of_value {J : Type} {w : Wire} {p : JsonLibrary J} {value : Json → J}
    {s : BankRepository} {username : JString} {reply : Reply} {message : Content}
    (h : BankService.answer jvm s (.findUser username) = .ok reply)
    (printed : ReadsValues jvm p value reply) (hmessage : Delivered w jvm reply message)
    (authority : SimpleGrantedAuthority) :
    w.loadUserByUsername p jvm authority username message =
      ClientRequestHandler.loadUserByUsername jvm authority username reply := by
  -- Both readers look at the same fields of the same object.
  cases hu : s.findByUserName username with
  | none =>
    rw [BankService.answer_findUser, hu] at h
    cases h
    cases hmessage
    rfl
  | some b =>
    rw [Wire.loadUserByUsername, invokeFindUser_of_user hu h printed hmessage]
    rw [BankService.answer_findUser, hu] at h
    cases h
    simp only [ClientRequestHandler.loadUserByUsername, ClientRequestHandler.invokeFindUser,
      Option.map_some, ClientRequestHandler.readJson, bind, Except.bind,
      ← toUser_of_value (reads_getJSON jvm b), toUser_getJSON (reads_getJSON jvm b)]
    cases b.userName with
    | none => rfl
    | some userName =>
      cases b.password with
      | none => rfl
      | some password => cases b.amount <;> rfl

/-- The details of a user are built exactly from an account that has all its fields and no blank role. -/
theorem loadUserByUsername_eq_ok_iff (authority : SimpleGrantedAuthority) {rest : List String}
    (hroles : c.getRoles = "ROLE_USER" :: rest) (username : JString) (d : MyUserDetails) :
    ClientRequestHandler.loadUserByUsername jvm authority username (some [.json (.object c.getJSON)]) =
        .ok d ↔
      c.userName ≠ none ∧ c.amount ≠ none ∧
        (∀ r ∈ otherRoles jvm c, r.toList.all authority.isWhitespace = false) ∧ c.password ≠ none ∧
         d = ⟨username, c.password, "ROLE_USER" :: otherRoles jvm c⟩ := by
  have hreads := reads_getJSON jvm c
  simp only [ClientRequestHandler.loadUserByUsername, ClientRequestHandler.invokeFindUser,
    ClientRequestHandler.readJson, bind, Except.bind, ← toUser_of_value hreads, toUser_getJSON hreads]
  -- A missing field throws, and so does a blank role.
  cases c.userName with
  | none => simp
  | some userName =>
    cases hpassword : c.password with
    | none => simp
    | some password =>
      cases c.amount with
      | none => simp
      | some amount =>
        simp only [pure, Except.pure, MyUserDetails.new, bind, Except.bind, FoundUser.getRoles,
          split_roles hroles, authority.mapM_grant, List.forall_mem_cons, authority.visible_roleUser,
          true_and]
        split_ifs with hblank
        · constructor
          · intro h
            cases h
            exact ⟨by simp, by simp, hblank, by simp, rfl⟩
          · rintro ⟨-, -, -, -, rfl⟩
            rfl
        · exact iff_of_false (by simp) fun h => hblank h.2.2.1

/-- The account `c` of the user `u` lets a login in. -/
structure LogsIn (sec : WebSecurity) (jvm : Jvm) (s : BankRepository) (body : LoginBody) (u : String)
    (c : BankEntity) : Prop where
  name : body.username = some (.text u)
  user : s.findByUserName (some u) = some c
  password : ∃ presented encoded, body.password = some presented ∧ c.password = some encoded ∧
    sec.passwordMatches presented.toString encoded = true
  amount : c.amount ≠ none
  roles : ∀ r ∈ otherRoles jvm c, r.toList.all sec.authority.isWhitespace = false

/-- What the proxy gets for `FIND_USER`. -/
theorem received_findUser (st : BankService) (username : JString) :
    received (st.access jvm (.unordered (queryCommand (.findUser username)))).1 =
      (st.bankRepo.findByUserName username).map fun b => [.json (.object b.getJSON)] := by
  rw [BankService.access_of_answer jvm st (decodeUnordered_queryCommand _)
    (BankService.answer_findUser jvm st.bankRepo username)]
  rfl

/-- Whose details the service has. -/
theorem loadUser_eq_ok_iff (xs : List Action) (d : MyUserDetails) :
    (JwtAuthenticationFilter.loadUser sec jvm u (BankService.new.runAll jvm xs)).1 = .ok d ↔
      ∃ c, (reached jvm xs).findByUserName (some u) = some c ∧ c.amount ≠ none ∧
        (∀ r ∈ otherRoles jvm c, r.toList.all sec.authority.isWhitespace = false) ∧
        c.password ≠ none ∧ d = ⟨some u, c.password, "ROLE_USER" :: otherRoles jvm c⟩ := by
  simp only [JwtAuthenticationFilter.loadUser, received_findUser]
  change ClientRequestHandler.loadUserByUsername jvm sec.authority (some u)
    (((reached jvm xs).findByUserName (some u)).map _) = _ ↔ _
  -- Without the account, the details have no user, and making them throws.
  cases hfind : (reached jvm xs).findByUserName (some u) with
  | none =>
    simp [ClientRequestHandler.loadUserByUsername, ClientRequestHandler.invokeFindUser,
      MyUserDetails.new, bind, Except.bind]
  | some c =>
    obtain ⟨rest, hroles⟩ := getRoles_of_find hfind
    have hname : c.userName ≠ none := by simp [BankRepository.userName_of_find hfind]
    rw [Option.map_some, loadUserByUsername_eq_ok_iff sec.authority hroles]
    simp [hname]

/-- Who is let in by the account of the name. -/
theorem authenticate_eq_ok_iff (xs : List Action) (presented : String) (d : MyUserDetails) :
    (sec.authenticate (JwtAuthenticationFilter.loadUser sec jvm) (some u) (some presented)
        (BankService.new.runAll jvm xs)).1 = .ok d ↔
      ∃ c encoded, (reached jvm xs).findByUserName (some u) = some c ∧ c.amount ≠ none ∧
        (∀ r ∈ otherRoles jvm c, r.toList.all sec.authority.isWhitespace = false) ∧
        c.password = some encoded ∧ sec.passwordMatches presented encoded = true ∧
        d = ⟨some u, some encoded, "ROLE_USER" :: otherRoles jvm c⟩ := by
  rw [sec.authenticate_iff, loadUser_eq_ok_iff]
  -- The loaded password is the one of the account.
  constructor
  · rintro ⟨⟨c, huser, hamount, hroles, -, rfl⟩, encoded, hencoded, hmatches⟩
    have hpassword : c.password = some encoded := hencoded
    exact ⟨c, encoded, huser, hamount, hroles, hpassword, hmatches, by rw [hpassword]⟩
  · rintro ⟨c, encoded, huser, hamount, hroles, hpassword, hmatches, rfl⟩
    exact ⟨⟨c, huser, hamount, hroles, by simp [hpassword], by rw [hpassword]⟩, encoded, rfl, hmatches⟩

/-- A login is answered with a token exactly when an account lets it in. -/
theorem attemptAuthentication_eq_ok_iff (xs : List Action) (body : LoginBody) (d : MyUserDetails) :
    (JwtAuthenticationFilter.attemptAuthentication sec jvm body (BankService.new.runAll jvm xs)).1 =
        .ok d ↔
      ∃ u c, LogsIn sec jvm (reached jvm xs) body u c ∧
        d = ⟨some u, c.password, "ROLE_USER" :: otherRoles jvm c⟩ := by
  obtain ⟨username, password⟩ := body
  have hnone : ∀ u c, ¬ LogsIn sec jvm (reached jvm xs) ⟨none, password⟩ u c :=
    fun u c h => Option.some_ne_none _ h.name.symm
  have hnone' : ∀ u c, ¬ LogsIn sec jvm (reached jvm xs) ⟨username, none⟩ u c := by
    rintro u c h
    obtain ⟨_, _, hpassword, -⟩ := h.password
    cases hpassword
  -- A missing field leaves principal and credentials `null`, and a name that is no text throws.
  cases username with
  | none => exact iff_of_false (sec.authenticate_none _ _ _ _) fun ⟨u, c, h, _⟩ => hnone u c h
  | some username =>
    cases password with
    | none => exact iff_of_false (sec.authenticate_none _ _ _ _) fun ⟨u, c, h, _⟩ => hnone' u c h
    | some password =>
      cases username with
      | other printed =>
        refine iff_of_false (by simp [JwtAuthenticationFilter.attemptAuthentication,
          LoginField.getString]) ?_
        rintro ⟨u, c, h, -⟩
        cases h.name
      | text u =>
        simp only [JwtAuthenticationFilter.attemptAuthentication, LoginField.getString]
        rw [authenticate_eq_ok_iff]
        constructor
        · rintro ⟨c, encoded, huser, hamount, hroles, hpassword, hmatches, rfl⟩
          exact ⟨u, c, ⟨rfl, huser, ⟨password, encoded, rfl, hpassword, hmatches⟩, hamount, hroles⟩,
            by rw [hpassword]⟩
        · rintro ⟨_, c, ⟨hname, huser, ⟨_, encoded, hp, hpassword, hmatches⟩, hamount, hroles⟩, rfl⟩
          cases hname
          cases hp
          exact ⟨c, encoded, huser, hamount, hroles, hpassword, hmatches, by rw [hpassword]⟩

/-- The token of a login that an account lets in. -/
def tokenFor (sec : WebSecurity) (jvm : Jvm) (time : Int64) (u : String) (c : BankEntity) : String :=
  sec.jwts.compact (some u) (time + 864000000) ("ROLE_USER" :: otherRoles jvm c)

/-- A login is answered with a header exactly when an account lets it in. -/
theorem login_eq_some_iff (xs : List Action) (time : Int64) (body : LoginBody) (header : String) :
    (JwtAuthenticationFilter.login sec jvm time body (BankService.new.runAll jvm xs)).1 = some header ↔
      ∃ u c, LogsIn sec jvm (reached jvm xs) body u c ∧
        header = SecurityConstants.tokenStart ++ tokenFor sec jvm time u c := by
  have hattempt := @attemptAuthentication_eq_ok_iff sec jvm xs body
  simp only [JwtAuthenticationFilter.login]
  -- The header is written only after the authentication.
  cases hd : (JwtAuthenticationFilter.attemptAuthentication sec jvm body
      (BankService.new.runAll jvm xs)).1 with
  | error e =>
    refine iff_of_false (by simp [Except.toOption]) ?_
    rintro ⟨u, c, h, -⟩
    have := (hattempt _).mpr ⟨u, c, h, rfl⟩
    rw [hd] at this
    cases this
  | ok d =>
    constructor
    · intro h
      obtain ⟨u, c, hlogs, rfl⟩ := (hattempt d).mp hd
      exact ⟨u, c, hlogs, (Option.some.inj h).symm⟩
    · rintro ⟨u, c, hlogs, rfl⟩
      have := (hattempt _).mpr ⟨u, c, hlogs, rfl⟩
      rw [hd] at this
      cases this
      rfl

/-- A handler acts for the user of such a token while it has not expired. -/
theorem handle_tokenFor {s : BankRepository} {body : LoginBody} (h : LogsIn sec jvm s body u c)
    {header : String} {time : Int64}
    (htoken : removeAll SecurityConstants.tokenStart header = tokenFor sec jvm time u c)
    (now later : Int64) (call : TokenCall) (v : JString) :
    sec.handle now later (some header) call = .actsFor v ↔
      v = some u ∧ u ≠ "" ∧ startsWith SecurityConstants.tokenStart header = true ∧
        now ≤ inSeconds (time + 864000000) ∧ later ≤ inSeconds (time + 864000000) ∧
        (call = .test → "ROLE_AUCTION_MAKER" ∈ c.getRoles) := by
  have hmaker : isUserRole jvm "ROLE_AUCTION_MAKER" = false := by
    -- The two texts have different lengths.
    rw [isUserRole, Java.equalsIgnoreCase, beq_eq_false_iff_ne]
    intro heq
    have hlength := congrArg List.length heq
    rw [List.length_map, List.length_map] at hlength
    exact absurd hlength (by decide)
  have hmem : "ROLE_AUCTION_MAKER" ∈ "ROLE_USER" :: otherRoles jvm c ↔
      "ROLE_AUCTION_MAKER" ∈ c.getRoles := by
    rw [List.mem_cons, mem_otherRoles (by decide)]
    simp [hmaker]
  rw [handle_of_token htoken (List.forall_mem_cons.mpr ⟨sec.authority.visible_roleUser, h.roles⟩),
    hmem]

end Logins

/-- **Sessions:** at any point of any run somebody logs in, and calls a handler with the header of the
response. The handler acts for a user exactly when the login was for that user, with a password that
matches the one of the account, the account has all its fields and no blank role, the name is not empty,
the token has expired neither when the filter nor when the handler reads it, and for `GET /test` the
account has the role `ROLE_AUCTION_MAKER`. -/
theorem session_iff (sec : WebSecurity) (jvm : Jvm) (xs : List Action) (time now later : Int64)
    (body : LoginBody) (call : TokenCall) (v : JString) :
    (∃ header, (JwtAuthenticationFilter.login sec jvm time body (BankService.new.runAll jvm xs)).1 =
        some header ∧ sec.handle now later (some header) call = .actsFor v) ↔
      ∃ u c, LogsIn sec jvm (reached jvm xs) body u c ∧ v = some u ∧ u ≠ "" ∧
        now ≤ inSeconds (time + 864000000) ∧ later ≤ inSeconds (time + 864000000) ∧
        (call = .test → "ROLE_AUCTION_MAKER" ∈ c.getRoles) := by
  -- The token of a login names the user, and expires ten days after it.
  constructor
  · rintro ⟨header, hlogin, hhandle⟩
    obtain ⟨u, c, hlogs, rfl⟩ := (login_eq_some_iff xs time body header).mp hlogin
    obtain ⟨hv, hu, -, hrest⟩ :=
      (handle_tokenFor hlogs (removeAll_token _ _ _) now later call v).mp hhandle
    exact ⟨u, c, hlogs, hv, hu, hrest⟩
  · rintro ⟨u, c, hlogs, hv, hu, hrest⟩
    refine ⟨_, (login_eq_some_iff xs time body _).mpr ⟨u, c, hlogs, rfl⟩, ?_⟩
    exact (handle_tokenFor hlogs (removeAll_token _ _ _) now later call v).mpr
      ⟨hv, hu, startsWith_append _ _, hrest⟩

/-! ## Runs with logins and calls -/

/-- What happens at a proxy and at the replicas. -/
inductive Event where
  /-- A step of the replicas, for whatever other request or for a contract. -/
  | action (x : Action)
  | login (time : Int64) (body : LoginBody)
  /-- A call with a header, at the time of the filter and at that of the handler. -/
  | call (now later : Int64) (header : JString) (call : TokenCall)

/-- The replicas, and the tokens that logins were answered with. -/
structure Gateway where
  service : BankService
  tokens : List String

namespace Event

/-- What an event does. -/
def run (sec : WebSecurity) (jvm : Jvm) (g : Gateway) : Event → Gateway
  | action x => { g with service := x.run jvm g.service }
  | login time body =>
    let (header, service) := JwtAuthenticationFilter.login sec jvm time body g.service
    ⟨service, g.tokens ++ (header.map (removeAll SecurityConstants.tokenStart)).toList⟩
  | call now later header c =>
    match sec.handle now later header c with
    -- No handler that takes the header encodes a password.
    | .actsFor u => { g with service := (g.service.access jvm ((c.request u).access id)).2 }
    | .denied | .failed => g

end Event

/-- The gateway after some events. -/
def Gateway.after (sec : WebSecurity) (jvm : Jvm) (es : List Event) : Gateway :=
  es.foldl (fun g e => e.run sec jvm g) ⟨BankService.new, []⟩

section Events

variable {sec : WebSecurity} {jvm : Jvm}

/-- The gateway after one more event. -/
theorem after_concat (es : List Event) (e : Event) :
    Gateway.after sec jvm (es ++ [e]) = e.run sec jvm (Gateway.after sec jvm es) :=
  List.foldl_concat ..

/-- At the replicas, the event is the action `x`, or nothing. Only a request of its own registers
somebody. -/
structure Event.Performs (sec : WebSecurity) (jvm : Jvm) (g : Gateway) (e : Event) (x : Option Action) :
    Prop where
  service : (e.run sec jvm g).service = x.elim g.service fun x => x.run jvm g.service
  registers : ∀ command username rest, x = some (.ordered command) →
    decodeOrdered command = .ok (.ledger (.registerUser username rest)) → e = .action (.ordered command)

/-- A login asks the replicas for one account at most. -/
theorem performs_login (g : Gateway) (time : Int64) (body : LoginBody) :
    ∃ x, Event.Performs sec jvm g (.login time body) x := by
  have hnothing : (JwtAuthenticationFilter.login sec jvm time body g.service).2 = g.service →
      Event.Performs sec jvm g (.login time body) none := fun h =>
    ⟨h, fun command username rest hx => by cases hx⟩
  have hauthenticate : ∀ principal credentials,
      (JwtAuthenticationFilter.login sec jvm time body g.service).2 =
        (sec.authenticate (JwtAuthenticationFilter.loadUser sec jvm) principal credentials
          g.service).2 → ∃ x, Event.Performs sec jvm g (.login time body) x := by
    intro principal credentials hlogin
    -- An authentication loads one user at most.
    rcases sec.authenticate_state (JwtAuthenticationFilter.loadUser sec jvm) principal credentials
      g.service with hstate | ⟨username, hstate⟩
    · exact ⟨none, hnothing (hlogin.trans hstate)⟩
    · refine ⟨some (.unordered (queryCommand (.findUser (some username)))), hlogin.trans hstate, ?_⟩
      rintro command _ rest hx
      cases hx
  obtain ⟨username, password⟩ := body
  -- Which principal is authenticated depends on the fields of the body.
  cases username with
  | none => exact hauthenticate none none rfl
  | some username =>
    cases password with
    | none => cases username <;> exact hauthenticate none none rfl
    | some password =>
      cases username with
      | text u => exact hauthenticate (some u) (some password.toString) rfl
      | other printed => exact ⟨none, hnothing rfl⟩

/-- The handlers that take the header register nobody. -/
theorem not_registerUser (c : TokenCall) (u username : JString)
    {rest : Except JavaException (JString × JLong × Option (List JString))} {command : Command}
    (hc : ((c.request u).access id).action = .ordered command) :
    decodeOrdered command ≠ .ok (.ledger (.registerUser username rest)) := by
  intro hcommand
  -- A call with a token closes auctions or uploads a contract.
  cases c with
  | test | getBidFromUser => cases hc
  | closeAuction id =>
    cases hc
    rw [decodeOrdered_closeAuction] at hcommand
    cases hcommand
  | smartContract data | createBid data =>
    cases hc
    obtain ⟨code, h⟩ := decodeOrdered_createSmartContract hcommand
    cases h

/-- An event is an action of the replicas, or none. -/
theorem exists_performs (g : Gateway) (e : Event) : ∃ x, Event.Performs sec jvm g e x := by
  cases e with
  | action x =>
    refine ⟨some x, rfl, fun command username rest hx _ => ?_⟩
    cases hx
    rfl
  | login time body => exact performs_login g time body
  | call now later header c =>
    -- A call that is denied or fails does not reach the replica.
    cases hhandle : sec.handle now later header c with
    | denied | failed =>
      refine ⟨none, by simp only [Event.run, hhandle]; rfl, fun command username rest hx => ?_⟩
      cases hx
    | actsFor u =>
      refine ⟨some ((c.request u).access id).action, ?_, fun command username rest hx hcommand => ?_⟩
      · simp only [Event.run, hhandle]
        exact BankService.access_eq_run _ _
      · exact absurd hcommand (not_registerUser c u username (Option.some.inj hx))

/-- The replicas are in a state of a run of their own. -/
theorem exists_runAll (es : List Event) :
    ∃ xs, (Gateway.after sec jvm es).service = BankService.new.runAll jvm xs := by
  induction es using List.reverseRecOn with
  | nil => exact ⟨[], rfl⟩
  | append_singleton es e ih =>
    obtain ⟨xs, hxs⟩ := ih
    obtain ⟨x, hx⟩ := @exists_performs sec jvm (Gateway.after sec jvm es) e
    rw [after_concat, hx.service, hxs]
    cases x with
    | none => exact ⟨xs, rfl⟩
    | some x => exact ⟨xs ++ [x], (BankService.runAll_concat xs x _).symm⟩

/-- At every point of a run of events the maps of the repository agree. -/
theorem after_indexed (es : List Event) : Indexed (Gateway.after sec jvm es).service.bankRepo := by
  obtain ⟨xs, hxs⟩ := @exists_runAll sec jvm es
  rw [hxs]
  exact reached_indexed xs

/-- After some events, a login is answered with a header exactly when an account lets it in. -/
theorem login_after_iff (es : List Event) (time : Int64) (body : LoginBody) (header : String) :
    (JwtAuthenticationFilter.login sec jvm time body (Gateway.after sec jvm es).service).1 =
        some header ↔
      ∃ u c, LogsIn sec jvm (Gateway.after sec jvm es).service.bankRepo body u c ∧
        header = SecurityConstants.tokenStart ++ tokenFor sec jvm time u c := by
  obtain ⟨xs, hxs⟩ := @exists_runAll sec jvm es
  rw [hxs]
  exact login_eq_some_iff xs time body header

/-- An event updates the repository. -/
theorem run_updates (g : Gateway) (e : Event) :
    Updates g.service.bankRepo (e.run sec jvm g).service.bankRepo := by
  obtain ⟨x, hx⟩ := @exists_performs sec jvm g e
  rw [hx.service]
  cases x with
  | none => exact .refl
  | some x => exact x.run_updates g.service

/-- So do all events that follow. -/
theorem after_updates (es fs : List Event) :
    Updates (Gateway.after sec jvm es).service.bankRepo
      (Gateway.after sec jvm (es ++ fs)).service.bankRepo := by
  induction fs using List.reverseRecOn with
  | nil => rw [List.append_nil]
  | append_singleton fs e ih =>
    rw [← List.append_assoc, after_concat]
    exact ih.trans (run_updates _ e)

/-- Every user was registered by an event, under a free name and with the password of the account. -/
theorem registered_of_after {es : List Event} {u : JString} {c : BankEntity}
    (user : (Gateway.after sec jvm es).service.bankRepo.findByUserName u = some c) :
    ∃ before command after amount roles, es = before ++ .action (.ordered command) :: after ∧
      (Gateway.after sec jvm before).service.bankRepo.findByUserName u = none ∧
      decodeOrdered command = .ok (.ledger (.registerUser u (.ok (c.password, amount, roles)))) := by
  obtain ⟨before, e, after, rfl, hbefore, hafter⟩ :=
    @Run.exists_step _
      (fun es => (Gateway.after sec jvm es).service.bankRepo.findByUserName u ≠ none)
      (fun h => h rfl) es (by simp [user])
  have hfree := not_not.mp hbefore
  obtain ⟨b, hb⟩ := Option.ne_none_iff_exists'.mp hafter
  obtain ⟨x, hx⟩ := @exists_performs sec jvm (Gateway.after sec jvm before) e
  obtain ⟨command, amount, roles, rfl, hcommand⟩ : ∃ command amount roles,
      x = some (.ordered command) ∧
        decodeOrdered command = .ok (.ledger (.registerUser u (.ok (b.password, amount, roles)))) := by
    rw [after_concat, hx.service] at hb
    cases x with
    | none => exact absurd (hfree.symm.trans hb) (by simp)
    | some x =>
      obtain ⟨command, amount, roles, rfl, hcommand, -⟩ :=
        registered_of_action (after_indexed before) hfree hb
      exact ⟨command, amount, roles, rfl, hcommand⟩
  -- From there on the user is the same user.
  have hupdates := @after_updates sec jvm (before ++ [e]) after
  rw [List.append_assoc, List.singleton_append] at hupdates
  obtain ⟨c', hc', hsame⟩ := UsersKept.of_updates (after_indexed _) hupdates u b hb
  obtain rfl : c = c' := Option.some.inj (user.symm.trans hc')
  obtain rfl := hx.registers command u _ rfl hcommand
  exact ⟨before, command, after, amount, roles, rfl, hfree, by rw [hsame.password, hcommand]⟩

/-- Every token was given to a login that an account let in. -/
theorem login_of_token {es : List Event} {token : String}
    (issued : token ∈ (Gateway.after sec jvm es).tokens) :
    ∃ before time body after u c, es = before ++ .login time body :: after ∧
      LogsIn sec jvm (Gateway.after sec jvm before).service.bankRepo body u c ∧
      token = tokenFor sec jvm time u c := by
  obtain ⟨before, e, after, rfl, hbefore, hafter⟩ :=
    Run.exists_step (P := fun es => token ∈ (Gateway.after sec jvm es).tokens) (by simp [Gateway.after])
      issued
  rw [after_concat] at hafter
  -- The first event after which the token is there: only a login issues one.
  cases e with
  | action x => exact absurd hafter hbefore
  | call now later header c =>
    simp only [Event.run] at hafter
    split at hafter <;> exact absurd hafter hbefore
  | login time body =>
    simp only [Event.run, List.mem_append, hbefore, false_or, Option.mem_toList, Option.map_eq_some_iff]
      at hafter
    obtain ⟨header, hheader, rfl⟩ := hafter
    obtain ⟨u, c, hlogs, rfl⟩ := (login_after_iff before time body header).mp hheader
    exact ⟨before, time, body, after, u, c, rfl, hlogs, removeAll_token _ _ _⟩

/-- A login that an account lets in is answered with a token. -/
theorem mem_tokens_of_login {es : List Event} {body : LoginBody} {u : String} {c : BankEntity}
    (h : LogsIn sec jvm (Gateway.after sec jvm es).service.bankRepo body u c) (time : Int64) :
    tokenFor sec jvm time u c ∈ (Gateway.after sec jvm (es ++ [.login time body])).tokens := by
  have hlogin := (login_after_iff es time body _).mpr ⟨u, c, h, rfl⟩
  rw [after_concat]
  simp only [Event.run, hlogin, Option.map_some, Option.toList_some, List.mem_append,
    List.mem_singleton]
  exact .inr (removeAll_token _ _ _).symm

end Events

/-- **Nobody is acted for without a login:** in any run of logins, of calls with any headers and of other
steps of the replicas, a handler acts for a user by a header that holds a token of the proxy only if
that token was given to a login for the user, at an earlier point of the run, with a password that
matches the one with which the name of the user was registered when it was free, and if the token has
expired neither for the filter nor for the handler. -/
theorem acts_for_login (sec : WebSecurity) (jvm : Jvm) (es : List Event) (now later : Int64)
    (header : String) (call : TokenCall) (v : JString)
    (acts : sec.handle now later (some header) call = .actsFor v)
    (issued : removeAll SecurityConstants.tokenStart header ∈ (Gateway.after sec jvm es).tokens) :
    ∃ before command between amount roles time body after u presented encoded,
      es = before ++ .action (.ordered command) :: between ++ .login time body :: after ∧ v = some u ∧
      (Gateway.after sec jvm before).service.bankRepo.findByUserName (some u) = none ∧
      decodeOrdered command = .ok (.ledger (.registerUser (some u) (.ok (some encoded, amount, roles)))) ∧
      body = ⟨some (.text u), some presented⟩ ∧
      sec.passwordMatches presented.toString encoded = true ∧
      now ≤ inSeconds (time + 864000000) ∧ later ≤ inSeconds (time + 864000000) := by
  -- The token came from a login, and the account of the login from a registration.
  obtain ⟨start, time, body, after, u, c, rfl, hlogs, htoken⟩ := login_of_token issued
  obtain ⟨hv, -, -, hnow, hlater, -⟩ := (handle_tokenFor hlogs htoken now later call v).mp acts
  obtain ⟨before, command, between, amount, roles, rfl, hfree, hcommand⟩ :=
    registered_of_after hlogs.user
  obtain ⟨presented, encoded, hpresented, hencoded, hmatches⟩ := hlogs.password
  obtain ⟨username, password⟩ := body
  obtain rfl : username = some (.text u) := hlogs.name
  obtain rfl : password = some presented := hpresented
  rw [hencoded] at hcommand
  exact ⟨before, command, between, amount, roles, time, _, after, u, presented, encoded, rfl, hv, hfree,
    hcommand, rfl, hmatches, hnow, hlater⟩

/-! ## A user who logs in -/

/-- The characters of a text as numbers. -/
def numbers (s : String) : List ℕ := s.toList.map Char.toNat

/-- The text of such numbers. -/
def ofNumbers (ns : List ℕ) : String := String.ofList (ns.map Char.ofNat)

/-- A text comes back from its numbers. -/
theorem ofNumbers_numbers (s : String) : ofNumbers (numbers s) = s := by
  simp [ofNumbers, numbers, Function.comp_def]

/-- A library whose tokens are as long as the number of what they hold says. -/
def unaryJwts : Jwts where
  compact subject expiration rol := String.ofList (List.replicate
    (Encodable.encode (subject.map numbers, expiration.toBitVec.toNat, rol.map numbers)) 'a')
  parseClaimsJws now text :=
    match (Encodable.decode text.toList.length : Option (Option (List ℕ) × ℕ × List (List ℕ))) with
    | none => .error .malformedJwt
    | some (subject, expiration, rol) =>
      if inSeconds (Int64.ofBitVec (BitVec.ofNat 64 expiration)) < now then .error .expiredJwt
      else .ok ⟨subject.map ofNumbers, .list (rol.map fun r => .text (ofNumbers r))⟩
  compact_blank subject expiration rol := by simp [List.mem_replicate]
  parse_compact now subject expiration rol := by
    simp [Function.comp_def, ofNumbers_numbers]

/-- An authentication manager that loads the user first, and then compares the passwords. -/
def daoAuthenticate (passwordMatches : String → String → Bool)
    (load : String → BankService → Except JavaException MyUserDetails × BankService)
    (principal credentials : JString) (st : BankService) :
    Except JavaException MyUserDetails × BankService :=
  let (user, st) := load (principal.getD "NONE_PROVIDED") st
  match user with
  | .error e => (.error e, st)
  | .ok user =>
    match credentials, user.passWord with
    | some presented, some encoded =>
      (if passwordMatches presented encoded then .ok user else .error .other, st)
    | _, _ => (.error .other, st)

section DaoAuthenticate

variable (passwordMatches : String → String → Bool)
  (load : String → BankService → Except JavaException MyUserDetails × BankService)

/-- It accepts a password that matches that of the user. -/
theorem daoAuthenticate_iff (username presented : String) (st : BankService) (d : MyUserDetails) :
    (daoAuthenticate passwordMatches load (some username) (some presented) st).1 = .ok d ↔
      (load username st).1 = .ok d ∧
        ∃ encoded, d.passWord = some encoded ∧ passwordMatches presented encoded = true := by
  simp only [daoAuthenticate, Option.getD_some]
  cases hload : (load username st).1 with
  | error e => simp
  | ok user =>
    obtain ⟨userName, passWord, roles⟩ := user
    -- An account without a password matches none.
    cases passWord with
    | none =>
      refine iff_of_false (by simp) ?_
      rintro ⟨hd, encoded, hencoded, -⟩
      cases hd
      cases hencoded
    | some password =>
      dsimp only
      constructor
      · intro h
        split_ifs at h with hmatches
        cases h
        exact ⟨rfl, password, rfl, hmatches⟩
      · rintro ⟨hd, encoded, hencoded, hmatches⟩
        cases hd
        cases hencoded
        exact if_pos hmatches

/-- It accepts nobody without credentials. -/
theorem daoAuthenticate_none (principal : JString) (st : BankService) (d : MyUserDetails) :
    (daoAuthenticate passwordMatches load principal none st).1 ≠ .ok d := by
  simp only [daoAuthenticate]
  split <;> simp

/-- The state is that after the user has been loaded. -/
theorem daoAuthenticate_state (principal credentials : JString) (st : BankService) :
    (daoAuthenticate passwordMatches load principal credentials st).2 =
      (load (principal.getD "NONE_PROVIDED") st).2 := by
  simp only [daoAuthenticate]
  split
  · rfl
  · split <;> rfl

end DaoAuthenticate

/-- Passwords are compared as they are. -/
def plainSecurity : WebSecurity where
  jwts := unaryJwts
  passwordMatches presented encoded := presented == encoded
  authority := plainAuthority
  authenticate := daoAuthenticate fun presented encoded => presented == encoded
  authenticate_iff := daoAuthenticate_iff _
  authenticate_none := daoAuthenticate_none _
  authenticate_state load principal credentials st :=
    .inr ⟨_, daoAuthenticate_state _ load principal credentials st⟩
  grants
    | .permitAll, _ => true
    | .hasRole role, some a => a.authorities.contains ("ROLE_" ++ role)
    | .authenticated, some _ => true
    | .hasRole role, none => role == "ANONYMOUS"
    | .authenticated, none => false
  grants_hasRole _ _ := rfl
  grants_authenticated _ := rfl
  grants_hasRole_none _ hrole := beq_eq_false_iff_ne.mpr hrole
  grants_authenticated_none := rfl

/-- `alice` is registered, and logs in. -/
def aliceLogsIn : List Event :=
  [.action (registration (some "alice") (some "secret") (some 10) none),
    .login 0 ⟨some (.text "alice"), some (.text "secret")⟩]

/-- A handler acts for `alice` by the token of the login. -/
theorem acts_for_alice :
    ∃ header, plainSecurity.handle 5 6 (some header) (.closeAuction 1) = .actsFor (some "alice") ∧
      ∃ before command between amount roles time body after u presented encoded,
        aliceLogsIn = before ++ .action (.ordered command) :: between ++ .login time body :: after ∧
        some "alice" = some u ∧
        (Gateway.after plainSecurity accountJvm before).service.bankRepo.findByUserName (some u) = none ∧
        decodeOrdered command =
          .ok (.ledger (.registerUser (some u) (.ok (some encoded, amount, roles)))) ∧
        body = ⟨some (.text u), some presented⟩ ∧
        plainSecurity.passwordMatches presented.toString encoded = true ∧
        5 ≤ inSeconds (time + 864000000) ∧ 6 ≤ inSeconds (time + 864000000) := by
  -- The account as the registration makes it.
  let alice : BankEntity :=
    ⟨some "alice", some "secret", some 10, KeyedMap.empty, KeyedMap.empty, "ROLE_USER@/&@"⟩
  have hlogs : LogsIn plainSecurity accountJvm
      (Gateway.after plainSecurity accountJvm
        [.action (registration (some "alice") (some "secret") (some 10) none)]).service.bankRepo
      ⟨some (.text "alice"), some (.text "secret")⟩ "alice" alice :=
    ⟨rfl, rfl, ⟨_, _, rfl, rfl, by decide⟩, by decide, by decide⟩
  have htoken : removeAll SecurityConstants.tokenStart
      (SecurityConstants.tokenStart ++ tokenFor plainSecurity accountJvm 0 "alice" alice) =
        tokenFor plainSecurity accountJvm 0 "alice" alice := removeAll_token _ _ _
  have hacts := (handle_tokenFor hlogs htoken 5 6 (.closeAuction 1) (some "alice")).mpr
    ⟨rfl, by decide, startsWith_append _ _, by decide, by decide, by simp⟩
  refine ⟨_, hacts, acts_for_login plainSecurity accountJvm aliceLogsIn 5 6 _ _ _ hacts ?_⟩
  rw [htoken]
  exact mem_tokens_of_login hlogs 0

end NovaBank.Ledger
