import NovaBank.Ledger.Accounts
import NovaBank.Ledger.Readable

/-!
# Roles on their way to the proxy

A replica keeps the roles of a user as one text with separators between them, the proxy splits the text,
puts it together again without the roles that are `ROLE_USER`, and splits it once more for the
authorities of the user. Whatever the roles are, empty ones, separators and parts of separators
included, the roles that have a character come out as they went in, since no separator begins inside a
piece, nor at its end when another separator follows.

But a granted authority must have a character that is not white space (`SimpleGrantedAuthority`).
`roles_survive_iff`: the roles arrive exactly when the account has all its fields and there is no blank
role among those that the proxy makes authorities of. Otherwise nobody gets any details of the user.
-/

namespace NovaBank.Ledger

open Java Replica Money Proxy

/-- `r.equalsIgnoreCase("ROLE_USER")`. -/
def isUserRole (jvm : Jvm) (r : String) : Bool := Java.equalsIgnoreCase jvm.foldCase r "ROLE_USER"

/-- The roles of an account and the authorities are the same, up to empty texts and to what is
`ROLE_USER` in another case. -/
structure RolesAgree (jvm : Jvm) (b : BankEntity) (d : MyUserDetails) : Prop where
  user : "ROLE_USER" ∈ b.getRoles ∧ "ROLE_USER" ∈ d.getAuthorities
  others : ∀ r, r ≠ "" → isUserRole jvm r = false → (r ∈ b.getRoles ↔ r ∈ d.getAuthorities)

/-- The roles of an account other than `ROLE_USER`, without the empty ones at the end. -/
def otherRoles (jvm : Jvm) (b : BankEntity) : List String :=
  (b.getRoles.filter fun r => !isUserRole jvm r).rdropWhile fun r => r.toList.isEmpty

section Roles

variable {jvm : Jvm} {b : BankEntity} {rest : List String}

/-- `ROLE_USER` is the role of all users. -/
theorem isUserRole_self (jvm : Jvm) : isUserRole jvm "ROLE_USER" = true := by
  simp [isUserRole, Java.equalsIgnoreCase]

/-- The first role of an account is `ROLE_USER`, whatever roles it was registered with. -/
theorem getRoles_of_new {username password : JString} {amount : JLong} {roles : Option (List String)}
    (h : BankEntity.new jvm username password amount (roles.map (List.map some)) = .ok b) :
    ∃ rest, b.getRoles = "ROLE_USER" :: rest := by
  -- The text of the roles begins with `ROLE_USER`, and the separator after it is the first one.
  have hunbroken : Unbroken roleSeparator.toList "ROLE_USER".toList roleSeparator.toList :=
    .of_begins (by decide) (by simp [roleSeparator]) _
  have hsplit := exists_split_rejoin (by decide) (by decide) hunbroken
  cases roles with
  | none =>
    cases h
    exact hsplit [""]
  | some rs =>
    rw [Option.map_some, BankEntity.new, appendRoles_some] at h
    cases h
    exact hsplit _

/-- What the proxy makes of the roles. -/
theorem split_roles (h : b.getRoles = "ROLE_USER" :: rest) :
    split roleSeparator (rejoin roleSeparator "ROLE_USER"
        (b.getRoles.filter fun r => !Java.equalsIgnoreCase jvm.foldCase r "ROLE_USER")) =
      "ROLE_USER" :: otherRoles jvm b := by
  have hfilter : b.getRoles.filter (fun r => !isUserRole jvm r) =
      rest.filter fun r => !isUserRole jvm r := by
    rw [h, List.filter_cons_of_neg (by simp [isUserRole_self])]
  -- What is left are some of the pieces of a text, which are joined and split again.
  have hsub : ("ROLE_USER" :: rest.filter fun r => !isUserRole jvm r).Sublist
      (split roleSeparator b.roles) := by
    rw [show split roleSeparator b.roles = "ROLE_USER" :: rest from h]
    exact List.filter_sublist.cons_cons _
  have hsplit := split_rejoin_of_sublist (by decide) (by decide) hsub
  rw [← hfilter] at hsplit
  exact hsplit

/-- The roles that arrive. -/
theorem mem_otherRoles {r : String} (hr : r ≠ "") :
    r ∈ otherRoles jvm b ↔ r ∈ b.getRoles ∧ isUserRole jvm r = false := by
  rw [otherRoles, mem_rdropWhile (by simpa using hr), List.mem_filter, Bool.not_eq_true']

/-- With these authorities the roles agree. -/
theorem rolesAgree_otherRoles (h : b.getRoles = "ROLE_USER" :: rest) (username password : JString) :
    RolesAgree jvm b ⟨username, password, "ROLE_USER" :: otherRoles jvm b⟩ where
  user := ⟨by simp [h], by simp [MyUserDetails.getAuthorities]⟩
  others r hr hrole := by
    -- A role that is not `ROLE_USER` is one of the others.
    have hne : r ≠ "ROLE_USER" := by
      rintro rfl
      rw [isUserRole_self] at hrole
      cases hrole
    rw [MyUserDetails.getAuthorities, List.mem_cons, mem_otherRoles hr]
    simp [hne, hrole]

end Roles

/-! ## From the registration to the authorities -/

/-- The registration of a user with some roles, or with none. -/
def registration (username password : JString) (amount : JLong) (roles : Option (List String)) : Action :=
  .ordered (Proxy.registerUser username password amount (roles.map (List.map some)))

section Details

variable {J : Type} {w : Wire} {p : JsonLibrary J} {jvm : Jvm} {value : Json → J} {reply : Reply}
  {message : Content} {authority : SimpleGrantedAuthority} {username password : JString} {amount : JLong}
  {roles : Option (List String)} {c : BankEntity}

/-- A registration of a free name makes an account. -/
theorem find_registration {xs : List Action} (password : JString) (amount : JLong)
    (roles : Option (List String))
    (free : (reached jvm xs).findByUserName username = none) :
    ∃ b, (reached jvm (xs ++ [registration username password amount roles])).findByUserName username =
        some b ∧
      BankEntity.new jvm username password amount (roles.map (List.map some)) = .ok b := by
  -- None of the roles is `null`, so the account is made.
  obtain ⟨b, hnew⟩ : ∃ b, BankEntity.new jvm username password amount (roles.map (List.map some)) =
      .ok b := by
    cases roles with
    | none => exact ⟨_, rfl⟩
    | some rs =>
      rw [Option.map_some, BankEntity.new, appendRoles_some]
      exact ⟨_, rfl⟩
  have hasks : (registration username password amount roles).asks jvm (BankService.new.runAll jvm xs) =
      some (.register b) := by
    have hfree : (BankService.new.runAll jvm xs).bankRepo.findByUserName username = none := free
    simp only [registration, Action.asks, decodeOrdered_registerUser, LedgerRequest.asks, hfree, hnew]
    rfl
  obtain ⟨version, hrun⟩ :=
    (registration username password amount roles).run_eq jvm (BankService.new.runAll jvm xs)
  rw [← reached_concat, hasks] at hrun
  refine ⟨b, ?_, hnew⟩
  rw [hrun]
  show ((reached jvm xs).newUserBankEntity b).findByUserName username = some b
  rw [BankRepository.newUserBankEntity_findByUserName, if_pos (BankEntity.userName_of_new hnew)]

/-- It keeps the roles of the registration in every later state. -/
theorem getRoles_registered {xs ys : List Action}
    (free : (reached jvm xs).findByUserName username = none)
    (user : (reached jvm (xs ++ [registration username password amount roles] ++ ys)).findByUserName
      username = some c) : ∃ rest, c.getRoles = "ROLE_USER" :: rest := by
  obtain ⟨b, hb, hnew⟩ := find_registration password amount roles free
  obtain ⟨c', hc', hsame⟩ := UsersKept.of_updates (reached_indexed _) (reached_append _ ys) username b hb
  obtain rfl : c = c' := Option.some.inj (user.symm.trans hc')
  obtain ⟨rest, hrest⟩ := getRoles_of_new hnew
  refine ⟨rest, ?_⟩
  rw [← hrest, BankEntity.getRoles, hsame.roles]
  rfl

/-- `loadUserByUsername` for a user whom the replicas know. -/
theorem loadUserByUsername_eq {s : BankRepository} (user : s.findByUserName username = some c)
    (h : BankService.answer jvm s (.findUser username) = .ok reply)
    (printed : ReadsValues jvm p value reply) (hmessage : Delivered w jvm reply message)
    {rest : List String} (hroles : c.getRoles = "ROLE_USER" :: rest) :
    w.loadUserByUsername p jvm authority username message =
      match c.userName, c.password, c.amount with
      | some _, some password, some _ =>
        if ∀ r ∈ otherRoles jvm c, r.toList.all authority.isWhitespace = false then
          .ok ⟨username, some password, "ROLE_USER" :: otherRoles jvm c⟩
        else .error .other
      | _, _, _ => .error .other := by
  rw [Wire.loadUserByUsername, invokeFindUser_of_user user h printed hmessage]
  -- A `null` field throws before the roles are looked at.
  cases c.userName with
  | none => rfl
  | some userName =>
    cases c.password with
    | none => rfl
    | some password =>
      cases c.amount with
      | none => rfl
      | some amount =>
        simp only [bind, Except.bind, MyUserDetails.new, FoundUser.getRoles, split_roles hroles,
          authority.mapM_grant, List.forall_mem_cons, authority.visible_roleUser, true_and]
        split_ifs <;> rfl

/-- With a blank role nobody gets the details. -/
theorem loadUserByUsername_of_blank {s : BankRepository} (user : s.findByUserName username = some c)
    (h : BankService.answer jvm s (.findUser username) = .ok reply)
    (printed : ReadsValues jvm p value reply) (hmessage : Delivered w jvm reply message)
    {rest : List String} (hroles : c.getRoles = "ROLE_USER" :: rest) {r : String}
    (hr : r ∈ otherRoles jvm c) (blank : r.toList.all authority.isWhitespace = true) :
    w.loadUserByUsername p jvm authority username message = .error .other := by
  have hnot : ¬ ∀ q ∈ otherRoles jvm c, q.toList.all authority.isWhitespace = false := fun hall =>
    Bool.false_ne_true ((hall r hr).symm.trans blank)
  rw [loadUserByUsername_eq user h printed hmessage hroles]
  split
  · exact if_neg hnot
  · rfl

end Details

/-- **Roles on their way to the proxy:** a user has been registered with any roles and the run has gone
on. The replicas answer `FIND_USER`, and `org.json` reads what it has printed. The details of the user
are built, and the authorities are the roles of the account, exactly when no field of the account is
`null` and none of the roles is blank, up to `ROLE_USER` and to empty roles at the end. -/
theorem roles_survive_iff {J : Type} (w : Wire) (p : JsonLibrary J) (jvm : Jvm) (value : Json → J)
    (authority : SimpleGrantedAuthority) (xs ys : List Action)
    (username password : JString) (amount : JLong) (roles : Option (List String)) (c : BankEntity)
    (free : (reached jvm xs).findByUserName username = none)
    (user : (reached jvm (xs ++ [registration username password amount roles] ++ ys)).findByUserName
      username = some c)
    (reply : Reply) (message : Content)
    (h : BankService.answer jvm (reached jvm (xs ++ [registration username password amount roles] ++ ys))
      (.findUser username) = .ok reply)
    (printed : ReadsValues jvm p value reply) (hmessage : Delivered w jvm reply message) :
    (∃ d, w.loadUserByUsername p jvm authority username message = .ok d ∧ RolesAgree jvm c d) ↔
      (c.userName ≠ none ∧ c.password ≠ none ∧ c.amount ≠ none) ∧
        ∀ r ∈ otherRoles jvm c, r.toList.all authority.isWhitespace = false := by
  obtain ⟨rest, hroles⟩ := getRoles_registered free user
  rw [loadUserByUsername_eq user h printed hmessage hroles]
  -- A `null` field throws, and with all of them it is up to the roles.
  cases c.userName with
  | none => simp
  | some userName =>
    cases c.password with
    | none => simp
    | some password =>
      cases c.amount with
      | none => simp
      | some amount =>
        simp only [ne_eq, reduceCtorEq, not_false_eq_true, true_and]
        constructor
        · rintro ⟨d, hd, -⟩
          by_contra hblank
          rw [if_neg hblank] at hd
          cases hd
        · intro hall
          exact ⟨_, if_pos hall, rolesAgree_otherRoles hroles _ _⟩

/-! ## Two users -/

/-- A wire on which every message holds one text. -/
def textWire : Wire where
  openStream bytes := if bytes = [] then .error .io else .ok ()
  openStream_nil := by decide
  readObject _ k := if k = 0 then .ok (.str "account") else .error .io
  verify _ _ _ := true

/-- A machine that prints this text. -/
def accountJvm : Jvm := { Jvm.plain (ContractClass.queueing []) with text := fun _ => "account" }

/-- A library that reads it as an object. -/
def accountLibrary (o : JSONObject) : JsonLibrary JSONObject where
  object _ := .ok o
  array _ := .error .other
  getString := JSONObject.getString
  getLong := JSONObject.getLong

/-- The object of a value. -/
def objectValue : Json → JSONObject
  | .object o => o
  | _ => JSONObject.empty

/-- Authorities are the texts with a character that is not white space. -/
def plainAuthority : SimpleGrantedAuthority where
  isWhitespace := Char.isWhitespace
  new
    | none => none
    | some role => if role.toList.all Char.isWhitespace then none else some role
  isWhitespace_letter := by decide
  new_visible role hrole := if_neg (by simp [hrole])
  new_blank role hrole := if_pos hrole

/-- The text is one message. -/
theorem delivered_account (o : JSONObject) :
    Delivered textWire accountJvm (some [.json (.object o)]) (some [0]) := by
  refine ⟨[0], rfl, rfl, fun k => ?_⟩
  cases k <;> rfl

/-- The object of an account is read back as it is. -/
theorem readsValues_account (o : JSONObject) :
    ReadsValues accountJvm (accountLibrary o) objectValue (some [.json (.object o)]) := by
  rintro os j hos hj
  cases hos
  cases List.mem_singleton.mp hj
  exact ⟨rfl, fun key => ⟨rfl, rfl⟩⟩

/-- `alice` is registered with the given roles. -/
def registeredWith (roles : List String) : Action :=
  registration (some "alice") (some "secret") (some 10) (some roles)

/-- `ROLE_AUCTION_MAKER` arrives. -/
theorem roles_survive_maker :
    ∃ c, (reached accountJvm [registeredWith ["ROLE_AUCTION_MAKER"]]).findByUserName (some "alice") =
        some c ∧
      ∃ d, textWire.loadUserByUsername (accountLibrary c.getJSON) accountJvm plainAuthority
          (some "alice") (some [0]) = .ok d ∧ RolesAgree accountJvm c d := by
  refine ⟨_, rfl, (roles_survive_iff textWire _ accountJvm objectValue plainAuthority [] []
    (some "alice") (some "secret") (some 10) (some ["ROLE_AUCTION_MAKER"]) _ rfl rfl
    (some [.json (.object _)]) (some [0]) rfl ?_ (delivered_account _)).mpr ?_⟩
  · exact readsValues_account _
  · exact ⟨by decide, by decide⟩

/-- **An empty role:** `alice` is registered with the empty role and `ROLE_AUCTION_MAKER`. Both are roles
of the account, and no details are built from it, whatever characters are white space. -/
theorem empty_role_throws :
    ∃ c, (reached accountJvm [registeredWith ["", "ROLE_AUCTION_MAKER"]]).findByUserName (some "alice") =
        some c ∧
      c.getRoles = ["ROLE_USER", "", "ROLE_AUCTION_MAKER"] ∧
      Delivered textWire accountJvm (some [.json (.object c.getJSON)]) (some [0]) ∧
      ∀ authority : SimpleGrantedAuthority,
        textWire.loadUserByUsername (accountLibrary c.getJSON) accountJvm authority (some "alice")
          (some [0]) = .error .other := by
  -- The empty role is joined and split like the others, and becomes a blank authority.
  let s := reached accountJvm [registeredWith ["", "ROLE_AUCTION_MAKER"]]
  have hroles : ∀ c, s.findByUserName (some "alice") = some c →
      c.getRoles = ["ROLE_USER", "", "ROLE_AUCTION_MAKER"] ∧ "" ∈ otherRoles accountJvm c := by
    intro c hc
    cases hc
    decide
  obtain ⟨c, hc⟩ : ∃ c, s.findByUserName (some "alice") = some c := ⟨_, rfl⟩
  obtain ⟨hall, hempty⟩ := hroles c hc
  have hanswer : BankService.answer accountJvm s (.findUser (some "alice")) =
      .ok (some [.json (.object c.getJSON)]) := by
    rw [BankService.answer_findUser, hc]
    rfl
  refine ⟨c, hc, hall, delivered_account _, fun authority => ?_⟩
  exact loadUserByUsername_of_blank hc hanswer (readsValues_account _) (delivered_account _) hall hempty
    rfl

end NovaBank.Ledger
