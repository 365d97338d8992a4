import NovaBank.Java.Replace
import NovaBank.Proxy.Invoke

/-!
# Who may call what

`JwtAuthenticationFilter`, `JwtAuthorizationFilter` and `WebSecurityConfig` of
`csd/src/main/java/fct/unl/pt/csd/Security`, `getSubject` of `BankServiceReplicationJedisCluster`, and the
handlers of `RestAPIController` that take the header of the token.

A login asks the replicas for the account and compares the password. The token that it answers with
holds the name, the authorities and a time at which it expires. Every later request is judged by its
header alone: the filter reads the name and the authorities from the token, the rules of
`WebSecurityConfig` let the request through or not, and a handler that acts for the user reads the token
a second time.

The library of the tokens is `Jwts`, with what is used of it: a token that it has built is read back
until it expires, and has no blank. About texts that it has not built nothing is said. `WebSecurity` has
what the framework does, as far as it is used: the authentication manager, which calls the service of the
user details and compares the passwords, and the rules.
-/

namespace NovaBank.Proxy

open Java Replica

namespace SecurityConstants

/-- `TOKEN_PREFIX`. -/
def tokenStart : String := "Bearer "

end SecurityConstants

open SecurityConstants

/-! ## Tokens -/

/-- What the reading of a token may throw. -/
inductive TokenException where
  | expiredJwt
  | unsupportedJwt
  | malformedJwt
  | signature
  | illegalArgument
  /-- Any exception that the filter does not name. -/
  | other
  deriving DecidableEq

/-- The exceptions that the filter catches. -/
def TokenException.isCaught : TokenException → Bool
  | other => false
  | _ => true

/-- An element of the claim `rol`. -/
inductive RolEntry where
  | null
  | text (s : String)
  /-- A value that is not a text. -/
  | other

/-- The claim `rol`. -/
inductive Rol where
  | null
  | list (entries : List RolEntry)
  /-- A value that is not a list. -/
  | other

/-- The claims that are read from a token. -/
structure Claims where
  subject : JString
  rol : Rol

/-- A time in milliseconds, as a token keeps it: in whole seconds. -/
def inSeconds (time : Int64) : Int64 := time / 1000 * 1000

/-- What is used of the library of the tokens, with the key of `SecurityConstants`. -/
structure Jwts where
  /-- `Jwts.builder()` with the subject, the time at which the token expires, and the claim `rol`. The
  other claims are constants. -/
  compact : JString → Int64 → List String → String
  /-- `Jwts.parser()….parseClaimsJws(token)` at a time. -/
  parseClaimsJws : Int64 → String → Except TokenException Claims
  compact_blank : ∀ subject expiration rol, ' ' ∉ (compact subject expiration rol).toList
  parse_compact : ∀ now subject expiration rol,
    parseClaimsJws now (compact subject expiration rol) =
      if inSeconds expiration < now then .error .expiredJwt
      else .ok ⟨subject, .list (rol.map .text)⟩

/-! ## The rules -/

namespace WebSecurityConfig

/-- What a path asks for. -/
inductive Rule where
  | permitAll
  | hasRole (role : String)
  | authenticated
  deriving DecidableEq

/-- `configure(http)`. -/
def rule (path : String) : Rule :=
  if path ∈ ["/register", "/all"] then .permitAll
  else if path ∈ ["/createAuction", "/test"] then .hasRole "AUCTION_MAKER"
  else .authenticated

end WebSecurityConfig

/-! ## What is not in the sources -/

/-- `UsernamePasswordAuthenticationToken` of a request. -/
structure Authentication where
  username : String
  authorities : List String
  deriving DecidableEq

/-- What the security of the proxy uses from outside the sources. -/
structure WebSecurity where
  /-- The library of the tokens. -/
  jwts : Jwts
  /-- The class of the authorities. -/
  authority : SimpleGrantedAuthority
  /-- `BCryptPasswordEncoder.matches`, for an encoded password that is not `null`. -/
  passwordMatches : String → String → Bool
  /-- `authenticationManager.authenticate(token)` with a principal and credentials, where the details of
  a user are loaded by the given service. -/
  authenticate : (String → BankService → Except JavaException MyUserDetails × BankService) →
    JString → JString → BankService → Except JavaException MyUserDetails × BankService
  /-- Credentials are accepted exactly when the service has the user, with a password that they match. -/
  authenticate_iff : ∀ load username presented st d,
    (authenticate load (some username) (some presented) st).1 = .ok d ↔
      (load username st).1 = .ok d ∧
        ∃ encoded, d.passWord = some encoded ∧ passwordMatches presented encoded = true
  /-- Nobody is accepted without credentials. -/
  authenticate_none : ∀ load principal st d, (authenticate load principal none st).1 ≠ .ok d
  /-- The service is called once at most, and nothing else is changed. -/
  authenticate_state : ∀ load principal credentials st,
    (authenticate load principal credentials st).2 = st ∨
      ∃ username, (authenticate load principal credentials st).2 = (load username st).2
  /-- Whether a rule lets a request through, with the authentication that is in the context. -/
  grants : WebSecurityConfig.Rule → Option Authentication → Bool
  /-- `hasRole` looks for the authority with `ROLE_` in front of the role. -/
  grants_hasRole : ∀ role a,
    grants (.hasRole role) (some a) = a.authorities.contains ("ROLE_" ++ role)
  /-- `authenticated` asks for no authority. -/
  grants_authenticated : ∀ a, grants .authenticated (some a) = true
  /-- Who is not authenticated is anonymous, and has no other role. -/
  grants_hasRole_none : ∀ role, role ≠ "ANONYMOUS" → grants (.hasRole role) none = false
  /-- Who is anonymous is not authenticated. -/
  grants_authenticated_none : grants .authenticated none = false

/-! ## The filter of the requests -/

namespace JwtAuthorizationFilter

variable (sec : WebSecurity)

/-- `new SimpleGrantedAuthority(role)`, with the exception that the filter catches. -/
def grant (role : JString) : Except TokenException String :=
  match sec.authority.new role with
  | some text => .ok text
  | none => .error .illegalArgument

/-- `new SimpleGrantedAuthority((String) authority)`. -/
def authority : RolEntry → Except TokenException String
  | .null => grant sec none
  | .text s => grant sec (some s)
  | .other => .error .other

/-- The stream of the claim `rol`. -/
def authorities : Rol → Except TokenException (List String)
  | .list entries => entries.mapM (authority sec)
  | .null | .other => .error .other

/-- The body of the `try` block of `getAuthentication(request)`. -/
def readToken (now : Int64) (token : String) : Except TokenException (Option Authentication) := do
  let claims ← sec.jwts.parseClaimsJws now (removeAll tokenStart token)
  let authorities ← authorities sec claims.rol
  match claims.subject with
  -- `username.isEmpty()`.
  | none => throw .other
  | some username => return if username = "" then none else some ⟨username, authorities⟩

/-- `getAuthentication(request)`, `none` for `null`. -/
def getAuthentication (now : Int64) : JString → Except TokenException (Option Authentication)
  | none => .ok none
  | some token =>
    if startsWith tokenStart token then
      match readToken sec now token with
      | .ok authentication => .ok authentication
      | .error e => if e.isCaught then .ok none else .error e
    else .ok none

/-- `doFilterInternal(request, response, filterChain)`: the authentication with which the chain goes on,
`none` when there is none in the context. -/
def doFilterInternal (now : Int64) (header : JString) :
    Except TokenException (Option Authentication) := do
  let authentication ← getAuthentication sec now header
  match header with
  | none => return none
  | some header => return if startsWith tokenStart header then authentication else none

end JwtAuthorizationFilter

/-! ## The handlers that act for the user of the token -/

/-- A call of a handler that takes the header. -/
inductive TokenCall where
  /-- `GET /test`. -/
  | test
  /-- `POST /smartcontract`. -/
  | smartContract (data : ByteArray)
  /-- `DELETE /closeauction?id`. -/
  | closeAuction (id : Int64)
  /-- `GET /getbid`. -/
  | getBidFromUser
  /-- `POST /createbid`. -/
  | createBid (data : ByteArray)

namespace TokenCall

/-- The path of the handler. -/
def path : TokenCall → String
  | test => "/test"
  | smartContract _ => "/smartcontract"
  | closeAuction _ => "/closeauction"
  | getBidFromUser => "/getbid"
  | createBid _ => "/createbid"

/-- What the handler asks of the replicas for the user. A bid is sent as the code of a contract. -/
def request (username : JString) : TokenCall → ClientRequest
  | test => .findUser username
  | smartContract data => .createSmartContract username data
  | closeAuction id => .closeAuction username (some id)
  | getBidFromUser => .list (.bidsFromUser username)
  | createBid data => .createSmartContract username data

end TokenCall

/-- What becomes of a call. -/
inductive Handled where
  /-- The rules refuse it. -/
  | denied
  /-- An exception of the filter or of the handler. -/
  | failed
  /-- The handler sends the request for this user. -/
  | actsFor (username : JString)
  deriving DecidableEq

namespace WebSecurity

variable (sec : WebSecurity)

/-- `getSubject(token)`, where no exception is caught. -/
def getSubject (now : Int64) (token : String) : Except TokenException JString := do
  let claims ← sec.jwts.parseClaimsJws now (removeAll tokenStart token)
  return claims.subject

/-- A call with a header: the filter at the time `now`, the rules, and the handler at the time `later`. -/
def handle (now later : Int64) (header : JString) (call : TokenCall) : Handled :=
  match JwtAuthorizationFilter.doFilterInternal sec now header with
  | .error _ => .failed
  | .ok authentication =>
    if sec.grants (WebSecurityConfig.rule call.path) authentication then
      match header with
      | none => .failed
      | some token =>
        match sec.getSubject later token with
        | .error _ => .failed
        | .ok username => .actsFor username
    else .denied

end WebSecurity

/-! ## Logins -/

/-- A field of the body of a login. -/
inductive LoginField where
  | text (s : String)
  /-- A value that is not a text, as it is printed. -/
  | other (printed : String)

/-- `getString(key)`. -/
def LoginField.getString : LoginField → Except JavaException String
  | text s => .ok s
  | other _ => .error .other

/-- `toString()`. -/
def LoginField.toString : LoginField → String
  | text s => s
  | other printed => printed

/-- The body of a login, with the fields that it has. -/
structure LoginBody where
  username : Option LoginField
  password : Option LoginField

namespace ClientRequestHandler

/-- `new BankEntity(j.getString("username"), j.getString("password"), j.getLong("amount"),
j.getString("roles").split("@/&@"))`. -/
def toUser (jvm : Jvm) (j : JSONObject) : Except JavaException FoundUser := do
  let userName ← j.getString "username"
  let password ← j.getString "password"
  let amount ← j.getLong "amount"
  let roles := split roleSeparator (← j.getString "roles")
  return ⟨userName, password, amount, ← BankEntity.appendRoles jvm "ROLE_USER" (roles.map some)⟩

/-- `invokeFindUser(username)`, `none` for `null`. -/
def invokeFindUser (jvm : Jvm) : Reply → Except JavaException (Option FoundUser)
  | none => .ok none
  | some os => do return some (← toUser jvm (← readJson os))

/-- `loadUserByUsername(username)`. -/
def loadUserByUsername (jvm : Jvm) (authority : SimpleGrantedAuthority) (username : JString)
    (reply : Reply) : Except JavaException MyUserDetails := do
  MyUserDetails.new authority username (← invokeFindUser jvm reply)

end ClientRequestHandler

namespace JwtAuthenticationFilter

variable (sec : WebSecurity) (jvm : Jvm)

/-- `loadUserByUsername(username)` of the user details service, with the access to the replicas. -/
def loadUser (username : String) (st : BankService) :
    Except JavaException MyUserDetails × BankService :=
  let (reply, st) := st.access jvm (.unordered (queryCommand (.findUser (some username))))
  (ClientRequestHandler.loadUserByUsername jvm sec.authority (some username) (received reply), st)

/-- `attemptAuthentication(request, response)`. -/
def attemptAuthentication (body : LoginBody) (st : BankService) :
    Except JavaException MyUserDetails × BankService :=
  match body.username, body.password with
  | some username, some password =>
    match username.getString with
    | .error e => (.error e, st)
    | .ok username =>
      sec.authenticate (loadUser sec jvm) (some username) (some password.toString) st
  | _, _ => sec.authenticate (loadUser sec jvm) none none st

/-- The token of `successfulAuthentication(request, response, filterChain, authentication)`. -/
def token (now : Int64) (user : MyUserDetails) : String :=
  sec.jwts.compact user.userName (now + 864000000) user.getAuthorities

/-- The header of that response. -/
def successfulAuthentication (now : Int64) (user : MyUserDetails) : String :=
  tokenStart ++ token sec now user

/-- A login: the header of the response, if there is one. -/
def login (now : Int64) (body : LoginBody) (st : BankService) : Option String × BankService :=
  let (user, st) := attemptAuthentication sec jvm body st
  (user.toOption.map (successfulAuthentication sec now), st)

end JwtAuthenticationFilter

/-! ## Both levels of a reply -/

section Levels

variable {J : Type} {w : Wire} {p : JsonLibrary J} {jvm : Jvm} {value : Json → J}

/-- The proxy builds the same account from the text of an object. -/
theorem toUser_of_value {j : JSONObject} (printed : ReadsValue jvm p value (.object j)) :
    Wire.toUser p jvm (value (.object j)) = ClientRequestHandler.toUser jvm j := by
  simp only [Wire.toUser, ClientRequestHandler.toUser, printed.2]

end Levels

/-! ## Tokens that the library has built -/

section Tokens

variable {sec : WebSecurity}

/-- What is in front of a token is taken off. -/
theorem removeAll_token (subject : JString) (expiration : Int64) (rol : List String) :
    removeAll tokenStart (tokenStart ++ sec.jwts.compact subject expiration rol) =
      sec.jwts.compact subject expiration rol := by
  have hblank : ' ' ∈ tokenStart.toList := by decide
  rw [removeAll_append (by decide)]
  exact removeAll_of_not_mem hblank (sec.jwts.compact_blank subject expiration rol)

/-- Roles that are not blank are the authorities again. -/
theorem authorities_text {rol : List String}
    (h : ∀ r ∈ rol, r.toList.all sec.authority.isWhitespace = false) :
    JwtAuthorizationFilter.authorities sec (.list (rol.map .text)) = .ok rol := by
  show (rol.map RolEntry.text).mapM (JwtAuthorizationFilter.authority sec) = .ok rol
  induction rol with
  | nil => rfl
  | cons r rol ih =>
    have hr : JwtAuthorizationFilter.authority sec (.text r) = .ok r := by
      have hnew := sec.authority.new_visible r (h r (by simp))
      simp only [JwtAuthorizationFilter.authority, JwtAuthorizationFilter.grant, hnew]
    rw [List.map_cons, List.mapM_cons, hr, ih fun q hq => h q (by simp [hq])]
    rfl

variable {header : String} {subject : JString} {u : String} {expiration now later : Int64}
  {rol : List String}

/-- The handler reads the subject of a token that has not expired. -/
theorem getSubject_of_token
    (htoken : removeAll tokenStart header = sec.jwts.compact subject expiration rol) :
    sec.getSubject now header =
      if inSeconds expiration < now then .error .expiredJwt else .ok subject := by
  rw [WebSecurity.getSubject, htoken, sec.jwts.parse_compact]
  split_ifs <;> rfl

/-- The `try` block of the filter on such a token. -/
theorem readToken_of_token
    (htoken : removeAll tokenStart header = sec.jwts.compact (some u) expiration rol)
    (hrol : ∀ r ∈ rol, r.toList.all sec.authority.isWhitespace = false) :
    JwtAuthorizationFilter.readToken sec now header =
      if inSeconds expiration < now then .error .expiredJwt
      else .ok (if u = "" then none else some ⟨u, rol⟩) := by
  unfold JwtAuthorizationFilter.readToken
  rw [htoken, sec.jwts.parse_compact]
  -- An expired token throws while it is parsed, before anything is read from it.
  by_cases hexpired : inSeconds expiration < now
  · rw [if_pos hexpired, if_pos hexpired]
    rfl
  · rw [if_neg hexpired, if_neg hexpired]
    dsimp only [bind, Except.bind]
    rw [authorities_text hrol]
    rfl

/-- The filter goes on with the user and the authorities of such a token. -/
theorem doFilterInternal_of_token
    (htoken : removeAll tokenStart header = sec.jwts.compact (some u) expiration rol)
    (hrol : ∀ r ∈ rol, r.toList.all sec.authority.isWhitespace = false) :
    JwtAuthorizationFilter.doFilterInternal sec now (some header) =
      .ok (if startsWith tokenStart header = true ∧ ¬ inSeconds expiration < now ∧ u ≠ "" then
        some ⟨u, rol⟩ else none) := by
  simp only [JwtAuthorizationFilter.doFilterInternal, JwtAuthorizationFilter.getAuthentication,
    readToken_of_token htoken hrol]
  by_cases hstarts : startsWith tokenStart header = true
  · by_cases hexpired : inSeconds expiration < now
    · simp [hstarts, hexpired, TokenException.isCaught, bind, Except.bind, pure, Except.pure]
    · by_cases hu : u = "" <;> simp [hstarts, hexpired, hu, bind, Except.bind, pure, Except.pure]
  · simp [hstarts, bind, Except.bind, pure, Except.pure]

/-- No handler that takes the header is open to everybody. -/
theorem grants_none (call : TokenCall) :
    sec.grants (WebSecurityConfig.rule call.path) none = false := by
  cases call with
  | test => exact sec.grants_hasRole_none "AUCTION_MAKER" (by decide)
  | smartContract data | closeAuction id | getBidFromUser | createBid data =>
    exact sec.grants_authenticated_none

/-- The rules ask for a role for one of the handlers only. -/
theorem grants_some_iff (call : TokenCall) (a : Authentication) :
    sec.grants (WebSecurityConfig.rule call.path) (some a) = true ↔
      (call = .test → "ROLE_AUCTION_MAKER" ∈ a.authorities) := by
  cases call with
  | test =>
    have hgrants := sec.grants_hasRole "AUCTION_MAKER" a
    have hrole : "ROLE_" ++ "AUCTION_MAKER" = "ROLE_AUCTION_MAKER" := by decide
    rw [hrole] at hgrants
    show sec.grants (.hasRole "AUCTION_MAKER") (some a) = true ↔ _
    rw [hgrants, List.contains_iff_mem]
    simp
  | smartContract data | closeAuction id | getBidFromUser | createBid data =>
    exact iff_of_true (sec.grants_authenticated a) (by simp)

/-- A handler acts for the subject of a token, and only while the token has not expired, neither for the
filter nor for the handler. -/
theorem handle_of_token
    (htoken : removeAll tokenStart header = sec.jwts.compact (some u) expiration rol)
    (hrol : ∀ r ∈ rol, r.toList.all sec.authority.isWhitespace = false) (call : TokenCall) (v : JString) :
    sec.handle now later (some header) call = .actsFor v ↔
      v = some u ∧ u ≠ "" ∧ startsWith tokenStart header = true ∧ now ≤ inSeconds expiration ∧
        later ≤ inSeconds expiration ∧ (call = .test → "ROLE_AUCTION_MAKER" ∈ rol) := by
  unfold WebSecurity.handle
  rw [doFilterInternal_of_token htoken hrol]
  dsimp only
  split_ifs with hvalid hgrants hgrants
  · -- The filter has let the token through, and the handler reads it again.
    rw [grants_some_iff] at hgrants
    rw [getSubject_of_token htoken]
    obtain ⟨hstarts, hnow, hu⟩ := hvalid
    by_cases hlater : inSeconds expiration < later
    · simp [hlater, Int64.not_le.mpr hlater]
    · simp only [if_neg hlater, Handled.actsFor.injEq, hu, hstarts, Int64.not_lt.mp hnow,
        Int64.not_lt.mp hlater, ne_eq, not_false_eq_true, true_and, eq_comm (a := some u)]
      exact ⟨fun h => ⟨h, hgrants⟩, And.left⟩
  · rw [grants_some_iff] at hgrants
    exact iff_of_false (by simp) fun h => hgrants h.2.2.2.2.2
  · rw [grants_none] at hgrants
    cases hgrants
  · refine iff_of_false (by simp) fun h => hvalid ⟨h.2.2.1, Int64.not_lt.mpr h.2.2.2.1, h.2.1⟩

end Tokens

end NovaBank.Proxy
