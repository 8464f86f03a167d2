import Shiftgate.Accounts.Federation
import Shiftgate.Library.Program

/-! Who may call what (`middleware.go`, `auth.go` and the account routes of
`internal/controlplane`): a bearer token is resolved to a principal, which then passes the gate of
the route. -/

namespace Shiftgate.Accounts

open Library

variable {text : Text}

/-- The library functions and secrets. `fields` is `strings.Fields`; `tokenDigest`, `hashPassword`
and `verifyPassword` are keyed with the peppers, and `hashPassword` takes its salt. -/
structure Config where
  fields : String → List String
  tokenDigest : String → String
  hashPassword : String → String → Option String
  verifyPassword : String → String → Bool
  metricsToken : String
  oidcConfigured : Bool
  accessTokenTTL : Nat
  refreshTokenTTL : Nat
  shortRefreshTokenTTL : Nat

structure Refusal where
  status : Nat
  code : String
  message : String
  deriving DecidableEq

def refuseIf (p : Prop) [Decidable p] (refusal : Refusal) : Except Refusal Unit :=
  if p then .error refusal else .ok ()

def orRefuse {α : Type} (found : Option α) (refusal : Refusal) : Except Refusal α :=
  match found with
  | some a => .ok a
  | none => .error refusal

variable {refusal : Refusal} {organizationID : String} {request : Request}

theorem refuseIf_ok {p : Prop} [Decidable p] {u : Unit} : refuseIf p refusal = .ok u ↔ ¬ p := by
  unfold refuseIf
  split_ifs with hp <;> simp [hp]

theorem orRefuse_ok {α : Type} {found : Option α} {a : α} :
    orRefuse found refusal = .ok a ↔ found = some a := by
  cases found <;> simp [orRefuse]

structure ScopeGrant where
  role : Role
  resource : String

def supportedScopes : String → Option ScopeGrant
  | "read" => some ⟨.viewer, ""⟩
  | "operate" => some ⟨.operator, ""⟩
  | "admin" => some ⟨.admin, ""⟩
  | "machines" => some ⟨.operator, "machines"⟩
  | "workloads" => some ⟨.operator, "workloads"⟩
  | "migrations" => some ⟨.operator, "migrations"⟩
  | "checkpoints" => some ⟨.operator, "checkpoints"⟩
  | "compute" => some ⟨.operator, "compute"⟩
  | "scim" => some ⟨.admin, "scim"⟩
  | _ => none

def validScopes (scopes : List String) : Bool :=
  0 < scopes.length && scopes.length ≤ 16 &&
    scopes.all (fun scope => (supportedScopes scope).isSome) && scopes.Nodup

def scopeAllows (scopes : List String) (required : Role) (resource : String) : Bool :=
  scopes.any fun scope => (supportedScopes scope).any fun grant =>
    grant.role.allows required && (grant.resource = "" || grant.resource = resource)

theorem scopeAllows_administration {scopes : List String} :
    scopeAllows scopes .admin "administration" = true ↔ "admin" ∈ scopes := by
  have hgrant : ∀ scope, (supportedScopes scope).any (fun grant =>
      grant.role.allows .admin && (grant.resource = "" || grant.resource = "administration")) = true
        ↔ scope = "admin" := by
    intro scope
    unfold supportedScopes
    split <;> simp_all [Role.allows, Role.level]
  simp only [scopeAllows, List.any_eq_true, hgrant, exists_eq_right]

def accessTokenPrefix : String := "shift_at_"
def refreshTokenPrefix : String := "shift_rt_"
def apiKeyPrefix : String := "shift_ak_"

def newToken (kind random : String) : String := kind ++ random

def hasKind (kind token : String) : Bool := kind.toList.isPrefixOf token.toList

structure Request where
  path : String
  authorization : String
  metricsToken : String

structure Principal where
  sessionID : String
  userID : String
  organizationID : String
  role : Option Role
  apiKeyID : String
  scopes : List String

def parseBearer (text : Text) (c : Config) (value : String) : Option String :=
  match c.fields value with
  | [scheme, token] =>
    if text.equalFold scheme "bearer" = false ∨ token.utf8ByteSize < 20 ∨
        256 < token.utf8ByteSize then none
    else some token
  | _ => none

def authenticate (c : Config) (db : Database text) (request : Request) : Except String Principal :=
  match parseBearer text c request.authorization with
  | none => .error "a bearer access token is required"
  | some token =>
    if hasKind apiKeyPrefix token then
      match db.authenticateAPIKey (c.tokenDigest token) with
      | some key =>
        .ok { sessionID := "", userID := key.userID, organizationID := key.organizationID,
              role := none, apiKeyID := key.id, scopes := key.scopes }
      | none => .error "API key is invalid, revoked, or expired"
    else if hasKind accessTokenPrefix token = false then
      .error "access token has an unsupported type"
    else
      match db.authenticateAccess (c.tokenDigest token) with
      | some session =>
        .ok { sessionID := session.id, userID := session.userID, organizationID := "",
              role := none, apiKeyID := "", scopes := [] }
      | none => .error "access token is invalid or expired"

def isPlatformAdminPath (path : String) : Bool :=
  path = "/v1/admin" || "/v1/admin/".toList.isPrefixOf path.toList

/-- An unset token never matches; a bearer token replaces the header. -/
def presentedMetricsToken (text : Text) (c : Config) (request : Request) : Bool :=
  let expected := text.trim c.metricsToken
  expected ≠ "" &&
    (parseBearer text c request.authorization).getD (text.trim request.metricsToken) = expected

def platformAdmin (text : Text) (c : Config) (request : Request) (principal : Principal) : Bool :=
  (principal.apiKeyID ≠ "" && scopeAllows principal.scopes .admin "administration") ||
    presentedMetricsToken text c request

def adminScopeRequired : Refusal :=
  ⟨403, "ADMIN_SCOPE_REQUIRED",
    "platform admin endpoints require an API key with the admin scope or the metrics scrape token"⟩

def requireAuth (c : Config) (db : Database text) (request : Request) : Except Refusal Principal :=
  match authenticate c db request with
  | .error message => .error ⟨401, "AUTHENTICATION_REQUIRED", message⟩
  | .ok principal =>
    if isPlatformAdminPath request.path && !platformAdmin text c request principal then
      .error adminScopeRequired
    else .ok principal

def requireOrganization (c : Config) (db : Database text) (request : Request)
    (organizationID : String) (required : Role) (scope : String) : Except Refusal Principal := do
  let principal ← requireAuth c db request
  refuseIf (organizationID = "") ⟨400, "ORGANIZATION_REQUIRED", "organization id is required"⟩
  refuseIf (principal.apiKeyID ≠ "" ∧ principal.organizationID ≠ organizationID)
    ⟨403, "ORGANIZATION_FORBIDDEN", "the API key belongs to another organization"⟩
  let role ← orRefuse (db.memberRole organizationID principal.userID)
    ⟨403, "ORGANIZATION_FORBIDDEN", "you are not a member of this organization"⟩
  refuseIf (role.allows required = false)
    ⟨403, "INSUFFICIENT_ROLE", "your organization role cannot perform this action"⟩
  refuseIf (principal.apiKeyID ≠ "" ∧ scopeAllows principal.scopes required scope = false)
    ⟨403, "API_KEY_SCOPE_FORBIDDEN", "the API key scope cannot perform this action"⟩
  return { principal with organizationID, role := some role }

def requireSCIM (c : Config) (db : Database text) (request : Request) (planAllows : Bool) :
    Except Refusal Principal := do
  let principal ← requireAuth c db request
  refuseIf (principal.apiKeyID = "")
    ⟨403, "SCIM_API_KEY_REQUIRED", "SCIM provisioning requires an API key with the scim scope"⟩
  refuseIf (scopeAllows principal.scopes .admin "scim" = false)
    ⟨403, "API_KEY_SCOPE_FORBIDDEN", "the API key scope cannot perform SCIM provisioning"⟩
  refuseIf (planAllows = false)
    ⟨402, "FEATURE_PLAN_REQUIRED", "this feature requires a plan that includes it " ++
      "and an active subscription; see GET /v1/plans"⟩
  return principal

def handleScoreboard (c : Config) (db : Database text) (request : Request) :
    Except Refusal Unit := do
  let principal ← requireAuth c db request
  refuseIf (principal.apiKeyID ≠ "" ∧
      scopeAllows principal.scopes .admin "administration" = false)
    ⟨403, "SCOREBOARD_FORBIDDEN", "an admin-scope API key is required for the scoreboard"⟩
  refuseIf (principal.apiKeyID = "" ∧ presentedMetricsToken text c request = false)
    ⟨403, "SCOREBOARD_FORBIDDEN", "platform operator credentials are required for the scoreboard"⟩

def isSpace (c : Char) : Bool := c ∈ ['\t', '\n', '\x0c', '\r', ' ']

/-- `^[^@\s]+@[^@\s]+\.[^@\s]+$`. -/
def emailPattern (value : String) : Bool :=
  match value.toList.splitOn '@' with
  | [user, domain] =>
    user ≠ [] && value.toList.all (!isSpace ·) && domain.tail.dropLast.contains '.'
  | _ => false

def normalizeEmail (text : Text) (value : String) : Except String String :=
  let value := text.normalize value
  if value.utf8ByteSize < 3 ∨ 320 < value.utf8ByteSize ∨ emailPattern value = false then
    .error "a valid email address is required"
  else .ok value

def validatePassword (value : String) : Except String Unit :=
  if value.utf8ByteSize < 12 then .error "password must contain at least 12 characters"
  else if 1024 < value.utf8ByteSize then .error "password is too long"
  else .ok ()

def ssoRequired : Refusal :=
  ⟨403, "SSO_REQUIRED", "this email domain requires single sign-on; use 'shift login --sso'"⟩

structure Draw where
  userID : String
  organizationID : String
  sessionID : String
  keyID : String
  salt : String
  access : String
  refresh : String
  secret : String

structure SessionTokens where
  accessToken : String
  refreshToken : String

def issueSession (c : Config) (db : Database text) (userID : String) (refreshTTL : Nat)
    (draw : Draw) : Database text × SessionTokens :=
  let tokens : SessionTokens :=
    ⟨newToken accessTokenPrefix draw.access, newToken refreshTokenPrefix draw.refresh⟩
  (db.createSession
    { id := draw.sessionID, userID, accessHash := c.tokenDigest tokens.accessToken,
      refreshHash := c.tokenDigest tokens.refreshToken, previousRefreshHashes := [],
      accessExpiresAt := db.now + c.accessTokenTTL, refreshExpiresAt := db.now + refreshTTL,
      revoked := false }, tokens)

structure RegisterInput where
  email : String
  password : String
  displayName : String
  organization : String

def handleRegister (c : Config) (db : Database text) (input : RegisterInput) (draw : Draw) :
    Except Refusal (Database text × SessionTokens) := do
  let email ← (normalizeEmail text input.email).mapError (⟨400, "EMAIL_INVALID", ·⟩)
  refuseIf (c.oidcConfigured ∧ db.ssoEnforcedForEmail email) ssoRequired
  (validatePassword input.password).mapError (⟨400, "PASSWORD_INVALID", ·⟩)
  let displayName := text.trim input.displayName
  refuseIf (displayName = "" ∨ 200 < displayName.utf8ByteSize)
    ⟨400, "DISPLAY_NAME_INVALID", "display name is required and must be at most 200 characters"⟩
  let organizationName := text.trim input.organization
  let organizationName :=
    if organizationName = "" then displayName ++ "'s organization" else organizationName
  refuseIf (200 < organizationName.utf8ByteSize)
    ⟨400, "ORGANIZATION_INVALID", "organization name is too long"⟩
  let passwordHash ← orRefuse (c.hashPassword draw.salt input.password)
    ⟨400, "PASSWORD_INVALID", "password pepper is not configured"⟩
  let db' ← orRefuse (db.register draw.userID email passwordHash displayName draw.organizationID)
    ⟨409, "EMAIL_EXISTS", "an account with this email already exists; log in instead"⟩
  return issueSession c db' draw.userID c.refreshTokenTTL draw

def invalidCredentials : Refusal :=
  ⟨401, "INVALID_CREDENTIALS", "email or password is incorrect"⟩

def handleLogin (c : Config) (db : Database text) (email password : String) (remember : Bool)
    (draw : Draw) : Except Refusal (Database text × SessionTokens) := do
  let email ← (normalizeEmail text email).mapError fun _ => invalidCredentials
  refuseIf (1024 < password.utf8ByteSize) invalidCredentials
  refuseIf (c.oidcConfigured ∧ db.ssoEnforcedForEmail email) ssoRequired
  let user ← orRefuse (db.users.byEmail email) invalidCredentials
  refuseIf (user.disabled ∨ user.passwordHash = "" ∨
    c.verifyPassword password user.passwordHash = false) invalidCredentials
  let refreshTTL := if remember then c.refreshTokenTTL else c.shortRefreshTokenTTL
  return issueSession c db user.id refreshTTL draw

def handleRefresh (c : Config) (db : Database text) (refreshToken : String) (draw : Draw) :
    Database text × Except Refusal SessionTokens :=
  let refreshToken := text.trim refreshToken
  let invalid : Refusal :=
    ⟨401, "INVALID_REFRESH_TOKEN", "refresh token is invalid or expired"⟩
  if refreshToken.utf8ByteSize < refreshTokenPrefix.utf8ByteSize + 20 then (db, .error invalid)
  else
    let tokens : SessionTokens :=
      ⟨newToken accessTokenPrefix draw.access, newToken refreshTokenPrefix draw.refresh⟩
    let (db', result) := db.rotateSession (c.tokenDigest refreshToken)
      (c.tokenDigest tokens.accessToken) (c.tokenDigest tokens.refreshToken)
      (db.now + c.accessTokenTTL) (db.now + c.refreshTokenTTL)
    (db', match result with
      | .rotated _ => .ok tokens
      | .reused | .invalid => .error invalid)

def handleMemberAdd (c : Config) (db : Database text) (request : Request)
    (organizationID email : String) (role : Role) (seated : Bool) :
    Except Refusal (Database text) := do
  let _ ← requireOrganization c db request organizationID .admin "administration"
  let invalid : Refusal :=
    ⟨400, "MEMBER_INVALID", "a valid non-owner member email and role are required"⟩
  let email ← (normalizeEmail text email).mapError fun _ => invalid
  refuseIf (role = .owner) invalid
  let user ← orRefuse ((db.users.byEmail email).filter (!·.disabled))
    ⟨404, "USER_NOT_FOUND", "user account was not found"⟩
  refuseIf (db.memberRole organizationID user.id = some .owner)
    ⟨409, "OWNER_ROLE_IMMUTABLE",
      "organization owner role cannot be changed through the member endpoint"⟩
  refuseIf (db.memberRole organizationID user.id = none ∧ seated = false)
    ⟨402, "SEATS_EXCEEDED",
      "seat count must cover every organization member; purchase more seats before adding members"⟩
  return db.addMember organizationID user.id role

structure KeyInput where
  name : String
  scopes : List String
  expiresAt : Option Nat

def handleAPIKeyCreate (c : Config) (db : Database text) (request : Request)
    (organizationID : String) (input : KeyInput) (draw : Draw) :
    Except Refusal (Database text × String) := do
  let principal ← requireOrganization c db request organizationID .admin "administration"
  let name := text.trim input.name
  refuseIf (name = "" ∨ 200 < name.utf8ByteSize ∨ validScopes input.scopes = false)
    ⟨400, "API_KEY_INVALID", "name and valid scopes are required"⟩
  refuseIf (input.expiresAt.any (· ≤ db.now + 3600))
    ⟨400, "API_KEY_EXPIRY_INVALID", "API key expiry must be more than one hour in the future"⟩
  let secret := newToken apiKeyPrefix draw.secret
  return (db.createAPIKey
    { id := draw.keyID, organizationID, userID := principal.userID, name,
      secretHash := c.tokenDigest secret, scopes := input.scopes, expiresAt := input.expiresAt,
      revoked := false }, secret)

def handleAPIKeyRevoke (c : Config) (db : Database text) (request : Request)
    (organizationID keyID : String) : Except Refusal (Database text) := do
  let _ ← requireOrganization c db request organizationID .admin "administration"
  orRefuse (db.revokeAPIKey organizationID keyID)
    ⟨404, "API_KEY_NOT_FOUND", "API key was not found or already revoked"⟩

section Keys

variable {c : Config} {db db' : Database text} {draw : Draw} {tokens : SessionTokens}

theorem createSession_apiKeys {session : SessionRow} :
    (db.createSession session).apiKeys = db.apiKeys := rfl

theorem register_apiKeys {userID email passwordHash displayName : String}
    (h : db.register userID email passwordHash displayName organizationID = some db') :
    db'.apiKeys = db.apiKeys := by
  unfold Database.register at h
  split_ifs at h
  obtain ⟨users, -, rfl⟩ := Option.map_eq_some_iff.mp h
  rfl

theorem handleRegister_apiKeys {input : RegisterInput}
    (h : handleRegister c db input draw = .ok (db', tokens)) : db'.apiKeys = db.apiKeys := by
  simp only [handleRegister, bind_ok, refuseIf_ok, orRefuse_ok] at h
  obtain ⟨email, -, -, -, -, -, -, -, -, -, hash, -, registered, hregister, hissue⟩ := h
  cases hissue
  exact createSession_apiKeys.trans (register_apiKeys hregister)

theorem handleLogin_apiKeys {email password : String} {remember : Bool}
    (h : handleLogin c db email password remember draw = .ok (db', tokens)) :
    db'.apiKeys = db.apiKeys := by
  simp only [handleLogin, bind_ok, refuseIf_ok, orRefuse_ok] at h
  obtain ⟨-, -, -, -, -, -, user, -, -, -, hissue⟩ := h
  cases hissue
  rfl

theorem rotateSession_apiKeys {refreshHash nextAccess nextRefresh : String} {access refresh : Nat} :
    (db.rotateSession refreshHash nextAccess nextRefresh access refresh).1.apiKeys =
      db.apiKeys := by
  unfold Database.rotateSession
  split
  · rfl
  · split <;> rfl

theorem handleRefresh_apiKeys {refreshToken : String} :
    (handleRefresh c db refreshToken draw).1.apiKeys = db.apiKeys := by
  unfold handleRefresh
  simp only
  split_ifs
  · rfl
  · exact rotateSession_apiKeys

theorem handleMemberAdd_apiKeys {email : String} {role : Role} {seated : Bool}
    (h : handleMemberAdd c db request organizationID email role seated = .ok db') :
    db'.apiKeys = db.apiKeys := by
  simp only [handleMemberAdd, bind_ok, refuseIf_ok, orRefuse_ok] at h
  obtain ⟨-, -, -, -, -, -, user, -, -, -, -, -, hadd⟩ := h
  cases hadd
  rfl

theorem handleAPIKeyCreate_ok {secret : String} {input : KeyInput}
    (h : handleAPIKeyCreate c db request organizationID input draw = .ok (db', secret)) :
    ∃ key : APIKeyRow, key.scopes = input.scopes ∧ key.secretHash = c.tokenDigest secret ∧
      db' = db.createAPIKey key := by
  simp only [handleAPIKeyCreate, bind_ok, refuseIf_ok] at h
  obtain ⟨principal, -, -, -, -, -, hcreate⟩ := h
  cases hcreate
  exact ⟨_, rfl, rfl, rfl⟩

theorem handleAPIKeyRevoke_ok {keyID : String}
    (h : handleAPIKeyRevoke c db request organizationID keyID = .ok db') :
    ∀ key ∈ db'.apiKeys, ∃ old ∈ db.apiKeys,
      key.secretHash = old.secretHash ∧ key.scopes = old.scopes := by
  simp only [handleAPIKeyRevoke, bind_ok, orRefuse_ok] at h
  obtain ⟨principal, -, hrevoke⟩ := h
  unfold Database.revokeAPIKey at hrevoke
  split_ifs at hrevoke
  cases hrevoke
  intro key hkey
  obtain ⟨old, hold, rfl⟩ := List.mem_map.mp hkey
  refine ⟨old, hold, ?_⟩
  split_ifs <;> exact ⟨rfl, rfl⟩

end Keys

end Shiftgate.Accounts
