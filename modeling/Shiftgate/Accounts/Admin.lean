import Shiftgate.Accounts.Gates
import Shiftgate.Accounts.Links

/-! Tenants before the admin gate. A tenant gets credentials from the routes that hand them out and
presents them on any route; the platform's own keys are in the database from the start and are not
handed out. -/

namespace Shiftgate.Accounts.Admin

open Library List

variable {text : Text}

structure System (text : Text) where
  db : Database text
  held : List String

inductive Action where
  | register (input : RegisterInput) (draw : Draw)
  | login (email password : String) (remember : Bool) (draw : Draw)
  | refresh (refreshToken : String) (draw : Draw)
  | federate (call : FederationCall) (draw : Draw)
  | addMember (request : Request) (organizationID email : String) (role : Role) (seated : Bool)
  | createKey (request : Request) (organizationID : String) (input : KeyInput) (draw : Draw)
  | revokeKey (request : Request) (organizationID keyID : String)
  | tick (seconds : Nat)

variable (c : Config)

def Unseen (db : Database text) (token : String) : Prop :=
  token ≠ text.trim c.metricsToken ∧ ∀ key ∈ db.apiKeys, key.secretHash ≠ c.tokenDigest token

instance (db : Database text) (token : String) : Decidable (Unseen c db token) :=
  inferInstanceAs (Decidable (_ ∧ ∀ key ∈ db.apiKeys, _))

def System.Presents (s : System text) (request : Request) : Prop :=
  (∀ token ∈ parseBearer text c request.authorization, token ∈ s.held) ∧
    text.trim request.metricsToken ≠ text.trim c.metricsToken

instance (s : System text) (request : Request) : Decidable (s.Presents c request) :=
  inferInstanceAs (Decidable ((∀ token ∈ parseBearer text c request.authorization, _) ∧ _))

def System.give (s : System text) (db : Database text) (tokens : List String) :
    Option (System text) :=
  if ∀ token ∈ tokens, Unseen c s.db token then some ⟨db, s.held ++ tokens⟩ else none

def System.giveSession (s : System text) :
    Except Refusal (Database text × SessionTokens) → Option (System text)
  | .ok (db, tokens) => s.give c db [tokens.accessToken, tokens.refreshToken]
  | .error _ => some s

def federated (db : Database text) :
    FederationCall → Except FederateError (UserRow × Database text)
  | .sso issuer subject email displayName newID full =>
    db.federateSSOLink issuer subject email displayName newID full
  | .gitHub identity userID organizationID => db.federateGitHub identity userID organizationID

def System.step (s : System text) : Action → Option (System text)
  | .register input draw => s.giveSession c (handleRegister c s.db input draw)
  | .login email password remember draw =>
    s.giveSession c (handleLogin c s.db email password remember draw)
  | .refresh refreshToken draw =>
    let (db, result) := handleRefresh c s.db refreshToken draw
    match result with
    | .ok tokens => s.give c db [tokens.accessToken, tokens.refreshToken]
    | .error _ => some { s with db }
  | .federate call draw =>
    match federated s.db call with
    | .ok (user, db) => s.giveSession c (.ok (issueSession c db user.id c.refreshTokenTTL draw))
    | .error _ => some s
  | .addMember request organizationID email role seated =>
    if s.Presents c request then
      match handleMemberAdd c s.db request organizationID email role seated with
      | .ok db => some { s with db }
      | .error _ => some s
    else none
  | .createKey request organizationID input draw =>
    if s.Presents c request then
      match handleAPIKeyCreate c s.db request organizationID input draw with
      | .ok (db, secret) => s.give c db [secret]
      | .error _ => some s
    else none
  | .revokeKey request organizationID keyID =>
    if s.Presents c request then
      match handleAPIKeyRevoke c s.db request organizationID keyID with
      | .ok db => some { s with db }
      | .error _ => some s
    else none
  | .tick seconds => some { s with db := { s.db with now := s.db.now + seconds } }

def initial (db : Database text) : System text := ⟨db, []⟩

variable {c} {s t : System text} {a : Action}

inductive Change (c : Config) (s : System text) : Action → System text → Prop
  | gives {a : Action} {db : Database text} {tokens : List String}
      (hkeys : db.apiKeys = s.db.apiKeys) (hnew : ∀ token ∈ tokens, Unseen c s.db token) :
      Change c s a ⟨db, s.held ++ tokens⟩
  | mints {request : Request} {organizationID : String} {input : KeyInput} {draw : Draw}
      {key : APIKeyRow} {secret : String} (hscopes : key.scopes = input.scopes)
      (hnew : Unseen c s.db secret) :
      Change c s (.createKey request organizationID input draw)
        ⟨s.db.createAPIKey key, s.held ++ [secret]⟩
  | keeps {a : Action} {db : Database text}
      (hkeys : ∀ key ∈ db.apiKeys, ∃ old ∈ s.db.apiKeys,
        key.secretHash = old.secretHash ∧ key.scopes = old.scopes) :
      Change c s a ⟨db, s.held⟩

variable {db : Database text} {request : Request} {principal : Principal}

theorem Change.same (hkeys : db.apiKeys = s.db.apiKeys) : Change c s a ⟨db, s.held⟩ :=
  .keeps fun key hkey => ⟨key, hkeys ▸ hkey, rfl, rfl⟩

theorem give_change {tokens : List String} (hkeys : db.apiKeys = s.db.apiKeys)
    (h : s.give c db tokens = some t) : Change c s a t := by
  unfold System.give at h
  split_ifs at h with hnew
  cases h
  exact .gives hkeys hnew

theorem giveSession_change {result : Except Refusal (Database text × SessionTokens)}
    (hkeys : ∀ db tokens, result = .ok (db, tokens) → db.apiKeys = s.db.apiKeys)
    (h : s.giveSession c result = some t) : Change c s a t := by
  unfold System.giveSession at h
  split at h
  · exact give_change (hkeys _ _ rfl) h
  · cases h
    exact .same rfl

theorem federated_keeps {db' : Database text} {call : FederationCall} {user : UserRow}
    (h : federated db call = .ok (user, db')) :
    db'.now = db.now ∧ db'.apiKeys = db.apiKeys ∧ user.disabled = false ∧
      ∃ joined, db'.members = db.members ++ joined := by
  cases call with
  | sso issuer subject email displayName newID full =>
    simp only [federated, Database.federateSSOLink] at h
    split at h
    · cases h
    · split_ifs at h with hoff
      cases h
      simp only [Database.ensureSSOMemberships]
      split_ifs
      · exact ⟨rfl, rfl, by simpa using hoff, [], by simp⟩
      · exact ⟨rfl, rfl, by simpa using hoff, _, rfl⟩
  | gitHub identity userID organizationID =>
    simp only [federated, Database.federateGitHub] at h
    split at h
    · cases h
    · split_ifs at h with hoff
      · cases h
        exact ⟨rfl, rfl, by simpa using hoff, _, rfl⟩
      · cases h
        exact ⟨rfl, rfl, by simpa using hoff, [], by simp⟩

theorem step_change (h : s.step c a = some t) : Change c s a t := by
  cases a with
  | register input draw => exact giveSession_change (fun _ _ => handleRegister_apiKeys) h
  | login email password remember draw =>
    exact giveSession_change (fun _ _ => handleLogin_apiKeys) h
  | refresh refreshToken draw =>
    simp only [System.step] at h
    split at h
    · exact give_change handleRefresh_apiKeys h
    · cases h
      exact .same handleRefresh_apiKeys
  | federate call draw =>
    simp only [System.step] at h
    split at h
    · rename_i user db hok
      refine giveSession_change (fun db' tokens hissue => ?_) h
      cases hissue
      exact createSession_apiKeys.trans (federated_keeps hok).2.1
    · cases h
      exact .same rfl
  | addMember request organizationID email role seated =>
    simp only [System.step] at h
    split_ifs at h
    split at h
    · rename_i db hok
      cases h
      exact .same (handleMemberAdd_apiKeys hok)
    · cases h
      exact .same rfl
  | createKey request organizationID input draw =>
    simp only [System.step] at h
    split_ifs at h
    split at h
    · rename_i db secret hok
      obtain ⟨key, hscopes, -, rfl⟩ := handleAPIKeyCreate_ok hok
      unfold System.give at h
      split_ifs at h with hnew
      cases h
      exact .mints hscopes (hnew secret (mem_singleton.mpr rfl))
    · cases h
      exact .same rfl
  | revokeKey request organizationID keyID =>
    simp only [System.step] at h
    split_ifs at h
    split at h
    · rename_i db hok
      cases h
      exact .keeps (handleAPIKeyRevoke_ok hok)
    · cases h
      exact .same rfl
  | tick seconds =>
    cases h
    exact .same rfl

def NoAdminScope (_ : System text) : Action → Prop
  | .createKey _ _ input _ => "admin" ∉ input.scopes
  | _ => True

instance (s : System text) : ∀ a, Decidable (NoAdminScope s a)
  | .createKey _ _ input _ => inferInstanceAs (Decidable ("admin" ∉ input.scopes))
  | .register .. | .login .. | .refresh .. | .federate .. | .addMember .. | .revokeKey ..
  | .tick _ => isTrue trivial

structure Powerless (c : Config) (s : System text) : Prop where
  metrics : ∀ token ∈ s.held, token ≠ text.trim c.metricsToken
  keys : ∀ token ∈ s.held, ∀ key ∈ s.db.apiKeys, key.secretHash = c.tokenDigest token →
    "admin" ∉ key.scopes

theorem Powerless.step (hs : Powerless c s) (hcond : NoAdminScope s a)
    (h : s.step c a = some t) : Powerless c t := by
  cases step_change h with
  | gives hkeys hnew =>
    constructor
    · intro token htoken
      rcases mem_append.mp htoken with hold | hnewer
      · exact hs.metrics token hold
      · exact (hnew token hnewer).1
    · intro token htoken key hkey hhash
      rw [hkeys] at hkey
      rcases mem_append.mp htoken with hold | hnewer
      · exact hs.keys token hold key hkey hhash
      · exact absurd hhash ((hnew token hnewer).2 key hkey)
  | @mints request organizationID input draw minted secret hscopes hnew =>
    constructor
    · intro token htoken
      rcases mem_append.mp htoken with hold | hnewer
      · exact hs.metrics token hold
      · rw [mem_singleton.mp hnewer]
        exact hnew.1
    · intro token htoken key hkey hhash
      rcases mem_append.mp hkey with hkey | hminted
      · rcases mem_append.mp htoken with hold | hnewer
        · exact hs.keys token hold key hkey hhash
        · rw [mem_singleton.mp hnewer] at hhash
          exact absurd hhash (hnew.2 key hkey)
      · rw [mem_singleton.mp hminted, hscopes]
        exact hcond
  | keeps hkeys =>
    refine ⟨hs.metrics, fun token htoken key hkey hhash => ?_⟩
    obtain ⟨old, hold, hsame, hscopes⟩ := hkeys key hkey
    rw [hscopes]
    exact hs.keys token htoken old hold (hsame.symm.trans hhash)

theorem initial_powerless (db : Database text) : Powerless c (initial db) :=
  ⟨fun _ h => absurd h not_mem_nil, fun _ h => absurd h not_mem_nil⟩

theorem authenticate_apiKey (h : authenticate c db request = .ok principal)
    (hkey : principal.apiKeyID ≠ "") :
    ∃ token ∈ parseBearer text c request.authorization, ∃ key ∈ db.apiKeys,
      key.secretHash = c.tokenDigest token ∧ principal.scopes = key.scopes := by
  unfold authenticate at h
  split at h
  · cases h
  · rename_i token htoken
    split_ifs at h
    · split at h
      · rename_i key hfound
        cases h
        have hhash := find?_some hfound
        simp only [decide_eq_true_eq] at hhash
        exact ⟨token, htoken, key, mem_of_find?_eq_some hfound, hhash.1, rfl⟩
      · cases h
    · split at h
      · cases h
        exact absurd rfl hkey
      · cases h

theorem Powerless.not_platformAdmin (hs : Powerless c s) (hpresents : s.Presents c request)
    (hauth : authenticate c s.db request = .ok principal) :
    platformAdmin text c request principal = false := by
  obtain ⟨hbearer, hheader⟩ := hpresents
  rw [platformAdmin, Bool.or_eq_false_iff]
  constructor
  · rw [Bool.and_eq_false_imp]
    intro hkey
    obtain ⟨token, htoken, key, hmem, hhash, hscopes⟩ :=
      authenticate_apiKey hauth (of_decide_eq_true hkey)
    rw [Bool.eq_false_iff]
    intro hallows
    rw [scopeAllows_administration, hscopes] at hallows
    exact hs.keys token (hbearer token htoken) key hmem hhash hallows
  · rw [presentedMetricsToken]
    simp only [Bool.and_eq_false_imp, decide_eq_true_eq, decide_eq_false_iff_not]
    intro _
    cases hparse : parseBearer text c request.authorization with
    | none => exact hheader
    | some token => exact hs.metrics token (hbearer token hparse)

def sampleConfig : Config where
  fields value := ((value.toList.splitOn ' ').filter (· ≠ [])).map String.ofList
  tokenDigest := id
  hashPassword _ password := some password
  verifyPassword password hash := password == hash
  metricsToken := "operator"
  oidcConfigured := false
  accessTokenTTL := 900
  refreshTokenTTL := 86400
  shortRefreshTokenTTL := 3600

def sampleDraw : Draw :=
  ⟨"user", "organization", "session", "key", "salt", "0123456789ab", "0123456789ab", "0123456789ab"⟩

def signUpAndMint (scopes : List String) : List Action :=
  [.register ⟨"a@x.y", "password1234", "A", ""⟩ sampleDraw,
    .createKey ⟨"/v1/organizations/organization/api-keys", "bearer shift_at_0123456789ab", ""⟩
      "organization" ⟨"ci", scopes, none⟩ sampleDraw]

def scoreboardRequest : Request :=
  ⟨"/v1/admin/scoreboard", "bearer shift_ak_0123456789ab", ""⟩

end Shiftgate.Accounts.Admin
