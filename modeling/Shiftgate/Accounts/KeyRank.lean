import Shiftgate.Accounts.Admin
import Shiftgate.Accounts.Deactivation

/-! API keys and the standing of their creators. `requireOrganization` asks for the creator's role
at every request; `requireSCIM` looks at the key alone, so a provisioning key keeps the rank that
its creator had when it was minted. -/

namespace Shiftgate.Accounts.Keys

open Library List Option Database

variable {text : Text}

inductive Route where
  | organization (organizationID : String) (required : Role) (scope : String)
  | scim (planAllows : Bool)

def authorize (c : Config) (db : Database text) (request : Request) :
    Route → Except Refusal Principal
  | .organization organizationID required scope =>
    requireOrganization c db request organizationID required scope
  | .scim planAllows => requireSCIM c db request planAllows

def presentedKey (c : Config) (db : Database text) (request : Request) : Option APIKeyRow :=
  (parseBearer text c request.authorization).bind fun token =>
    if hasKind apiKeyPrefix token then db.authenticateAPIKey (c.tokenDigest token) else none

def Route.tenant (key : APIKeyRow) : Route → String
  | .organization organizationID .. => organizationID
  | .scim _ => key.organizationID

def Route.required : Route → Role
  | .organization _ required _ => required
  | .scim _ => .admin

def Route.scope : Route → String
  | .organization _ _ scope => scope
  | .scim _ => "scim"

def ranks (db : Database text) (organizationID userID : String) (required : Role) : Bool :=
  (db.memberRole organizationID userID).any (·.allows required)

/-- The key's creator may do now what the route does, and the key has a scope for it. -/
def WithinRank (db : Database text) (key : APIKeyRow) (route : Route) : Prop :=
  ranks db (route.tenant key) key.userID route.required = true ∧
    ∃ scope ∈ key.scopes, ∃ grant ∈ supportedScopes scope,
      grant.role.allows route.required = true ∧
        (grant.resource = "" ∨ grant.resource = route.scope)

/-- `removeMember` deletes a membership row, for which there is no route; `setActive` is the
directory's. -/
inductive Action where
  | register (input : RegisterInput) (draw : Draw)
  | login (email password : String) (remember : Bool) (draw : Draw)
  | federate (call : FederationCall)
  | addMember (request : Request) (organizationID email : String) (role : Role) (seated : Bool)
  | removeMember (organizationID userID : String)
  | setActive (organizationID userID : String) (active : Bool)
  | createKey (request : Request) (organizationID : String) (input : KeyInput) (draw : Draw)
  | revokeKey (request : Request) (organizationID keyID : String)
  | tick (seconds : Nat)
  | use (request : Request) (route : Route)

def after {ε : Type} (db : Database text) : Except ε (Database text) → Database text
  | .ok db' => db'
  | .error _ => db

def removeMember (db : Database text) (organizationID userID : String) : Database text :=
  { db with members := db.members.filter fun m =>
      ¬ (m.organization = organizationID ∧ m.user = userID) }

def step (c : Config) (db : Database text) : Action → Option (Database text)
  | .register input draw => some (after db ((handleRegister c db input draw).map (·.1)))
  | .login email password remember draw =>
    some (after db ((handleLogin c db email password remember draw).map (·.1)))
  | .federate call => some (after db ((Admin.federated db call).map (·.2)))
  | .addMember request organizationID email role seated =>
    some (after db (handleMemberAdd c db request organizationID email role seated))
  | .removeMember organizationID userID => some (removeMember db organizationID userID)
  | .setActive organizationID userID active =>
    some ((db.scimSetActive organizationID userID active).getD db)
  | .createKey request organizationID input draw =>
    if draw.keyID = "" then none
    else some (after db ((handleAPIKeyCreate c db request organizationID input draw).map (·.1)))
  | .revokeKey request organizationID keyID =>
    some (after db (handleAPIKeyRevoke c db request organizationID keyID))
  | .tick seconds => some { db with now := db.now + seconds }
  | .use _ _ => some db

def NeverOutranks (c : Config) (db : Database text) : Action → Prop
  | .use request route => ∀ key ∈ presentedKey c db request,
      ∀ principal, authorize c db request route = .ok principal → WithinRank db key route
  | _ => True

def provisions (db : Database text) (organizationID userID : String) : Bool :=
  db.apiKeys.any fun key => key.organizationID = organizationID && key.userID = userID &&
    !key.revoked && key.expiresAt.all (db.now < ·) && scopeAllows key.scopes .admin "scim"

/-- Nobody who has such a key loses the role of an administrator or the membership. -/
def careful (db : Database text) : Action → Bool
  | .addMember _ organizationID email role _ => role.allows .admin ||
      (db.users.byEmail (text.normalize email)).all fun user =>
        !provisions db organizationID user.id
  | .removeMember organizationID userID => !provisions db organizationID userID
  | _ => true

structure Backed (db : Database text) : Prop where
  ids : ∀ key ∈ db.apiKeys, key.id ≠ ""
  creators : ∀ organizationID userID, provisions db organizationID userID = true →
    ranks db organizationID userID .admin = true

variable {c : Config} {db db' : Database text} {organizationID userID : String}

theorem provisions_iff : provisions db organizationID userID = true ↔
    ∃ key ∈ db.apiKeys, key.organizationID = organizationID ∧ key.userID = userID ∧
      key.revoked = false ∧ key.expiresAt.all (db.now < ·) = true ∧
      scopeAllows key.scopes .admin "scim" = true := by
  simp [provisions, and_assoc]

theorem Backed.keep (h : Backed db) (hnow : db.now ≤ db'.now)
    (hkeys : ∀ key ∈ db'.apiKeys, ∃ old ∈ db.apiKeys,
      key = old ∨ key = { old with revoked := true })
    (hranks : ∀ organizationID userID, provisions db organizationID userID = true →
      ranks db organizationID userID .admin = true →
        ranks db' organizationID userID .admin = true) : Backed db' := by
  constructor
  · intro key hkey
    obtain ⟨old, hold, rfl | rfl⟩ := hkeys key hkey
    · exact h.ids key hold
    · exact h.ids old hold
  · intro organizationID userID hprovisions
    obtain ⟨key, hkey, horganization, huser, hrevoked, hexpires, hscopes⟩ :=
      provisions_iff.mp hprovisions
    obtain ⟨old, hold, rfl | rfl⟩ := hkeys key hkey
    · have hbefore : provisions db organizationID userID = true := by
        refine provisions_iff.mpr ⟨key, hold, horganization, huser, hrevoked, ?_, hscopes⟩
        cases hat : key.expiresAt with
        | none => rfl
        | some at_ =>
          rw [hat] at hexpires
          simp only [all_some, decide_eq_true_eq] at hexpires ⊢
          omega
      exact hranks _ _ hbefore (h.creators _ _ hbefore)
    · cases hrevoked

structure Extends (db db' : Database text) : Prop where
  now : db'.now = db.now
  apiKeys : db'.apiKeys = db.apiKeys
  members : ∃ joined, db'.members = db.members ++ joined

theorem Extends.of_same (hnow : db'.now = db.now) (hkeys : db'.apiKeys = db.apiKeys)
    (hmembers : db'.members = db.members) : Extends db db' :=
  ⟨hnow, hkeys, [], by simp [hmembers]⟩

theorem memberRole_append {joined : List Member} (h : db'.members = db.members ++ joined) :
    db'.memberRole organizationID userID = (db.memberRole organizationID userID).or
      ((joined.find? fun m => m.organization = organizationID ∧ m.user = userID).map (·.role)) := by
  rw [memberRole, h, find?_append, map_or, memberRole]

theorem Backed.extend (h : Backed db) (he : Extends db db') : Backed db' := by
  refine h.keep he.now.ge (fun key hkey => ⟨key, he.apiKeys ▸ hkey, .inl rfl⟩) ?_
  intro organizationID userID _ hranks
  obtain ⟨joined, hjoined⟩ := he.members
  rw [ranks, memberRole_append hjoined]
  cases hrole : db.memberRole organizationID userID with
  | none => simp [ranks, hrole] at hranks
  | some role => simpa [ranks, hrole] using hranks

variable {tokens : SessionTokens} {required : Role} {request : Request} {principal : Principal}

theorem handleRegister_extends {input : RegisterInput} {draw : Draw}
    (h : handleRegister c db input draw = .ok (db', tokens)) : Extends db db' := by
  simp only [handleRegister, bind_ok, refuseIf_ok, orRefuse_ok] at h
  obtain ⟨email, -, -, -, -, -, -, -, -, -, hash, -, registered, hregister, hissue⟩ := h
  cases hissue
  unfold register at hregister
  split_ifs at hregister
  obtain ⟨users, -, rfl⟩ := map_eq_some_iff.mp hregister
  exact ⟨rfl, rfl, _, rfl⟩

theorem handleLogin_extends {email password : String} {remember : Bool} {draw : Draw}
    (h : handleLogin c db email password remember draw = .ok (db', tokens)) : Extends db db' := by
  simp only [handleLogin, bind_ok, refuseIf_ok, orRefuse_ok] at h
  obtain ⟨-, -, -, -, -, -, user, -, -, -, hissue⟩ := h
  cases hissue
  exact .of_same rfl rfl rfl

theorem federated_extends {call : FederationCall} {user : UserRow}
    (h : Admin.federated db call = .ok (user, db')) : Extends db db' := by
  obtain ⟨hnow, hkeys, -, hmembers⟩ := Admin.federated_keeps h
  exact ⟨hnow, hkeys, hmembers⟩

theorem Backed.after {ε α : Type} {result : Except ε α} {f : α → Database text} (h : Backed db)
    (hok : ∀ a, result = .ok a → Backed (f a)) : Backed (after db (result.map f)) := by
  cases result with
  | error e => exact h
  | ok a => exact hok a rfl

theorem memberRole_removeMember {organization user : String} :
    (removeMember db organization user).memberRole organizationID userID =
      if organization = organizationID ∧ user = userID then none
      else db.memberRole organizationID userID := by
  simp only [memberRole, removeMember, find?_filter]
  split_ifs with hsame
  · obtain ⟨rfl, rfl⟩ := hsame
    rw [find?_eq_none.mpr, map_none]
    intro m _
    by_cases hm : m.organization = organization ∧ m.user = user <;> simp [hm]
  · congr 2
    funext m
    by_cases hm : m.organization = organizationID ∧ m.user = userID
    · have hother : ¬ (m.organization = organization ∧ m.user = user) := by
        rintro ⟨rfl, rfl⟩
        exact hsame hm
      rw [decide_eq_true hm, decide_eq_true hother]
      rfl
    · simp [hm]

theorem ranks_addMember {organization user : String} {role : Role} :
    ranks (db.addMember organization user role) organizationID userID required =
      if organization = organizationID ∧ user = userID then role.allows required
      else ranks db organizationID userID required := by
  have happend : (db.addMember organization user role).members =
      (removeMember db organization user).members ++ [⟨organization, user, role⟩] := rfl
  rw [ranks, memberRole_append happend, memberRole_removeMember]
  split_ifs with hsame
  · simp [hsame]
  · simp [hsame, ranks]

theorem requireOrganization_ok {scope : String}
    (h : requireOrganization c db request organizationID required scope = .ok principal) :
    ∃ caller, requireAuth c db request = .ok caller ∧ principal.userID = caller.userID ∧
      ranks db organizationID caller.userID required = true ∧
      (caller.apiKeyID ≠ "" → scopeAllows caller.scopes required scope = true) := by
  simp only [requireOrganization, bind_ok, refuseIf_ok, orRefuse_ok] at h
  obtain ⟨caller, hauth, -, -, -, -, role, hrole, -, hallows, -, hscope, hprincipal⟩ := h
  cases hprincipal
  refine ⟨caller, hauth, rfl, ?_, fun hkey => ?_⟩
  · simpa [ranks, hrole] using hallows
  · by_contra hno
    exact hscope ⟨hkey, by simpa using hno⟩

theorem requireSCIM_ok {planAllows : Bool}
    (h : requireSCIM c db request planAllows = .ok principal) :
    requireAuth c db request = .ok principal ∧
      scopeAllows principal.scopes .admin "scim" = true := by
  simp only [requireSCIM, bind_ok, refuseIf_ok] at h
  obtain ⟨caller, hauth, -, -, -, hscope, -, -, hprincipal⟩ := h
  cases hprincipal
  exact ⟨hauth, by simpa using hscope⟩

theorem requireAuth_key {key : APIKeyRow} (hkey : presentedKey c db request = some key)
    (h : requireAuth c db request = .ok principal) :
    principal.userID = key.userID ∧ principal.organizationID = key.organizationID ∧
      principal.apiKeyID = key.id ∧ principal.scopes = key.scopes := by
  obtain ⟨token, htoken, hfound⟩ := bind_eq_some_iff.mp hkey
  have hkind : hasKind apiKeyPrefix token = true := by
    by_contra hno
    simp [hno] at hfound
  rw [if_pos hkind] at hfound
  unfold requireAuth at h
  simp only [authenticate, htoken, hkind, if_true, hfound] at h
  split_ifs at h
  cases h
  exact ⟨rfl, rfl, rfl, rfl⟩

theorem presentedKey_live {key : APIKeyRow} (h : presentedKey c db request = some key) :
    key ∈ db.apiKeys ∧ key.revoked = false ∧ key.expiresAt.all (db.now < ·) = true := by
  obtain ⟨token, -, hfound⟩ := bind_eq_some_iff.mp h
  split_ifs at hfound
  have hlive := find?_some hfound
  simp only [decide_eq_true_eq] at hlive
  exact ⟨mem_of_find?_eq_some hfound, hlive.2.1, hlive.2.2.1⟩

theorem scopeAllows_iff {scopes : List String} {resource : String} :
    scopeAllows scopes required resource = true ↔ ∃ scope ∈ scopes,
      ∃ grant ∈ supportedScopes scope, grant.role.allows required = true ∧
        (grant.resource = "" ∨ grant.resource = resource) := by
  simp [scopeAllows, Option.any_eq_true]

theorem Backed.use (h : Backed db) (request : Request) (route : Route) :
    NeverOutranks c db (.use request route) := by
  intro key hkey principal hauthorized
  obtain ⟨hmem, hrevoked, hexpires⟩ := presentedKey_live hkey
  cases route with
  | organization organizationID required scope =>
    obtain ⟨caller, hauth, -, hranks, hscope⟩ := requireOrganization_ok hauthorized
    obtain ⟨huser, -, hid, hscopes⟩ := requireAuth_key hkey hauth
    rw [huser] at hranks
    rw [hid, hscopes] at hscope
    exact ⟨hranks, scopeAllows_iff.mp (hscope (h.ids key hmem))⟩
  | scim planAllows =>
    obtain ⟨hauth, hscope⟩ := requireSCIM_ok hauthorized
    obtain ⟨-, -, -, hscopes⟩ := requireAuth_key hkey hauth
    rw [hscopes] at hscope
    have hprovisions := provisions_iff.mpr
      ⟨key, hmem, rfl, rfl, hrevoked, hexpires, hscope⟩
    exact ⟨h.creators _ _ hprovisions, scopeAllows_iff.mp hscope⟩

theorem Backed.createKey {input : KeyInput} {draw : Draw} {secret : String} (h : Backed db)
    (hdraw : draw.keyID ≠ "")
    (hok : handleAPIKeyCreate c db request organizationID input draw = .ok (db', secret)) :
    Backed db' := by
  simp only [handleAPIKeyCreate, bind_ok, refuseIf_ok] at hok
  obtain ⟨principal, hgate, -, -, -, -, hcreate⟩ := hok
  cases hcreate
  obtain ⟨caller, -, huser, hranks, -⟩ := requireOrganization_ok hgate
  constructor
  · intro key hkey
    rcases mem_append.mp hkey with hold | hnew
    · exact h.ids key hold
    · rw [mem_singleton.mp hnew]
      exact hdraw
  · intro organization user hprovisions
    obtain ⟨key, hkey, horganization, hkeyUser, hlive⟩ := provisions_iff.mp hprovisions
    rcases mem_append.mp hkey with hold | hnew
    · exact h.creators _ _ (provisions_iff.mpr ⟨key, hold, horganization, hkeyUser, hlive⟩)
    · -- The gate of the key's creation asked for an administrator.
      rw [mem_singleton.mp hnew] at horganization hkeyUser
      rw [← horganization, ← hkeyUser, huser]
      exact hranks

theorem Backed.step {a : Action} (h : Backed db) (hcareful : careful db a = true)
    (hstep : step c db a = some db') : Backed db' := by
  cases a with
  | register input draw =>
    cases hstep
    exact h.after fun _ hok => h.extend (handleRegister_extends hok)
  | login email password remember draw =>
    cases hstep
    exact h.after fun _ hok => h.extend (handleLogin_extends hok)
  | federate call =>
    cases hstep
    exact h.after fun _ hok => h.extend (federated_extends hok)
  | addMember request organizationID email role seated =>
    cases hstep
    cases hok : handleMemberAdd c db request organizationID email role seated with
    | error e => exact h
    | ok added =>
      simp only [handleMemberAdd, bind_ok, refuseIf_ok, orRefuse_ok] at hok
      obtain ⟨-, -, address, haddress, -, -, user, huser, -, -, -, -, hadd⟩ := hok
      cases hadd
      have hnormal : address = text.normalize email := by
        simp only [normalizeEmail] at haddress
        split at haddress
        · cases haddress
        · exact (Except.ok.inj haddress).symm
      have hfound : db.users.byEmail (text.normalize email) = some user := by
        rw [← hnormal]
        exact (filter_eq_some_iff.mp huser).1
      refine h.keep le_rfl (fun key hkey => ⟨key, hkey, .inl rfl⟩) ?_
      intro organization creator hprovisions hranks
      show ranks (db.addMember organizationID user.id role) organization creator .admin = true
      rw [ranks_addMember]
      split_ifs with hsame
      · obtain ⟨rfl, rfl⟩ := hsame
        simpa [careful, hfound, hprovisions] using hcareful
      · exact hranks
  | removeMember organizationID userID =>
    cases hstep
    refine h.keep le_rfl (fun key hkey => ⟨key, hkey, .inl rfl⟩) ?_
    intro organization creator hprovisions hranks
    rw [ranks, memberRole_removeMember, if_neg]
    · exact hranks
    · rintro ⟨rfl, rfl⟩
      simp [careful, hprovisions] at hcareful
  | setActive organizationID userID active =>
    cases hstep
    cases hresult : db.scimSetActive organizationID userID active with
    | none => exact h
    | some changed =>
      obtain ⟨-, users, -, rfl⟩ := scimSetActive_some hresult
      exact h.extend (.of_same rfl rfl rfl)
  | createKey request organizationID input draw =>
    simp only [Keys.step] at hstep
    split_ifs at hstep with hdraw
    cases hstep
    exact h.after fun _ hok => h.createKey hdraw hok
  | revokeKey request organizationID keyID =>
    cases hstep
    cases hok : handleAPIKeyRevoke c db request organizationID keyID with
    | error e => exact h
    | ok revoked =>
      simp only [handleAPIKeyRevoke, bind_ok, orRefuse_ok] at hok
      obtain ⟨-, -, hrevoke⟩ := hok
      unfold revokeAPIKey at hrevoke
      split_ifs at hrevoke
      cases hrevoke
      refine h.keep le_rfl (fun key hkey => ?_) fun _ _ _ hranks => hranks
      obtain ⟨old, hold, rfl⟩ := List.mem_map.mp hkey
      refine ⟨old, hold, ?_⟩
      split_ifs
      · exact .inr rfl
      · exact .inl rfl
  | tick seconds =>
    cases hstep
    exact h.keep (Nat.le_add_right _ _) (fun key hkey => ⟨key, hkey, .inl rfl⟩)
      fun _ _ _ hranks => hranks
  | use request route =>
    cases hstep
    exact h

theorem Backed.neverOutranks (h : Backed db) (a : Action) : NeverOutranks c db a := by
  cases a with
  | use request route => exact h.use request route
  | _ => trivial

/-- In every history in which nobody who has a live key for provisioning is demoted or removed, no
use of a key outranks its creator. -/
theorem keys_never_outrank_creators {actions : List Action} (hnew : db.apiKeys = [])
    (hcareful : Meets (step c) (fun db a => careful db a = true) db actions) :
    Meets (step c) (NeverOutranks c) db actions := by
  have hbacked : Backed db := by
    constructor
    · simp [hnew]
    · simp [provisions, hnew]
  exact .of_invariant Backed (fun _ _ _ h hc hs => h.step hc hs)
    (fun _ a h _ => h.neverOutranks a) hbacked hcareful

def draw (name : String) : Draw :=
  { Admin.sampleDraw with
    userID := name, organizationID := name, sessionID := name, keyID := name,
    access := "0123456789a" ++ name, refresh := "0123456789a" ++ name,
    secret := "0123456789a" ++ name }

def asSession (name : String) : Request := ⟨"/", "bearer shift_at_0123456789a" ++ name, ""⟩

def asKey (name : String) : Request := ⟨"/", "bearer shift_ak_0123456789a" ++ name, ""⟩

/-- `a` makes `b` an administrator, who mints a key for provisioning. -/
def minted : List Action :=
  [.register ⟨"a@x.y", "password1234", "A", ""⟩ (draw "a"),
    .register ⟨"b@x.y", "password1234", "B", ""⟩ (draw "b"),
    .addMember (asSession "a") "a" "b@x.y" .admin true,
    .createKey (asSession "b") "a" ⟨"directory", ["scim"], none⟩ (draw "b")]

def revokedFirst : List Action :=
  minted ++ [.use (asKey "b") (.scim true), .revokeKey (asSession "a") "a" "b",
    .addMember (asSession "a") "a" "b@x.y" .viewer true, .use (asKey "b") (.scim true)]

def demoted : List Action := minted ++ [.addMember (asSession "a") "a" "b@x.y" .viewer true]

theorem keys_never_outrank_creators_sample :
    Meets (step Admin.sampleConfig) (NeverOutranks Admin.sampleConfig)
      (emptyDatabase : Database plainText) revokedFirst :=
  keys_never_outrank_creators rfl (by decide)

/-- The key of `b`, who is a viewer now, still provisions. -/
theorem demoted_creator_provisions : ∃ db : Database plainText,
    exec (step Admin.sampleConfig) emptyDatabase demoted = some db ∧
    ¬ NeverOutranks Admin.sampleConfig db (.use (asKey "b") (.scim true)) := by
  obtain ⟨db, hrun, key, hkey, hrank, principal, hok, -⟩ : ∃ db : Database plainText,
      exec (step Admin.sampleConfig) emptyDatabase demoted = some db ∧
      ∃ key, presentedKey Admin.sampleConfig db (asKey "b") = some key ∧
        ranks db key.organizationID key.userID .admin = false ∧
        ∃ principal, authorize Admin.sampleConfig db (asKey "b") (.scim true) = .ok principal ∧
          True := by decide
  refine ⟨db, hrun, fun hnever => ?_⟩
  have hwithin := (hnever key hkey principal hok).1
  simp [Route.tenant, Route.required, hrank] at hwithin

end Shiftgate.Accounts.Keys
