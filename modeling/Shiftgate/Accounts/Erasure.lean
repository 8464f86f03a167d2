import Shiftgate.Accounts.Admin
import Shiftgate.Accounts.Deactivation

/-! Erasure of an account (`internal/database/erasure.go`), and what any later operation can do with
the row that stays. Every operation here is one call, taken whole. -/

namespace Shiftgate.Accounts

open Library List Option Admin Database

variable {text : Text}

def erasedEmailDomain : String := "erased.invalid"

def erasedPasswordHash : String := "!erased"

def hasErasedDomain (email : String) : Bool :=
  ("@" ++ erasedEmailDomain).toList.isSuffixOf email.toList

structure ErasureReport where
  userID : String
  emailAnonymized : Bool
  sessionsRemoved : Nat
  apiKeysRemoved : Nat

inductive EraseError where
  | idRequired
  | userNotFound
  | conflict

def UserRow.erased (row : UserRow) (now : Nat) : UserRow :=
  { id := row.id, email := "erased-" ++ row.id ++ "@" ++ erasedEmailDomain,
    passwordHash := erasedPasswordHash, displayName := "Erased user",
    disabledAt := row.disabledAt.or (some now), externalID := "", ssoIssuer := "", ssoSubject := "",
    githubID := none, githubLogin := "" }

def Database.eraseUser (db : Database text) (userID : String) :
    Except EraseError (Database text × ErasureReport) :=
  if text.trim userID = "" then .error .idRequired
  else
    match db.users.byID userID with
    | none => .error .userNotFound
    | some user =>
      match db.users.update userID (·.erased db.now) with
      | none => .error .conflict
      | some users =>
        .ok ({ db with users, sessions := db.sessions.filter (·.userID ≠ userID),
                       apiKeys := db.apiKeys.filter (·.userID ≠ userID) },
          { userID, emailAnonymized := !hasErasedDomain (text.lower user.email),
            sessionsRemoved := (db.sessions.filter (·.userID = userID)).length,
            apiKeysRemoved := (db.apiKeys.filter (·.userID = userID)).length })

namespace Erasure

/-- What can be asked of the control plane. `federate` includes the session that follows. -/
inductive Operation where
  | register (input : RegisterInput) (draw : Draw)
  | login (email password : String) (remember : Bool) (draw : Draw)
  | refresh (refreshToken : String) (draw : Draw)
  | federate (call : FederationCall) (draw : Draw)
  | logout (sessionID userID : String)
  | addMember (request : Request) (organizationID email : String) (role : Role) (seated : Bool)
  | createKey (request : Request) (organizationID : String) (input : KeyInput) (draw : Draw)
  | revokeKey (request : Request) (organizationID keyID : String)
  | scimCreate (organizationID userID : String) (user : SCIMUser) (seated : Bool)
  | scimReplace (organizationID userID : String) (user : SCIMUser)
  | scimSetActive (organizationID userID : String) (active : Bool)
  | erase (userID : String)
  | tick (seconds : Nat)

def orKeep {ε : Type} (db : Database text) : Except ε (Database text) → Database text
  | .ok db' => db'
  | .error _ => db

def apply (c : Config) (db : Database text) : Operation → Database text
  | .register input draw => orKeep db ((handleRegister c db input draw).map (·.1))
  | .login email password remember draw =>
    orKeep db ((handleLogin c db email password remember draw).map (·.1))
  | .refresh refreshToken draw => (handleRefresh c db refreshToken draw).1
  | .federate call draw =>
    orKeep db ((Admin.federated db call).map fun (user, db') =>
      (issueSession c db' user.id c.refreshTokenTTL draw).1)
  | .logout sessionID userID => db.revokeSession sessionID userID
  | .addMember request organizationID email role seated =>
    orKeep db (handleMemberAdd c db request organizationID email role seated)
  | .createKey request organizationID input draw =>
    orKeep db ((handleAPIKeyCreate c db request organizationID input draw).map (·.1))
  | .revokeKey request organizationID keyID =>
    orKeep db (handleAPIKeyRevoke c db request organizationID keyID)
  | .scimCreate organizationID userID user seated =>
    orKeep db (db.scimCreateUser organizationID userID user seated)
  | .scimReplace organizationID userID user =>
    orKeep db (db.scimReplaceUser organizationID userID user)
  | .scimSetActive organizationID userID active =>
    (db.scimSetActive organizationID userID active).getD db
  | .erase userID => orKeep db ((db.eraseUser userID).map (·.1))
  | .tick seconds => { db with now := db.now + seconds }

def step (c : Config) (db : Database text) (op : Operation) : Option (Database text) :=
  some (apply c db op)

def Operation.revives (op : Operation) (userID : String) : Bool :=
  match op with
  | .scimReplace _ id user => id = userID && user.active
  | .scimSetActive _ id active => id = userID && active
  | _ => false

end Erasure

def Users.disabledAt (users : Users text) (userID : String) : Option Nat :=
  (users.byID userID).bind (·.disabledAt)

namespace Users

variable {users users' : Users text} {userID id : String} {row : UserRow} {f : UserRow → UserRow}

theorem disabledAt_insert (h : users.insert row = some users') (hrow : row.disabledAt = none) :
    users'.disabledAt userID = users.disabledAt userID := by
  rw [disabledAt, byID_insert h, disabledAt]
  cases users.byID userID with
  | some found => rfl
  | none =>
    split_ifs
    · exact hrow
    · rfl

theorem disabledAt_update (h : users.update id f = some users') (hid : ∀ row, (f row).id = row.id)
    (hf : ∀ row, (f row).disabledAt = row.disabledAt) :
    users'.disabledAt userID = users.disabledAt userID := by
  rw [disabledAt, byID_update h hid, disabledAt]
  cases users.byID userID with
  | none => rfl
  | some found =>
    simp only [map_some, bind_some]
    split_ifs
    · exact hf found
    · rfl

theorem disabledAt_set (g : Option Nat → Option Nat) (userID : String)
    (h : users.update id f = some users')
    (hid : ∀ row, (f row).id = row.id) (hf : ∀ row, (f row).disabledAt = g row.disabledAt)
    (hthere : (users.byID id).isSome) :
    users'.disabledAt userID =
      if userID = id then g (users.disabledAt userID) else users.disabledAt userID := by
  rw [disabledAt, byID_update h hid, disabledAt]
  cases hfound : users.byID userID with
  | none =>
    rw [if_neg (fun hsame => by simp [← hsame, hfound] at hthere)]
    rfl
  | some found =>
    have hsame := (byID_some hfound).2
    simp only [map_some, bind_some, hsame]
    split_ifs
    · exact hf found
    · rfl

theorem mem_of_insert (h : users.insert row = some users') : row ∈ users'.rows := by
  rw [rows_of_insert h]
  exact mem_append_right _ (mem_singleton.mpr rfl)

theorem row_of_update (h : users.update id f = some users') (hrow : row ∈ users.rows)
    (hid : ∀ row, (f row).id = row.id) (hf : ∀ row, (f row).disabledAt = row.disabledAt) :
    ∃ row' ∈ users'.rows, row'.id = row.id ∧ row'.disabled = row.disabled := by
  refine ⟨_, mem_update h hrow, ?_⟩
  split_ifs
  · exact ⟨hid row, by rw [UserRow.disabled, hf, UserRow.disabled]⟩
  · exact ⟨rfl, rfl⟩

theorem disabledAt_some {now : Nat} (h : users.disabledAt userID = some now) :
    ∃ row, users.byID userID = some row ∧ row.disabled = true := by
  obtain ⟨row, hrow, hnow⟩ := bind_eq_some_iff.mp h
  exact ⟨row, hrow, by simp [UserRow.disabled, hnow]⟩

end Users

open Users

theorem Database.enabled_of_mem {db : Database text} {row : UserRow} {userID : String}
    (hrow : row ∈ db.users.rows) (hid : row.id = userID) (hon : row.disabled = false) :
    db.enabled userID = true := by
  simp [enabled, ← hid, byID_of_mem hrow, hon]

theorem Database.not_enabled {db : Database text} {userID : String} {now : Nat}
    (h : db.users.disabledAt userID = some now) : db.enabled userID = false := by
  obtain ⟨row, hrow, hoff⟩ := disabledAt_some h
  simp [enabled, hrow, hoff]

section Federation

variable {users users' : Users text} {user : UserRow} {userID : String}

structure SignedIn (users users' : Users text) (user : UserRow) : Prop where
  disabledAt : ∀ userID, users'.disabledAt userID = users.disabledAt userID
  row : ∃ row ∈ users'.rows, row.id = user.id ∧ row.disabled = user.disabled

theorem SignedIn.update {found : UserRow} {id : String} {f : UserRow → UserRow}
    (hwrite : users.update id f = some users') (hfound : found ∈ users.rows)
    (hid : ∀ row, (f row).id = row.id) (hf : ∀ row, (f row).disabledAt = row.disabledAt)
    (hsame : found.id = user.id ∧ found.disabled = user.disabled) : SignedIn users users' user := by
  obtain ⟨row, hrow, hkept⟩ := row_of_update hwrite hfound hid hf
  exact ⟨fun _ => disabledAt_update hwrite hid hf, row, hrow, hkept.1.trans hsame.1,
    hkept.2.trans hsame.2⟩

theorem SSOOutcome.signedIn {issuer subject email displayName newID : String}
    (ho : SSOOutcome users issuer subject email displayName newID user users') :
    SignedIn users users' user := by
  cases ho with
  | linked hlink => exact ⟨fun _ => rfl, user, (byLink_some hlink).1, rfl, rfl⟩
  | renamed hlink hwrite =>
    exact .update hwrite (byLink_some hlink).1 (fun _ => rfl) (fun _ => rfl) ⟨rfl, rfl⟩
  | joined _ hemail _ hwrite =>
    exact .update hwrite (byEmail_some hemail).1 (fun _ => rfl) (fun _ => rfl) ⟨rfl, rfl⟩
  | created _ _ hwrite =>
    exact ⟨fun _ => disabledAt_insert hwrite rfl, _, mem_of_insert hwrite, rfl, rfl⟩

theorem GitHubOutcome.signedIn {identity : GitHubIdentity} {newID : String}
    (ho : GitHubOutcome users identity newID user users') : SignedIn users users' user := by
  cases ho with
  | linked hlink => exact ⟨fun _ => rfl, user, (byGitHub_some hlink).1, rfl, rfl⟩
  | renamed hlink hwrite =>
    exact .update hwrite (byGitHub_some hlink).1 (fun _ => rfl) (fun _ => rfl) ⟨rfl, rfl⟩
  | joined hemail _ hwrite =>
    exact .update hwrite (byEmail_some hemail).1 (fun _ => rfl) (fun _ => rfl) ⟨rfl, rfl⟩
  | created _ hwrite =>
    exact ⟨fun _ => disabledAt_insert hwrite rfl, _, mem_of_insert hwrite, rfl, rfl⟩

theorem Admin.federated_ok {db db' : Database text} {call : FederationCall}
    (h : federated db call = .ok (user, db')) :
    db'.now = db.now ∧ (∀ userID, db'.users.disabledAt userID = db.users.disabledAt userID) ∧
      db'.sessions = db.sessions ∧ db'.enabled user.id = true := by
  obtain ⟨hnow, -, hon, -⟩ := federated_keeps h
  have ⟨hsigned, hsessions⟩ : SignedIn db.users db'.users user ∧ db'.sessions = db.sessions := by
    cases call with
    | sso =>
      obtain ⟨ho, -, -, hsessions⟩ := federateSSOLink_ok h
      exact ⟨ho.signedIn, hsessions⟩
    | gitHub =>
      obtain ⟨ho, hsessions⟩ := federateGitHub_ok h
      exact ⟨ho.signedIn, hsessions⟩
  obtain ⟨row, hrow, hid, hdisabled⟩ := hsigned.row
  exact ⟨hnow, hsigned.disabledAt, hsessions,
    enabled_of_mem hrow hid (hdisabled.trans hon)⟩

end Federation

namespace Erasure

/-- Only a directory makes an account active; new sessions and keys are of active accounts. -/
structure Effect (db : Database text) (op : Operation) (db' : Database text) : Prop where
  now : db.now ≤ db'.now
  disabledAt : ∀ userID, db'.users.disabledAt userID = db.users.disabledAt userID ∨
    db'.users.disabledAt userID = some db.now ∨
    (op.revives userID = true ∧ db'.users.disabledAt userID = none)
  sessions : ∀ session ∈ db'.sessions, (∃ old ∈ db.sessions, old.userID = session.userID) ∨
    db'.enabled session.userID = true
  keys : ∀ key ∈ db'.apiKeys, (∃ old ∈ db.apiKeys, old.userID = key.userID) ∨
    db.enabled key.userID = true

variable {c : Config} {db db' : Database text} {op : Operation}

theorem Effect.refl : Effect db op db :=
  ⟨le_rfl, fun _ => .inl rfl, fun session hs => .inl ⟨session, hs, rfl⟩,
    fun key hk => .inl ⟨key, hk, rfl⟩⟩

theorem Effect.orKeep {ε : Type} {result : Except ε (Database text)}
    (h : ∀ db', result = .ok db' → Effect db op db') : Effect db op (orKeep db result) := by
  cases result with
  | ok db' => exact h db' rfl
  | error e => exact .refl

theorem Effect.orKeep_map {ε α : Type} {result : Except ε α} {g : α → Database text}
    (h : ∀ a, result = .ok a → Effect db op (g a)) :
    Effect db op (Erasure.orKeep db (result.map g)) := by
  cases result with
  | ok a => exact h a rfl
  | error e => exact .refl

theorem Effect.quiet (hnow : db.now ≤ db'.now)
    (husers : ∀ userID, db'.users.disabledAt userID = db.users.disabledAt userID)
    (hsessions : db'.sessions = db.sessions) (hkeys : db'.apiKeys = db.apiKeys) :
    Effect db op db' where
  now := hnow
  disabledAt userID := .inl (husers userID)
  sessions session hs := .inl ⟨session, hsessions ▸ hs, rfl⟩
  keys key hk := .inl ⟨key, hkeys ▸ hk, rfl⟩

variable {draw : Draw}

theorem Effect.issue {userID : String} {ttl : Nat} (hnow : db.now ≤ db'.now)
    (husers : ∀ userID, db'.users.disabledAt userID = db.users.disabledAt userID)
    (hsessions : db'.sessions = db.sessions) (hkeys : db'.apiKeys = db.apiKeys)
    (hon : db'.enabled userID = true) : Effect db op (issueSession c db' userID ttl draw).1 where
  now := hnow
  disabledAt userID := .inl (husers userID)
  sessions session hs := by
    rcases mem_append.mp hs with hold | hnew
    · exact .inl ⟨session, hsessions ▸ hold, rfl⟩
    · rw [mem_singleton.mp hnew]
      exact .inr hon
  keys key hk := .inl ⟨key, hkeys ▸ hk, rfl⟩

variable {tokens : SessionTokens} {organizationID : String} {active : Bool} {report : ErasureReport}
  {request : Request} {principal : Principal}

theorem register_effect {input : RegisterInput}
    (h : handleRegister c db input draw = .ok (db', tokens)) : Effect db op db' := by
  simp only [handleRegister, bind_ok, refuseIf_ok, orRefuse_ok] at h
  obtain ⟨email, -, -, -, -, -, -, -, -, -, hash, -, registered, hregister, hissue⟩ := h
  cases hissue
  have hkeys := register_apiKeys hregister
  unfold register at hregister
  split_ifs at hregister
  obtain ⟨users, hwrite, rfl⟩ := map_eq_some_iff.mp hregister
  have hrow := mem_of_insert hwrite
  exact .issue le_rfl (fun _ => disabledAt_insert hwrite rfl) rfl hkeys
    (enabled_of_mem hrow rfl rfl)

theorem login_effect {email password : String} {remember : Bool}
    (h : handleLogin c db email password remember draw = .ok (db', tokens)) : Effect db op db' := by
  simp only [handleLogin, bind_ok, refuseIf_ok, orRefuse_ok] at h
  obtain ⟨address, -, -, -, -, -, user, hfound, -, hchecks, hissue⟩ := h
  cases hissue
  have hon : user.disabled = false := by
    rw [not_or] at hchecks
    simpa using hchecks.1
  exact .issue le_rfl (fun _ => rfl) rfl rfl 
    (enabled_of_mem (byEmail_some hfound).1 rfl hon)

theorem rotateSession_users {refreshHash nextAccess nextRefresh : String} {access refresh : Nat} :
    (db.rotateSession refreshHash nextAccess nextRefresh access refresh).1.now = db.now ∧
    (db.rotateSession refreshHash nextAccess nextRefresh access refresh).1.users = db.users ∧
    ∀ session ∈ (db.rotateSession refreshHash nextAccess nextRefresh access refresh).1.sessions,
      ∃ old ∈ db.sessions, old.userID = session.userID := by
  unfold rotateSession
  split
  · rename_i current hfound
    refine ⟨rfl, rfl, fun session hs => ?_⟩
    obtain ⟨old, hold, rfl⟩ := List.mem_map.mp hs
    split_ifs
    · exact ⟨current, mem_of_find?_eq_some hfound, rfl⟩
    · exact ⟨old, hold, rfl⟩
  · split
    · refine ⟨rfl, rfl, fun session hs => ?_⟩
      obtain ⟨old, hold, rfl⟩ := List.mem_map.mp hs
      split_ifs <;> exact ⟨old, hold, rfl⟩
    · exact ⟨rfl, rfl, fun session hs => ⟨session, hs, rfl⟩⟩

theorem refresh_effect {refreshToken : String} :
    Effect db op (handleRefresh c db refreshToken draw).1 := by
  have hkeys : (handleRefresh c db refreshToken draw).1.apiKeys = db.apiKeys :=
    handleRefresh_apiKeys
  unfold handleRefresh at hkeys ⊢
  simp only at hkeys ⊢
  split_ifs at hkeys ⊢
  · exact .refl
  · exact ⟨rotateSession_users.1.ge, fun _ => .inl (by rw [rotateSession_users.2.1]),
      fun session hs => .inl (rotateSession_users.2.2 session hs),
      fun key hk => .inl ⟨key, hkeys ▸ hk, rfl⟩⟩

theorem scimReplace_effect {userID : String} {user : SCIMUser}
    (h : db.scimReplaceUser organizationID userID user = .ok db') :
    Effect db (.scimReplace organizationID userID user) db' := by
  obtain ⟨hthere, users, hwrite, rfl⟩ := scimReplaceUser_ok h
  refine ⟨le_rfl, fun id => ?_, fun session hs => .inl ⟨session, hs, rfl⟩,
    fun key hk => .inl ⟨key, hk, rfl⟩⟩
  have hset := disabledAt_set (fun _ => if user.active then none else some db.now) id hwrite
     (fun _ => rfl) (fun _ => rfl) hthere
  simp only [hset]
  split_ifs with hsame hactive
  · exact .inr (.inr ⟨by simp [Operation.revives, hsame, hactive], rfl⟩)
  · exact .inr (.inl rfl)
  · exact .inl rfl

theorem scimSetActive_effect {userID : String}
    (h : db.scimSetActive organizationID userID active = some db') :
    Effect db (.scimSetActive organizationID userID active) db' := by
  obtain ⟨hthere, users, hwrite, rfl⟩ := scimSetActive_some h
  refine ⟨le_rfl, fun id => ?_, fun session hs => ?_, fun key hk => .inl ⟨key, hk, rfl⟩⟩
  · have hset := disabledAt_set (fun _ => if active then none else some db.now) id hwrite
       (fun _ => rfl) (fun _ => rfl) hthere
    simp only [hset]
    split_ifs with hsame hactive
    · exact .inr (.inr ⟨by simp [Operation.revives, hsame, hactive], rfl⟩)
    · exact .inr (.inl rfl)
    · exact .inl rfl
  · obtain ⟨old, hold, rfl⟩ := List.mem_map.mp hs
    refine .inl ⟨old, hold, ?_⟩
    split_ifs <;> rfl

theorem eraseUser_ok {userID : String} (h : db.eraseUser userID = .ok (db', report)) :
    (db.users.byID userID).isSome ∧ ∃ users, db.users.update userID (·.erased db.now) = some users ∧
      db' = { db with users, sessions := db.sessions.filter (·.userID ≠ userID),
                             apiKeys := db.apiKeys.filter (·.userID ≠ userID) } := by
  unfold eraseUser at h
  split_ifs at h
  split at h
  · cases h
  · rename_i user hfound
    split at h
    · cases h
    · rename_i users hwrite
      cases h
      exact ⟨by simp [hfound], users, hwrite, rfl⟩

theorem erase_disabledAt {userID : String} (h : db.eraseUser userID = .ok (db', report))
    (id : String) :
    db'.users.disabledAt id =
      if id = userID then (db.users.disabledAt id).or (some db.now)
      else db.users.disabledAt id := by
  obtain ⟨hthere, users, hwrite, rfl⟩ := eraseUser_ok h
  exact disabledAt_set (·.or (some db.now)) id hwrite (fun _ => rfl) (fun _ => rfl) hthere

theorem erase_effect {userID : String} (h : db.eraseUser userID = .ok (db', report)) :
    Effect db op db' := by
  have hdisabled := erase_disabledAt h
  obtain ⟨-, users, -, rfl⟩ := eraseUser_ok h
  refine ⟨le_rfl, fun id => ?_, fun session hs => .inl ⟨session, (mem_filter.mp hs).1, rfl⟩,
    fun key hk => .inl ⟨key, (mem_filter.mp hk).1, rfl⟩⟩
  rw [hdisabled id]
  split_ifs
  · cases db.users.disabledAt id with
    | none => exact .inr (.inl rfl)
    | some since => exact .inl rfl
  · exact .inl rfl

theorem authenticate_enabled (h : authenticate c db request = .ok principal) :
    db.enabled principal.userID = true ∧
      ((∃ session ∈ db.sessions, session.userID = principal.userID) ∨
        ∃ key ∈ db.apiKeys, key.userID = principal.userID) := by
  unfold authenticate at h
  split at h
  · cases h
  · split_ifs at h
    · split at h
      · rename_i key hfound
        cases h
        have hlive := find?_some hfound
        simp only [decide_eq_true_eq] at hlive
        exact ⟨hlive.2.2.2, .inr ⟨key, mem_of_find?_eq_some hfound, rfl⟩⟩
      · cases h
    · split at h
      · rename_i session hfound
        cases h
        have hlive := find?_some hfound
        simp only [decide_eq_true_eq] at hlive
        exact ⟨hlive.2.2.2, .inl ⟨session, mem_of_find?_eq_some hfound, rfl⟩⟩
      · cases h

theorem requireAuth_ok (h : requireAuth c db request = .ok principal) :
    authenticate c db request = .ok principal := by
  unfold requireAuth at h
  split at h
  · cases h
  · split_ifs at h
    cases h
    assumption

theorem createKey_effect {secret : String} {input : KeyInput}
    (h : handleAPIKeyCreate c db request organizationID input draw = .ok (db', secret)) :
    Effect db op db' := by
  simp only [handleAPIKeyCreate, requireOrganization, bind_ok, refuseIf_ok, orRefuse_ok] at h
  obtain ⟨principal, ⟨caller, hcaller, -, -, -, -, role, -, -, -, -, -, hprincipal⟩, -, -, -, -,
    hcreate⟩ := h
  cases hprincipal
  cases hcreate
  refine ⟨le_rfl, fun _ => .inl rfl, fun session hs => .inl ⟨session, hs, rfl⟩, fun key hk => ?_⟩
  rcases mem_append.mp hk with hold | hnew
  · exact .inl ⟨key, hold, rfl⟩
  · rw [mem_singleton.mp hnew]
    exact .inr (authenticate_enabled (requireAuth_ok hcaller)).1

theorem revokeKey_effect {keyID : String}
    (h : handleAPIKeyRevoke c db request organizationID keyID = .ok db') : Effect db op db' := by
  simp only [handleAPIKeyRevoke, bind_ok, orRefuse_ok] at h
  obtain ⟨principal, -, hrevoke⟩ := h
  unfold revokeAPIKey at hrevoke
  split_ifs at hrevoke
  cases hrevoke
  refine ⟨le_rfl, fun _ => .inl rfl, fun session hs => .inl ⟨session, hs, rfl⟩, fun key hk => ?_⟩
  obtain ⟨old, hold, rfl⟩ := List.mem_map.mp hk
  refine .inl ⟨old, hold, ?_⟩
  split_ifs <;> rfl

theorem apply_effect (c : Config) (db : Database text) (op : Operation) :
    Effect db op (apply c db op) := by
  cases op with
  | register input draw =>
    exact .orKeep_map fun _ h => register_effect h
  | login email password remember draw =>
    exact .orKeep_map fun _ h => login_effect h
  | refresh refreshToken draw => exact refresh_effect
  | federate call draw =>
    refine .orKeep_map fun (user, db') h => ?_
    obtain ⟨hnow, husers, hsessions, hon⟩ := federated_ok h
    exact .issue hnow.ge husers hsessions (federated_keeps h).2.1 hon
  | logout sessionID userID =>
    refine ⟨le_rfl, fun _ => .inl rfl, fun session hs => ?_, fun key hk => .inl ⟨key, hk, rfl⟩⟩
    obtain ⟨old, hold, rfl⟩ := List.mem_map.mp hs
    refine .inl ⟨old, hold, ?_⟩
    split_ifs <;> rfl
  | addMember request organizationID email role seated =>
    refine .orKeep fun db' h => ?_
    simp only [handleMemberAdd, bind_ok, refuseIf_ok, orRefuse_ok] at h
    obtain ⟨-, -, -, -, -, -, user, -, -, -, -, -, hadd⟩ := h
    cases hadd
    exact .quiet le_rfl (fun _ => rfl) rfl rfl
  | createKey request organizationID input draw =>
    exact .orKeep_map fun _ h => createKey_effect h
  | revokeKey request organizationID keyID => exact .orKeep fun db' h => revokeKey_effect h
  | scimCreate organizationID userID user seated =>
    refine .orKeep fun db' h => ?_
    obtain ⟨users, hwrite, rfl⟩ := scimCreateUser_ok h
    exact .quiet le_rfl (fun _ => disabledAt_insert hwrite rfl) rfl rfl
  | scimReplace organizationID userID user => exact .orKeep fun db' h => scimReplace_effect h
  | scimSetActive organizationID userID active =>
    simp only [apply]
    cases hset : db.scimSetActive organizationID userID active with
    | none => exact .refl
    | some db' => exact scimSetActive_effect hset
  | erase userID =>
    exact .orKeep_map fun _ h => erase_effect h
  | tick seconds => exact .quiet (Nat.le_add_right _ _) (fun _ => rfl) rfl rfl

structure Gone (db : Database text) (userID : String) : Prop where
  disabled : (db.users.disabledAt userID).isSome
  sessions : ∀ session ∈ db.sessions, session.userID ≠ userID
  keys : ∀ key ∈ db.apiKeys, key.userID ≠ userID

theorem gone_of_erase {userID : String} (h : db.eraseUser userID = .ok (db', report)) :
    Gone db' userID := by
  have hdisabled := erase_disabledAt h userID
  obtain ⟨-, users, -, rfl⟩ := eraseUser_ok h
  refine ⟨?_, fun session hs => by simpa using (mem_filter.mp hs).2,
    fun key hk => by simpa using (mem_filter.mp hk).2⟩
  rw [hdisabled, if_pos rfl]
  cases db.users.disabledAt userID <;> rfl

theorem Gone.not_enabled {userID : String} (h : Gone db userID) : db.enabled userID = false := by
  obtain ⟨since, hsince⟩ := isSome_iff_exists.mp h.disabled
  exact Database.not_enabled hsince

theorem Gone.effect {userID : String} (h : Gone db userID) (he : Effect db op db')
    (hrest : op.revives userID = false) : Gone db' userID := by
  have hdisabled : (db'.users.disabledAt userID).isSome := by
    rcases he.disabledAt userID with hsame | hnow | ⟨hrevives, -⟩
    · rw [hsame]
      exact h.disabled
    · rw [hnow]
      rfl
    · rw [hrest] at hrevives
      cases hrevives
  have hoff : db'.enabled userID = false := by
    obtain ⟨since, hsince⟩ := isSome_iff_exists.mp hdisabled
    exact Database.not_enabled hsince
  refine ⟨hdisabled, fun session hs huser => ?_, fun key hk huser => ?_⟩
  · rcases he.sessions session hs with ⟨old, hold, hsame⟩ | hon
    · exact h.sessions old hold (hsame.trans huser)
    · rw [huser, hoff] at hon
      cases hon
  · rcases he.keys key hk with ⟨old, hold, hsame⟩ | hon
    · exact h.keys old hold (hsame.trans huser)
    · rw [huser, h.not_enabled] at hon
      cases hon

/-- After an erasure, as long as no directory makes the account active, nobody is authenticated as
it, and no refresh token or session of it is left. -/
theorem erased_never_authenticates {userID : String} {report : ErasureReport}
    {later : List Operation} {t : Database text}
    (herase : db.eraseUser userID = .ok (db', report))
    (hrest : ∀ op ∈ later, op.revives userID = false)
    (hlater : exec (step c) db' later = some t) :
    (∀ request principal, authenticate c t request = .ok principal →
      principal.userID ≠ userID) ∧
    (∀ hash nextAccess nextRefresh access refresh session,
      (t.rotateSession hash nextAccess nextRefresh access refresh).2 = .rotated session →
        session.userID ≠ userID) ∧ ∀ session ∈ t.sessions, session.userID ≠ userID := by
  have hgone : Gone t userID := by
    refine exec_invariant (Gone · userID) (fun s op s' h hcond hstep => ?_) (gone_of_erase herase)
      (Meets.of_forall hrest db') hlater
    cases hstep
    exact h.effect (apply_effect c s op) hcond
  refine ⟨fun request principal hok huser => ?_, fun hash nextAccess nextRefresh access refresh
    session hrotated => ?_, hgone.sessions⟩
  · have hon := (authenticate_enabled hok).1
    rw [huser, hgone.not_enabled] at hon
    cases hon
  · unfold rotateSession at hrotated
    split at hrotated
    · rename_i current hfound
      cases hrotated
      exact hgone.sessions current (mem_of_find?_eq_some hfound)
    · split at hrotated <;> cases hrotated

def gitHubSignIn : Operation :=
  .federate (.gitHub ⟨7, "a", "a@x.y", "A"⟩ "new" "new-organization") Admin.sampleDraw

def signedIn : Request := ⟨"/v1/me", "bearer shift_at_0123456789ab", ""⟩

def afterwards (active : Bool) : List Operation :=
  [.scimReplace "organization" "u" ⟨"", if active then "a@x.y" else "b@x.y", "A", active⟩,
    gitHubSignIn]

theorem inactive_replacement_harmless : ∃ db report t principal,
    Directory.sampleDatabase.eraseUser "u" = .ok (db, report) ∧
    exec (step Admin.sampleConfig) db (afterwards false) = some t ∧
    authenticate Admin.sampleConfig t signedIn = .ok principal ∧ principal.userID = "new" ∧
    principal.userID ≠ "u" := by
  obtain ⟨⟨db, report⟩, herase, t, hlater, principal, hauth, huser⟩ : ∃ r,
      Directory.sampleDatabase.eraseUser "u" = .ok r ∧
      ∃ t, exec (step sampleConfig) r.1 (afterwards false) = some t ∧ ∃ principal,
        authenticate sampleConfig t signedIn = .ok principal ∧ principal.userID = "new" := by
    decide
  exact ⟨db, report, t, principal, herase, hlater, hauth, huser,
    (erased_never_authenticates herase (by decide) hlater).1 signedIn principal hauth⟩

/-- The directory gives the erased account its address back and makes it active; the owner of the
address then signs in with GitHub as the erased account. -/
theorem erased_account_signs_in : ∃ db report t principal,
    Directory.sampleDatabase.eraseUser "u" = .ok (db, report) ∧
    exec (step Admin.sampleConfig) db (afterwards true) = some t ∧
    authenticate Admin.sampleConfig t signedIn = .ok principal ∧ principal.userID = "u" := by
  simp only [exists_and_left]
  decide

end Erasure

end Shiftgate.Accounts
