import Shiftgate.Accounts.Tables

/-! How an identity that somebody else vouches for becomes a local account: single sign-on
(`internal/database/sso.go`) and GitHub (`internal/database/github.go`). Each function is one
transaction; an error rolls it back. -/

namespace Shiftgate.Accounts

variable {text : Text}

inductive FederateError where
  | accountLinked
  | userDisabled
  | gitHubEmailMismatch
  | gitHubAccountConflict
  | emailRequired
  | conflict

def emailDomain (text : Text) (email : String) : String :=
  match (text.normalize email).toList.dropWhile (· ≠ '@') with
  | [] => ""
  | _ :: domain => text.trim (String.ofList domain)

def Organization.enforces (text : Text) (organization : Organization) (domain : String) : Bool :=
  organization.ssoEnforced && text.lower organization.ssoEmailDomain == domain

def Database.ssoEnforcedForEmail (db : Database text) (email : String) : Bool :=
  let domain := emailDomain text email
  domain ≠ "" && db.organizations.any (·.enforces text domain)

def Database.ensureSSOMemberships (db : Database text) (user : UserRow) (full : String → Bool) :
    Database text :=
  let domain := emailDomain text user.email
  if domain = "" then db
  else
    let joined := db.organizations.filter fun o =>
      o.enforces text domain && (db.memberRole o.id user.id).isNone && !full o.id
    { db with members := db.members ++ joined.map fun o => ⟨o.id, user.id, .viewer⟩ }

def Users.setDisplayName (users : Users text) (user : UserRow) (displayName : String) :
    Except FederateError (UserRow × Users text) :=
  match users.update user.id fun row => { row with displayName } with
  | some users' => .ok ({ user with displayName }, users')
  | none => .error .conflict

def freshSSORow (email displayName newID : String) : UserRow :=
  { id := newID, email, passwordHash := "",
    displayName := if displayName = "" then email else displayName, disabledAt := none,
    externalID := "", ssoIssuer := "", ssoSubject := "", githubID := none, githubLogin := "" }

def Users.federateByEmail (users : Users text) (issuer subject email displayName newID : String) :
    Except FederateError (UserRow × Users text) :=
  if email = "" then .error .emailRequired
  else
    match users.byEmail email with
    | some user =>
      if user.ssoIssuer ≠ "" ∧ (user.ssoIssuer ≠ issuer ∨ user.ssoSubject ≠ subject) then
        .error .accountLinked
      else
        match users.update user.id fun row =>
            { row with ssoIssuer := issuer, ssoSubject := subject } with
        | some users' => .ok ({ user with ssoIssuer := issuer, ssoSubject := subject }, users')
        | none => .error .conflict
    | none =>
      -- Only the returned record carries the link.
      match users.insert (freshSSORow email displayName newID) with
      | some users' =>
        .ok ({ freshSSORow email displayName newID with
          ssoIssuer := issuer, ssoSubject := subject }, users')
      | none => .error .conflict

def Users.resolveSSO (users : Users text) (issuer subject email displayName newID : String) :
    Except FederateError (UserRow × Users text) :=
  match users.byLink issuer subject with
  | some user =>
    if displayName ≠ "" ∧ displayName ≠ user.displayName then users.setDisplayName user displayName
    else .ok (user, users)
  | none => users.federateByEmail issuer subject email displayName newID

def Database.federateSSOLink (db : Database text) (issuer subject email displayName newID : String)
    (full : String → Bool) : Except FederateError (UserRow × Database text) :=
  match db.users.resolveSSO issuer subject (text.normalize email) displayName newID with
  | .error e => .error e
  | .ok (user, users) =>
    if user.disabled then .error .userDisabled
    else .ok (user, ({ db with users } : Database text).ensureSSOMemberships user full)

structure GitHubIdentity where
  githubID : Nat
  login : String
  email : String
  displayName : String

def freshGitHubRow (identity : GitHubIdentity) (userID : String) : UserRow :=
  { id := userID, email := identity.email, passwordHash := "",
    displayName := if identity.displayName ≠ "" then identity.displayName
      else if identity.login ≠ "" then identity.login else identity.email,
    disabledAt := none, externalID := "", ssoIssuer := "", ssoSubject := "",
    githubID := some identity.githubID, githubLogin := identity.login }

def Users.federateGitHubByEmail (users : Users text) (identity : GitHubIdentity) (userID : String) :
    Except FederateError (UserRow × Users text × Bool) :=
  if identity.email = "" then .error .emailRequired
  else
    match users.byEmail identity.email with
    | some user =>
      if user.githubID.isSome ∧ user.githubID ≠ some identity.githubID then
        .error .gitHubAccountConflict
      else if user.ssoIssuer ≠ "" then .error .accountLinked
      else if user.disabled then .error .userDisabled
      else
        match users.update user.id fun row =>
            { row with githubID := some identity.githubID, githubLogin := identity.login } with
        | some users' =>
          .ok ({ user with githubID := some identity.githubID, githubLogin := identity.login },
            users', false)
        | none => .error .conflict
    | none =>
      match users.insert (freshGitHubRow identity userID) with
      | some users' => .ok (freshGitHubRow identity userID, users', true)
      | none => .error .conflict

def Users.resolveGitHub (users : Users text) (identity : GitHubIdentity) (userID : String) :
    Except FederateError (UserRow × Users text × Bool) :=
  match users.byGitHub identity.githubID with
  | some user =>
    if text.equalFold user.email identity.email = false then .error .gitHubEmailMismatch
    else if identity.login ≠ "" ∧ identity.login ≠ user.githubLogin then
      match users.update user.id fun row => { row with githubLogin := identity.login } with
      | some users' => .ok ({ user with githubLogin := identity.login }, users', false)
      | none => .error .conflict
    else .ok (user, users, false)
  | none => users.federateGitHubByEmail identity userID

def Database.federateGitHub (db : Database text) (identity : GitHubIdentity)
    (userID organizationID : String) : Except FederateError (UserRow × Database text) :=
  match db.users.resolveGitHub { identity with email := text.normalize identity.email } userID with
  | .error e => .error e
  | .ok (user, users, created) =>
    if user.disabled then .error .userDisabled
    else if created then
      if organizationID ∈ db.organizations.map (·.id) then .error .conflict
      else .ok (user,
        { db with users, organizations := db.organizations ++ [⟨organizationID, false, ""⟩],
                  members := db.members ++ [⟨organizationID, user.id, .owner⟩] })
    else .ok (user, { db with users })

inductive SSOOutcome (users : Users text) (issuer subject email displayName newID : String) :
    UserRow → Users text → Prop
  | linked {user : UserRow} (hlink : users.byLink issuer subject = some user) :
      SSOOutcome users issuer subject email displayName newID user users
  | renamed {user : UserRow} {users' : Users text}
      (hlink : users.byLink issuer subject = some user)
      (hwrite : users.update user.id (fun row => { row with displayName }) = some users') :
      SSOOutcome users issuer subject email displayName newID { user with displayName } users'
  | joined {user : UserRow} {users' : Users text} (hlink : users.byLink issuer subject = none)
      (hemail : users.byEmail email = some user)
      (hfree : user.ssoIssuer ≠ "" → user.ssoIssuer = issuer ∧ user.ssoSubject = subject)
      (hwrite : users.update user.id
        (fun row => { row with ssoIssuer := issuer, ssoSubject := subject }) = some users') :
      SSOOutcome users issuer subject email displayName newID
        { user with ssoIssuer := issuer, ssoSubject := subject } users'
  | created {users' : Users text} (hlink : users.byLink issuer subject = none)
      (hemail : users.byEmail email = none)
      (hwrite : users.insert (freshSSORow email displayName newID) = some users') :
      SSOOutcome users issuer subject email displayName newID
        { freshSSORow email displayName newID with ssoIssuer := issuer, ssoSubject := subject }
        users'

variable {user : UserRow} {identity : GitHubIdentity}

theorem Users.resolveSSO_outcome {users users' : Users text}
    {issuer subject email displayName newID : String}
    (h : users.resolveSSO issuer subject email displayName newID = .ok (user, users')) :
    SSOOutcome users issuer subject email displayName newID user users' := by
  unfold resolveSSO at h
  split at h
  · rename_i found hlink
    split_ifs at h
    · unfold setDisplayName at h
      split at h
      · cases h
        exact .renamed hlink ‹_›
      · cases h
    · cases h
      exact .linked hlink
  · rename_i hlink
    unfold federateByEmail at h
    split_ifs at h
    split at h
    · rename_i found hemail
      split_ifs at h with hother
      split at h
      · cases h
        refine .joined hlink hemail (fun hissuer => ?_) ‹_›
        by_contra hne
        exact hother ⟨hissuer, by tauto⟩
      · cases h
    · rename_i hemail
      split at h
      · cases h
        exact .created hlink hemail ‹_›
      · cases h

theorem Database.federateSSOLink_ok {db db' : Database text}
    {issuer subject email displayName newID : String} {full : String → Bool}
    (h : db.federateSSOLink issuer subject email displayName newID full = .ok (user, db')) :
    SSOOutcome db.users issuer subject (text.normalize email) displayName newID user db'.users ∧
      user.disabled = false ∧ db'.organizations = db.organizations ∧
      db'.sessions = db.sessions := by
  unfold federateSSOLink at h
  split at h
  · cases h
  · rename_i found users hresolve
    split_ifs at h with hdisabled
    cases h
    have houtcome := Users.resolveSSO_outcome hresolve
    unfold ensureSSOMemberships
    simp only
    split <;> exact ⟨houtcome, by simpa using hdisabled, rfl, rfl⟩

inductive GitHubOutcome (users : Users text) (identity : GitHubIdentity) (userID : String) :
    UserRow → Users text → Prop
  | linked {user : UserRow} (hlink : users.byGitHub identity.githubID = some user) :
      GitHubOutcome users identity userID user users
  | renamed {user : UserRow} {users' : Users text}
      (hlink : users.byGitHub identity.githubID = some user)
      (hwrite : users.update user.id (fun row => { row with githubLogin := identity.login }) =
        some users') :
      GitHubOutcome users identity userID { user with githubLogin := identity.login } users'
  | joined {user : UserRow} {users' : Users text}
      (hemail : users.byEmail identity.email = some user) (hfree : user.ssoIssuer = "")
      (hwrite : users.update user.id (fun row =>
        { row with githubID := some identity.githubID, githubLogin := identity.login }) =
          some users') :
      GitHubOutcome users identity userID
        { user with githubID := some identity.githubID, githubLogin := identity.login } users'
  | created {users' : Users text} (hemail : users.byEmail identity.email = none)
      (hwrite : users.insert (freshGitHubRow identity userID) = some users') :
      GitHubOutcome users identity userID (freshGitHubRow identity userID) users'

theorem Users.resolveGitHub_outcome {users users' : Users text} {userID : String} {created : Bool}
    (h : users.resolveGitHub identity userID = .ok (user, users', created)) :
    GitHubOutcome users identity userID user users' := by
  unfold resolveGitHub at h
  split at h
  · rename_i found hlink
    split_ifs at h
    · split at h
      · cases h
        exact .renamed hlink ‹_›
      · cases h
    · cases h
      exact .linked hlink
  · unfold federateGitHubByEmail at h
    split_ifs at h
    split at h
    · rename_i found hemail
      split_ifs at h with _ hlinked
      split at h
      · cases h
        exact .joined hemail (by simpa using hlinked) ‹_›
      · cases h
    · rename_i hemail
      split at h
      · cases h
        exact .created hemail ‹_›
      · cases h

theorem Database.federateGitHub_ok {db db' : Database text} {userID organizationID : String}
    (h : db.federateGitHub identity userID organizationID = .ok (user, db')) :
    GitHubOutcome db.users { identity with email := text.normalize identity.email } userID user
        db'.users ∧ db'.sessions = db.sessions := by
  unfold federateGitHub at h
  split at h
  · cases h
  · rename_i found users created hresolve
    have houtcome := Users.resolveGitHub_outcome hresolve
    split_ifs at h
    · cases h
      exact ⟨houtcome, rfl⟩
    · cases h
      exact ⟨houtcome, rfl⟩

end Shiftgate.Accounts
