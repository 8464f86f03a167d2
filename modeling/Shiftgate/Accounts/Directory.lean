import Shiftgate.Accounts.Gates
import Shiftgate.Accounts.Links

/-! Directory provisioning (`scim_routes.go` and `database/scim.go`), one statement at a time. A
replacement commits, reads the account again and revokes its sessions if that shows it inactive. -/

namespace Shiftgate.Accounts

open Library

variable {text : Text}

structure SCIMUser where
  externalID : String
  email : String
  displayName : String
  active : Bool
  deriving DecidableEq

def UserRow.scim (row : UserRow) : SCIMUser :=
  ⟨row.externalID, row.email, row.displayName, !row.disabled⟩

namespace Database

def isMember (db : Database text) (organizationID userID : String) : Bool :=
  (db.memberRole organizationID userID).isSome

def scimUserByID (db : Database text) (organizationID userID : String) : Option SCIMUser :=
  if db.isMember organizationID userID then (db.users.byID userID).map (·.scim) else none

def organizationsOf (db : Database text) (userID : String) : List String :=
  (db.members.filter (·.user = userID)).map (·.organization)

inductive CreateError where
  | seatCeilingExceeded
  | conflict

def freshSCIMRow (text : Text) (userID : String) (user : SCIMUser) : UserRow :=
  { id := userID, email := text.normalize user.email, passwordHash := "",
    displayName := user.displayName, disabledAt := none, externalID := text.trim user.externalID,
    ssoIssuer := "", ssoSubject := "", githubID := none, githubLogin := "" }

/-- The transaction of `SCIMCreateUser`, which makes an active account whatever the request says. -/
def scimCreateUser (db : Database text) (organizationID userID : String) (user : SCIMUser)
    (seated : Bool) : Except CreateError (Database text) :=
  if seated = false then .error .seatCeilingExceeded
  else
    match db.users.insert (freshSCIMRow text userID user) with
    | some users =>
      .ok { db with users, members := db.members ++ [⟨organizationID, userID, .viewer⟩] }
    | none => .error .conflict

inductive ReplaceError where
  | notFound
  | conflict

def scimReplaceUser (db : Database text) (organizationID userID : String) (user : SCIMUser) :
    Except ReplaceError (Database text) :=
  if db.isMember organizationID userID = false ∨ (db.users.byID userID).isNone then
    .error .notFound
  else
    match db.users.update userID fun row =>
        { row with email := text.normalize user.email, displayName := user.displayName,
                   externalID := text.trim user.externalID,
                   disabledAt := if user.active then none else some db.now } with
    | some users => .ok { db with users }
    | none => .error .conflict

def scimSetActive (db : Database text) (organizationID userID : String) (active : Bool) :
    Option (Database text) :=
  if db.isMember organizationID userID = false ∨ (db.users.byID userID).isNone then none
  else
    (db.users.update userID fun row =>
        { row with disabledAt := if active then none else some db.now }).map fun users =>
      { db with users, sessions := db.sessions.map fun session =>
          if active = false ∧ session.userID = userID then { session with revoked := true }
          else session }

def scimDeactivate (db : Database text) (organizationID userID : String) : Option (Database text) :=
  db.scimSetActive organizationID userID false

def sessionIDs (db : Database text) : List String := db.sessions.map (·.id)

def insertSession (db : Database text) (session : SessionRow) : Option (Database text) :=
  if session.id ∈ db.sessionIDs then none else some (db.createSession session)

def revokeSession (db : Database text) (id userID : String) : Database text :=
  { db with sessions := db.sessions.map fun session =>
      if session.id = id ∧ session.userID = userID then { session with revoked := true }
      else session }

end Database

namespace Directory

structure UserRequest where
  externalID : String
  userName : String
  displayName : String
  active : Option Bool
  emails : List String
  deriving DecidableEq

def checkEmails (text : Text) (email : String) : List String → Except String Unit
  | [] => .ok ()
  | entry :: rest =>
    match normalizeEmail text entry with
    | .error _ => .error "each emails entry must be a valid address"
    | .ok address =>
      if text.equalFold address email = false then
        .error "emails must match userName; an account has one address"
      else checkEmails text email rest

def scimRequestUser (text : Text) (input : UserRequest) (defaultActive : Bool) :
    Except String SCIMUser := do
  let email ← (normalizeEmail text input.userName).mapError fun _ =>
    "userName must be the user's email address"
  if 200 < input.displayName.utf8ByteSize then
    .error "displayName must be at most 200 characters"
  else
    let displayName := text.trim input.displayName
    let displayName := if displayName = "" then email else displayName
    let externalID := text.trim input.externalID
    if 256 < externalID.utf8ByteSize then .error "externalId must be at most 256 characters"
    else
      checkEmails text email input.emails
      return ⟨externalID, email, displayName, input.active.getD defaultActive⟩

inductive PatchValue where
  | bool (value : Bool)
  | text (value : String)
  | null
  | other
  deriving DecidableEq

structure PatchOperation where
  op : String
  path : String
  value : PatchValue
  deriving DecidableEq

def patchString : PatchValue → Option String
  | .text value => some value
  | .null => some ""
  | .bool _ | .other => none

def patchEmail (text : Text) (value : PatchValue) : Except String String :=
  match patchString value with
  | none => .error "the userName attribute takes a string value"
  | some decoded =>
    (normalizeEmail text decoded).mapError fun _ => "userName must be the user's email address"

def patchOperation (text : Text) (patched : SCIMUser) (operation : PatchOperation) :
    Except String SCIMUser :=
  if text.equalFold operation.op "replace" = false then
    .error ("patch operation \"" ++ operation.op ++ "\" is not supported; only \"replace\" is")
  else
    match text.normalize operation.path with
    | "active" =>
      match operation.value with
      | .bool active => .ok { patched with active }
      | .null => .ok patched
      | .text _ | .other => .error "the active attribute takes a boolean value"
    | "displayname" =>
      match patchString operation.value with
      | none => .error "the displayName attribute takes a string value"
      | some displayName =>
        if 200 < displayName.utf8ByteSize then .error "displayName must be at most 200 characters"
        else .ok { patched with displayName }
    | "externalid" =>
      match patchString operation.value with
      | none => .error "the externalId attribute takes a string value"
      | some value =>
        if 256 < (text.trim value).utf8ByteSize then
          .error "externalId must be at most 256 characters"
        else .ok { patched with externalID := text.trim value }
    | "username" =>
      match patchEmail text operation.value with
      | .error message => .error message
      | .ok email => .ok { patched with email }
    | _ => .error ("patch path \"" ++ operation.path ++ "\" is not supported")

def patchOperations (text : Text) (current : SCIMUser) (operations : List PatchOperation) :
    Except String SCIMUser :=
  if operations = [] then .error "at least one patch operation is required"
  else operations.foldlM (patchOperation text) current

inductive Request where
  | create (input : UserRequest) (seated : Bool)
  | put (input : UserRequest)
  | patch (operations : List PatchOperation)
  | delete
  deriving DecidableEq

def Request.seated : Request → Bool
  | .create _ seated => seated
  | .put _ | .patch _ | .delete => true

def Request.wanted (text : Text) (current : SCIMUser) : Request → Except String SCIMUser
  | .create input _ => scimRequestUser text input true
  | .put input => scimRequestUser text input current.active
  | .patch operations => patchOperations text current operations
  | .delete => .ok { current with active := false }

/-- The statement the handler runs next. `confirm` is the read at the end of `SCIMSetActive`;
`stage` deactivates an account that was created as inactive. -/
inductive Point where
  | create (user : SCIMUser)
  | stage
  | read
  | memberships (current next : SCIMUser)
  | revokeFirst (next : SCIMUser)
  | replace (next : SCIMUser)
  | reread (written : SCIMUser)
  | revoke
  | deactivate
  | confirm (next : Point)
  | answered (status : Nat) (detail : String)
  deriving DecidableEq

/-- A POST has the id that it draws for the account. `deactivated` has the sessions that existed
when the handler last made the account inactive; no statement reads it. -/
structure Handler where
  organizationID : String
  userID : String
  request : Request
  point : Point
  deactivated : Option (List String)

def notFound : Point := .answered 404 "the user was not found"

def alreadyExists : Point :=
  .answered 409 "an account with this email or external id already exists"

def seatsExceeded : String :=
  "seat count must cover every organization member; purchase more seats before provisioning users"

def Request.start (text : Text) : Request → Point
  | .create input _ =>
    match scimRequestUser text input true with
    | .error message => .answered 400 message
    | .ok user => .create user
  | .put _ | .patch _ | .delete => .read

def Handler.admitted (h : Handler) (current next : SCIMUser) : Point :=
  match h.request with
  | .delete => .deactivate
  | .create .. | .put _ | .patch _ =>
    if next.active && !current.active then .revokeFirst next else .replace next

/-- `scimGuardSharedAccount` reads the memberships only for an account-wide change; a DELETE of an
inactive account skips it. -/
def Handler.guarded (text : Text) (h : Handler) (current next : SCIMUser) : Point :=
  if h.request = .delete ∧ current.active = false then .deactivate
  else if text.equalFold next.email current.email = true ∧
      next.externalID = current.externalID ∧ next.active = current.active then
    h.admitted current next
  else .memberships current next

def sharedAccount : String :=
  "this account is a member of more than one organization; userName, externalId, and active " ++
    "are account-wide and cannot be changed by one organization's provisioning"

def Handler.failed (h : Handler) : Point :=
  .answered 500 <| match h.point, h.request with
    | .read, _ => "the user could not be read"
    | .memberships .., _ => "the user's memberships could not be read"
    | _, .create .. => "the user could not be created"
    | _, .put _ => "the user could not be replaced"
    | _, .patch _ => "the user could not be patched"
    | _, .delete => "the user could not be deactivated"

def Handler.setInactive (db : Database text) (h : Handler) (next missing : Point) :
    Database text × Handler :=
  match db.scimDeactivate h.organizationID h.userID with
  | some db' => (db', { h with point := .confirm next, deactivated := some db.sessionIDs })
  | none => (db, { h with point := missing })

def Handler.advance (db : Database text) (h : Handler) : Option (Database text × Handler) :=
  match h.point with
  | .create user =>
    match db.scimCreateUser h.organizationID h.userID user h.request.seated with
    | .ok db' =>
      some (db', { h with point := if user.active then .answered 201 "" else .stage })
    | .error .conflict => some (db, { h with point := alreadyExists })
    | .error .seatCeilingExceeded => some (db, { h with point := .answered 402 seatsExceeded })
  | .stage => some (h.setInactive db (.answered 201 "") h.failed)
  | .read =>
    some (db, { h with
      point := match db.scimUserByID h.organizationID h.userID with
        | none => notFound
        | some current =>
          match h.request.wanted text current with
          | .error message => .answered 400 message
          | .ok next => h.guarded text current next })
  | .memberships current next =>
    some (db, { h with
      point := if (db.organizationsOf h.userID).all (· = h.organizationID) then
          h.admitted current next
        else .answered 409 sharedAccount })
  | .revokeFirst next => some (h.setInactive db (.replace next) h.failed)
  | .replace next =>
    match db.scimReplaceUser h.organizationID h.userID next with
    | .ok db' =>
      some (db', { h with
        point := .reread next,
        deactivated := if next.active then h.deactivated else some db.sessionIDs })
    | .error .notFound => some (db, { h with point := notFound })
    | .error .conflict => some (db, { h with point := alreadyExists })
  | .reread _ =>
    some (db, { h with
      point := match db.scimUserByID h.organizationID h.userID with
        | none => notFound
        | some replaced => if replaced.active then .answered 200 "" else .revoke })
  | .revoke => some (h.setInactive db (.answered 200 "") h.failed)
  | .deactivate => some (h.setInactive db (.answered 204 "") notFound)
  | .confirm next =>
    some (db, { h with
      point := match db.scimUserByID h.organizationID h.userID with
        | none => match h.request with
          | .delete => notFound
          | .create .. | .put _ | .patch _ => h.failed
        | some _ => next })
  | .answered _ _ => none

def Handler.succeeded (h : Handler) : Bool :=
  match h.point with
  | .answered 200 _ | .answered 201 _ | .answered 204 _ => true
  | _ => false

structure System (text : Text) where
  db : Database text
  handlers : List Handler

inductive Action where
  | arrive (organizationID userID : String) (request : Request)
  | advance (k : Nat)
  | fail (k : Nat)
  | signIn (session : SessionRow)
  | rotate (refreshHash nextAccessHash nextRefreshHash : String)
      (accessExpires refreshExpires : Nat)
  | logout (id userID : String)
  | join (organizationID userID : String) (role : Role)
  | tick (seconds : Nat)

def System.step (s : System text) : Action → Option (System text)
  | .arrive organizationID userID request =>
    some { s with
      handlers := s.handlers ++ [⟨organizationID, userID, request, request.start text, none⟩] }
  | .advance k => do
    let h ← s.handlers[k]?
    let (db, h') ← h.advance s.db
    return ⟨db, s.handlers.set k h'⟩
  | .fail k => do
    let h ← s.handlers[k]?
    match h.point with
    | .answered _ _ => none
    | _ => some { s with handlers := s.handlers.set k { h with point := h.failed } }
  | .signIn session => (s.db.insertSession session).map ({ s with db := · })
  | .rotate refreshHash nextAccessHash nextRefreshHash accessExpires refreshExpires =>
    some { s with db := (s.db.rotateSession refreshHash nextAccessHash nextRefreshHash
      accessExpires refreshExpires).1 }
  | .logout id userID => some { s with db := s.db.revokeSession id userID }
  | .join organizationID userID role =>
    -- A membership references an account.
    if (s.db.users.byID userID).isSome then
      some { s with db := s.db.addMember organizationID userID role }
    else none
  | .tick seconds => some { s with db := { s.db with now := s.db.now + seconds } }

def initial (db : Database text) : System text := ⟨db, []⟩

end Directory

end Shiftgate.Accounts
