import Mathlib.Data.List.Pairwise
import Mathlib.Tactic

/-! The account tables of the control plane's database (`database/migrations`), with the unique
indexes that every write must respect, and the statements of `internal/database` that the sign-in
paths use. -/

namespace Shiftgate.Accounts

open List

/-- SQL `lower`, `strings.ToLower` after `strings.TrimSpace`, `strings.TrimSpace` and
`strings.EqualFold`. -/
structure Text where
  lower : String → String
  normalize : String → String
  trim : String → String
  equalFold : String → String → Bool

structure UserRow where
  id : String
  email : String
  passwordHash : String
  displayName : String
  disabledAt : Option Nat
  externalID : String
  ssoIssuer : String
  ssoSubject : String
  githubID : Option Nat
  githubLogin : String
  deriving DecidableEq

def UserRow.disabled (row : UserRow) : Bool := row.disabledAt.isSome

structure UserRow.Compatible (text : Text) (a b : UserRow) : Prop where
  id_ne : a.id ≠ b.id
  email_ne : text.lower a.email ≠ text.lower b.email
  link_ne : a.ssoIssuer ≠ "" → ¬ (a.ssoIssuer = b.ssoIssuer ∧ a.ssoSubject = b.ssoSubject)
  github_ne : a.githubID.isSome → a.githubID ≠ b.githubID
  external_ne : a.externalID ≠ "" → a.externalID ≠ b.externalID

instance (text : Text) (a b : UserRow) : Decidable (a.Compatible text b) :=
  decidable_of_iff (a.id ≠ b.id ∧ text.lower a.email ≠ text.lower b.email ∧
      (a.ssoIssuer ≠ "" → ¬ (a.ssoIssuer = b.ssoIssuer ∧ a.ssoSubject = b.ssoSubject)) ∧
      (a.githubID.isSome → a.githubID ≠ b.githubID) ∧
      (a.externalID ≠ "" → a.externalID ≠ b.externalID))
    ⟨fun ⟨h1, h2, h3, h4, h5⟩ => ⟨h1, h2, h3, h4, h5⟩,
      fun ⟨h1, h2, h3, h4, h5⟩ => ⟨h1, h2, h3, h4, h5⟩⟩

theorem UserRow.Compatible.symm {text : Text} {a b : UserRow} (h : a.Compatible text b) :
    b.Compatible text a where
  id_ne := h.id_ne.symm
  email_ne := h.email_ne.symm
  link_ne := fun hb hsame => h.link_ne (hsame.1 ▸ hb) ⟨hsame.1.symm, hsame.2.symm⟩
  github_ne := fun hb hsame => h.github_ne (hsame ▸ hb) hsame.symm
  external_ne := fun hb hsame => h.external_ne (hsame ▸ hb) hsame.symm

instance (text : Text) : Std.Symm (UserRow.Compatible text) := ⟨fun _ _ h => h.symm⟩

structure Users (text : Text) where
  rows : List UserRow
  unique : rows.Pairwise (UserRow.Compatible text)

namespace Users

variable {text : Text}

def write (rows : List UserRow) : Option (Users text) :=
  if h : rows.Pairwise (UserRow.Compatible text) then some ⟨rows, h⟩ else none

def insert (users : Users text) (row : UserRow) : Option (Users text) := write (users.rows ++ [row])

def update (users : Users text) (id : String) (f : UserRow → UserRow) : Option (Users text) :=
  write (users.rows.map fun row => if row.id = id then f row else row)

def byID (users : Users text) (id : String) : Option UserRow := users.rows.find? (·.id = id)

def byEmail (users : Users text) (email : String) : Option UserRow :=
  users.rows.find? fun row => text.lower row.email = text.lower email

def byLink (users : Users text) (issuer subject : String) : Option UserRow :=
  users.rows.find? fun row => row.ssoIssuer = issuer ∧ row.ssoSubject = subject

def byGitHub (users : Users text) (githubID : Nat) : Option UserRow :=
  users.rows.find? (·.githubID = some githubID)

variable {users users' : Users text} {row other : UserRow} {id : String} {f : UserRow → UserRow}

section

variable (ha : row ∈ users.rows) (hb : other ∈ users.rows)

include ha hb

theorem compatible (hne : row ≠ other) : row.Compatible text other :=
  users.unique.forall ha hb hne

theorem eq_of_id (h : row.id = other.id) : row = other := by
  by_contra hne
  exact (compatible ha hb hne).id_ne h

theorem eq_of_link (hissuer : row.ssoIssuer ≠ "")
    (h : row.ssoIssuer = other.ssoIssuer ∧ row.ssoSubject = other.ssoSubject) : row = other := by
  by_contra hne
  exact (compatible ha hb hne).link_ne hissuer h

theorem eq_of_email (h : text.lower row.email = text.lower other.email) : row = other := by
  by_contra hne
  exact (compatible ha hb hne).email_ne h

end

theorem rows_of_write {rows : List UserRow} (h : write rows = some users) : users.rows = rows := by
  unfold write at h
  split_ifs at h
  cases h
  rfl

theorem rows_of_insert (h : users.insert row = some users') : users'.rows = users.rows ++ [row] :=
  rows_of_write h

theorem rows_of_update (h : users.update id f = some users') :
    users'.rows = users.rows.map fun row => if row.id = id then f row else row :=
  rows_of_write h

theorem insert_fresh (h : users.insert row = some users') (hother : other ∈ users.rows) :
    other.id ≠ row.id := by
  have hunique := users'.unique
  rw [rows_of_insert h] at hunique
  exact ((pairwise_append.mp hunique).2.2 other hother row (mem_singleton.mpr rfl)).id_ne

theorem byEmail_some {email : String} (h : users.byEmail email = some row) :
    row ∈ users.rows ∧ text.lower row.email = text.lower email :=
  ⟨mem_of_find?_eq_some h, by simpa using find?_some h⟩

theorem byLink_some {issuer subject : String} (h : users.byLink issuer subject = some row) :
    row ∈ users.rows ∧ row.ssoIssuer = issuer ∧ row.ssoSubject = subject := by
  refine ⟨mem_of_find?_eq_some h, ?_⟩
  simpa using find?_some h

theorem byGitHub_some {githubID : Nat} (h : users.byGitHub githubID = some row) :
    row ∈ users.rows ∧ row.githubID = some githubID :=
  ⟨mem_of_find?_eq_some h, by simpa using find?_some h⟩

theorem byLink_of_mem {issuer subject : String} (h : row ∈ users.rows)
    (hlink : row.ssoIssuer = issuer ∧ row.ssoSubject = subject) (hissuer : issuer ≠ "") :
    users.byLink issuer subject = some row := by
  cases hfound : users.byLink issuer subject with
  | none =>
    have hnone := find?_eq_none.mp hfound row h
    simp [hlink] at hnone
  | some found =>
    obtain ⟨hmem, hi, hs⟩ := byLink_some hfound
    rw [eq_of_link hmem h (hi ▸ hissuer) ⟨hi.trans hlink.1.symm, hs.trans hlink.2.symm⟩]

theorem byEmail_of_mem {email : String} (h : row ∈ users.rows)
    (hemail : text.lower row.email = text.lower email) : users.byEmail email = some row := by
  cases hfound : users.byEmail email with
  | none =>
    have hnone := find?_eq_none.mp hfound row h
    simp [hemail] at hnone
  | some found =>
    obtain ⟨hmem, he⟩ := byEmail_some hfound
    rw [eq_of_email hmem h (he.trans hemail.symm)]

theorem byID_of_mem (h : row ∈ users.rows) : users.byID row.id = some row := by
  cases hfound : users.byID row.id with
  | none =>
    have hnone := find?_eq_none.mp hfound row h
    simp at hnone
  | some found =>
    have hid : found.id = row.id := by simpa using find?_some hfound
    rw [eq_of_id (mem_of_find?_eq_some hfound) h hid]

theorem update_commits (hf : ∀ row : UserRow, (f row).id = row.id ∧ (f row).email = row.email ∧
      (f row).ssoIssuer = row.ssoIssuer ∧ (f row).ssoSubject = row.ssoSubject ∧
      (f row).githubID = row.githubID ∧ (f row).externalID = row.externalID) :
    ∃ users', users.update id f = some users' := by
  have hkept : ∀ row : UserRow, ∃ row' : UserRow, (if row.id = id then f row else row) = row' ∧
      row'.id = row.id ∧ row'.email = row.email ∧ row'.ssoIssuer = row.ssoIssuer ∧
      row'.ssoSubject = row.ssoSubject ∧ row'.githubID = row.githubID ∧
      row'.externalID = row.externalID := by
    intro row
    by_cases h : row.id = id
    · exact ⟨f row, by simp [h], hf row⟩
    · exact ⟨row, by simp [h], rfl, rfl, rfl, rfl, rfl, rfl⟩
  have hunique : (users.rows.map fun row => if row.id = id then f row else row).Pairwise
      (UserRow.Compatible text) := by
    refine pairwise_map.mpr (users.unique.imp fun {a b} h => ?_)
    obtain ⟨a', ha, ha1, ha2, ha3, ha4, ha5, ha6⟩ := hkept a
    obtain ⟨b', hb, hb1, hb2, hb3, hb4, hb5, hb6⟩ := hkept b
    rw [ha, hb]
    constructor
    · rw [ha1, hb1]
      exact h.id_ne
    · rw [ha2, hb2]
      exact h.email_ne
    · rw [ha3, hb3, ha4, hb4]
      exact h.link_ne
    · rw [ha5, hb5]
      exact h.github_ne
    · rw [ha6, hb6]
      exact h.external_ne
  exact ⟨⟨_, hunique⟩, by rw [update, write, dif_pos hunique]⟩

theorem mem_update (h : users.update id f = some users') (hrow : row ∈ users.rows) :
    (if row.id = id then f row else row) ∈ users'.rows := by
  rw [rows_of_update h]
  exact mem_map.mpr ⟨row, hrow, rfl⟩

theorem mem_insert (h : users.insert row = some users') (hother : other ∈ users.rows) :
    other ∈ users'.rows := by
  rw [rows_of_insert h]
  exact mem_append_left _ hother

end Users

inductive Role where
  | viewer
  | operator
  | admin
  | owner
  deriving DecidableEq

def Role.level : Role → Nat
  | .viewer => 1
  | .operator => 2
  | .admin => 3
  | .owner => 4

def Role.allows (role required : Role) : Bool := required.level ≤ role.level

structure Organization where
  id : String
  ssoEnforced : Bool
  ssoEmailDomain : String

structure Member where
  organization : String
  user : String
  role : Role

structure SessionRow where
  id : String
  userID : String
  accessHash : String
  refreshHash : String
  previousRefreshHashes : List String
  accessExpiresAt : Nat
  refreshExpiresAt : Nat
  revoked : Bool
  deriving DecidableEq

structure APIKeyRow where
  id : String
  organizationID : String
  userID : String
  name : String
  secretHash : String
  scopes : List String
  expiresAt : Option Nat
  revoked : Bool

structure Database (text : Text) where
  now : Nat
  users : Users text
  organizations : List Organization
  members : List Member
  sessions : List SessionRow
  apiKeys : List APIKeyRow

namespace Database

variable {text : Text}

def memberRole (db : Database text) (organization user : String) : Option Role :=
  (db.members.find? fun m => m.organization = organization ∧ m.user = user).map (·.role)

def enabled (db : Database text) (user : String) : Bool :=
  (db.users.byID user).any fun row => !row.disabled

def authenticateAccess (db : Database text) (hash : String) : Option SessionRow :=
  db.sessions.find? fun session => session.accessHash = hash ∧ session.revoked = false ∧
    db.now < session.accessExpiresAt ∧ db.enabled session.userID

def authenticateAPIKey (db : Database text) (hash : String) : Option APIKeyRow :=
  db.apiKeys.find? fun key => key.secretHash = hash ∧ key.revoked = false ∧
    key.expiresAt.all (db.now < ·) ∧ db.enabled key.userID

def createSession (db : Database text) (session : SessionRow) : Database text :=
  { db with sessions := db.sessions ++ [session] }

inductive RotateResult where
  | rotated (session : SessionRow)
  | reused
  | invalid

def rotateSession (db : Database text) (refreshHash nextAccessHash nextRefreshHash : String)
    (accessExpires refreshExpires : Nat) : Database text × RotateResult :=
  match db.sessions.find? fun session => session.refreshHash = refreshHash ∧
      session.revoked = false ∧ db.now < session.refreshExpiresAt ∧ db.enabled session.userID with
  | some current =>
    let rotated := { current with
      previousRefreshHashes := (current.refreshHash :: current.previousRefreshHashes).take 5,
      accessHash := nextAccessHash, refreshHash := nextRefreshHash,
      accessExpiresAt := accessExpires,
      refreshExpiresAt := min refreshExpires current.refreshExpiresAt }
    ({ db with sessions := db.sessions.map fun s => if s.id = current.id then rotated else s },
      .rotated rotated)
  | none =>
    match db.sessions.find? fun session => refreshHash ∈ session.previousRefreshHashes with
    | some session =>
      ({ db with sessions := db.sessions.map fun s =>
          if s.id = session.id then { s with revoked := true } else s }, .reused)
    | none => (db, .invalid)

def addMember (db : Database text) (organization user : String) (role : Role) : Database text :=
  { db with members :=
      (db.members.filter fun m => ¬ (m.organization = organization ∧ m.user = user)) ++
        [⟨organization, user, role⟩] }

def createAPIKey (db : Database text) (key : APIKeyRow) : Database text :=
  { db with apiKeys := db.apiKeys ++ [key] }

def revokeAPIKey (db : Database text) (organization id : String) : Option (Database text) :=
  if db.apiKeys.any fun key => key.id = id ∧ key.organizationID = organization ∧
      key.revoked = false then
    some { db with apiKeys := db.apiKeys.map fun key =>
      if key.id = id ∧ key.organizationID = organization then { key with revoked := true }
      else key }
  else none

def register (db : Database text) (userID email passwordHash displayName organizationID : String) :
    Option (Database text) :=
  if organizationID ∈ db.organizations.map (·.id) then none
  else
    (db.users.insert { id := userID, email, passwordHash, displayName, disabledAt := none,
                       externalID := "", ssoIssuer := "", ssoSubject := "", githubID := none,
                       githubLogin := "" }).map fun users =>
      { db with users, organizations := db.organizations ++ [⟨organizationID, false, ""⟩],
                members := db.members ++ [⟨organizationID, userID, .owner⟩] }

end Database

end Shiftgate.Accounts
