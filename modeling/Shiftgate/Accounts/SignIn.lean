import Shiftgate.Accounts.Links

/-! Single sign-on among other ways to get an account (`handleSSOToken` of
`internal/controlplane/sso_routes.go`). `Register` and GitHub federation can commit between any two
of the handler's statements. -/

namespace Shiftgate.Accounts

open Library List Option

variable {text : Text}

structure Provider where
  issuer : String
  configured : issuer ≠ ""

namespace SignIn

structure Claims where
  subject : String
  email : String
  emailVerified : Bool
  name : String

inductive Answer where
  | emailUnverified
  | emailMismatch
  | accountLinkConflict
  | accountDisabled
  | accountAlreadyFederated
  | linkFailed
  | sessionCreateFailed
  | issued (userID : String)
  deriving DecidableEq

/-- The statement the handler runs next. `alreadyLinked` is whether the account carried the asserted
link before; the handler does not read it. -/
inductive Point where
  | lookup
  | enforcement
  | federation
  | session (user : UserRow) (alreadyLinked : Bool)
  | answered (answer : Answer)
  deriving DecidableEq

structure Handler where
  claims : Claims
  point : Point

def Handler.address (text : Text) (h : Handler) : String := text.normalize h.claims.email

structure System (text : Text) where
  db : Database text
  handlers : List Handler

structure Fresh where
  userID : String
  full : String → Bool
  sessionID : String
  accessHash : String
  refreshHash : String
  accessExpiresAt : Nat
  refreshExpiresAt : Nat

inductive Action where
  | arrive (claims : Claims) (stateEmail : String)
  | advance (k : Nat) (fresh : Fresh)
  | fail (k : Nat)
  | register (userID email passwordHash displayName organizationID : String)
  | gitHub (identity : GitHubIdentity) (userID organizationID : String)

def begin (text : Text) (claims : Claims) (stateEmail : String) : Point :=
  if claims.email = "" ∨ claims.emailVerified = false then .answered .emailUnverified
  else if stateEmail ≠ "" ∧ text.equalFold claims.email stateEmail = false then
    .answered .emailMismatch
  else .lookup

def federationAnswer : FederateError → Answer
  | .userDisabled => .accountDisabled
  | .accountLinked => .accountAlreadyFederated
  | _ => .linkFailed

def afterLookup : Option UserRow → Point
  | some existing =>
    if existing.passwordHash ≠ "" ∧ existing.ssoIssuer = "" then .enforcement else .federation
  | none => .federation

def handleSSOToken (p : Provider) (db : Database text) (claims : Claims) (fresh : Fresh) :
    Point → Option (Database text × Point)
  | .lookup => some (db, afterLookup (db.users.byEmail claims.email))
  | .enforcement =>
    some (db,
      if db.ssoEnforcedForEmail claims.email then .federation else .answered .accountLinkConflict)
  | .federation =>
    match db.federateSSOLink p.issuer claims.subject claims.email claims.name fresh.userID
        fresh.full with
    | .ok (user, db') =>
      some (db', .session user ((db.users.byLink p.issuer claims.subject).any (·.id = user.id)))
    | .error e => some (db, .answered (federationAnswer e))
  | .session user _ =>
    some (db.createSession
      { id := fresh.sessionID, userID := user.id, accessHash := fresh.accessHash,
        refreshHash := fresh.refreshHash, previousRefreshHashes := [],
        accessExpiresAt := fresh.accessExpiresAt, refreshExpiresAt := fresh.refreshExpiresAt,
        revoked := false },
      .answered (.issued user.id))
  | .answered _ => none

def failed : Point → Option Point
  | .lookup | .enforcement | .federation => some (.answered .linkFailed)
  | .session .. => some (.answered .sessionCreateFailed)
  | .answered _ => none

def System.step (p : Provider) (s : System text) : Action → Option (System text)
  | .arrive claims stateEmail =>
    some { s with handlers := s.handlers ++ [⟨claims, begin text claims stateEmail⟩] }
  | .advance k fresh => do
    let h ← s.handlers[k]?
    let (db, point) ← handleSSOToken p s.db h.claims fresh h.point
    return ⟨db, s.handlers.set k { h with point }⟩
  | .fail k => do
    let h ← s.handlers[k]?
    let point ← failed h.point
    return { s with handlers := s.handlers.set k { h with point } }
  | .register userID email passwordHash displayName organizationID =>
    (s.db.register userID email passwordHash displayName organizationID).map ({ s with db := · })
  | .gitHub identity userID organizationID =>
    match s.db.federateGitHub identity userID organizationID with
    | .ok (_, db) => some { s with db }
    | .error _ => some s

def initial (db : Database text) : System text := ⟨db, []⟩

end SignIn

def UserRow.enterable (row : UserRow) : Bool := row.passwordHash ≠ "" || row.githubID.isSome

/-- The handler is about to issue a session for an account that has an entrance of its own and was
not linked before, on an assertion that no organization enforces. -/
def SignIn.Handler.takesOver (db : Database text) (h : SignIn.Handler) : Bool :=
  match h.point with
  | .session user false =>
    !db.ssoEnforcedForEmail h.claims.email &&
      db.users.rows.any fun row => row.id = user.id && row.enterable
  | _ => false

structure UserRow.SameAccess (row row' : UserRow) : Prop where
  id_eq : row'.id = row.id
  email_eq : row'.email = row.email
  enterable_eq : row'.enterable = row.enterable
  unlinked : row'.ssoIssuer = "" → row.ssoIssuer = ""

theorem UserRow.SameAccess.refl (row : UserRow) : row.SameAccess row :=
  ⟨rfl, rfl, rfl, fun h => h⟩

namespace Users

structure Keeps (users users' : Users text) (email : String) : Prop where
  forth : ∀ row ∈ users.rows, text.lower row.email = text.lower email →
    ∃ row' ∈ users'.rows, row.SameAccess row'
  back : ∀ row' ∈ users'.rows, text.lower row'.email = text.lower email →
    row'.enterable = false ∨ ∃ row ∈ users.rows, row.SameAccess row'

def HasLink (users : Users text) (issuer subject : String) : Prop :=
  ∃ row ∈ users.rows, row.ssoIssuer = issuer ∧ row.ssoSubject = subject

def Free (users : Users text) (email : String) : Prop :=
  ∀ row ∈ users.rows, text.lower row.email = text.lower email → row.ssoIssuer = "" →
    row.enterable = false

def Bare (users : Users text) (id email : String) : Prop :=
  ∃ row ∈ users.rows, row.id = id ∧ text.lower row.email = text.lower email ∧
    row.enterable = false

variable {users users' : Users text} {email : String} {id : String} {row : UserRow}
  {f : UserRow → UserRow} {issuer subject : String}

theorem Keeps.refl (users : Users text) (email : String) : users.Keeps users email :=
  ⟨fun row h _ => ⟨row, h, .refl row⟩, fun row h _ => .inr ⟨row, h, .refl row⟩⟩

theorem Keeps.insert (h : users.insert row = some users')
    (hrow : text.lower row.email = text.lower email → row.enterable = false) :
    users.Keeps users' email where
  forth other hother _ := ⟨other, mem_insert h hother, .refl other⟩
  back other hother hemail := by
    rw [rows_of_insert h, mem_append, mem_singleton] at hother
    rcases hother with hother | rfl
    · exact .inr ⟨other, hother, .refl other⟩
    · exact .inl (hrow hemail)

theorem Keeps.update (h : users.update id f = some users')
    (hf : ∀ row ∈ users.rows, row.id = id → (f row).email = row.email ∧
      (text.lower row.email = text.lower email → row.SameAccess (f row))) :
    users.Keeps users' email := by
  have hsame : ∀ row ∈ users.rows, text.lower row.email = text.lower email →
      row.SameAccess (if row.id = id then f row else row) := by
    intro row hrow hemail
    split_ifs with hid
    · exact (hf row hrow hid).2 hemail
    · exact .refl row
  constructor
  · exact fun row hrow hemail => ⟨_, mem_update h hrow, hsame row hrow hemail⟩
  · intro row' hrow' hemail
    rw [rows_of_update h, List.mem_map] at hrow'
    obtain ⟨row, hrow, rfl⟩ := hrow'
    refine .inr ⟨row, hrow, hsame row hrow ?_⟩
    split_ifs at hemail with hid
    · rwa [(hf row hrow hid).1] at hemail
    · exact hemail

theorem Free.keep (h : users.Free email) (hk : users.Keeps users' email) : users'.Free email := by
  intro row' hrow' hemail hunlinked
  rcases hk.back row' hrow' hemail with hnone | ⟨row, hrow, hsame⟩
  · exact hnone
  · rw [hsame.enterable_eq]
    exact h row hrow (hsame.email_eq ▸ hemail) (hsame.unlinked hunlinked)

theorem Bare.keep (h : users.Bare id email) (hk : users.Keeps users' email) :
    users'.Bare id email := by
  obtain ⟨row, hrow, hid, hemail, hnone⟩ := h
  obtain ⟨row', hrow', hsame⟩ := hk.forth row hrow hemail
  exact ⟨row', hrow', hsame.id_eq.trans hid, by rw [hsame.email_eq, hemail],
    hsame.enterable_eq.trans hnone⟩

theorem Bare.not_enterable (h : users.Bare id email) (hrow : row ∈ users.rows) (hid : row.id = id) :
    row.enterable = false := by
  obtain ⟨other, hother, hid', -, hnone⟩ := h
  rwa [eq_of_id hrow hother (hid.trans hid'.symm)]

section

variable (h : users.HasLink issuer subject)

include h

theorem HasLink.insert (hw : users.insert row = some users') : users'.HasLink issuer subject := by
  obtain ⟨other, hother, hlink⟩ := h
  exact ⟨other, mem_insert hw hother, hlink⟩

theorem HasLink.update (hw : users.update id f = some users')
    (hf : ∀ row ∈ users.rows, row.id = id → row.ssoIssuer = issuer ∧ row.ssoSubject = subject →
      (f row).ssoIssuer = issuer ∧ (f row).ssoSubject = subject) :
    users'.HasLink issuer subject := by
  obtain ⟨row, hrow, hlink⟩ := h
  refine ⟨_, mem_update hw hrow, ?_⟩
  split_ifs with hid
  · exact hf row hrow hid hlink
  · exact hlink

theorem HasLink.not_none (hissuer : issuer ≠ "") : users.byLink issuer subject ≠ none := by
  obtain ⟨row, hrow, hlink⟩ := h
  rw [byLink_of_mem hrow hlink hissuer]
  simp

end

end Users

open Users

structure Users.Frames (p : Provider) (users users' : Users text) (address : String) : Prop where
  keeps : users.Keeps users' address
  links : ∀ subject, users.HasLink p.issuer subject → users'.HasLink p.issuer subject

section Frames

variable {p : Provider} {users users' : Users text} {address : String}

theorem Users.Frames.refl : users.Frames p users address := ⟨.refl _ _, fun _ h => h⟩

variable {user : UserRow}

theorem SSOOutcome.frames {subject email displayName newID : String}
    (ho : SSOOutcome users p.issuer subject email displayName newID user users') :
    users.Frames p users' address := by
  cases ho with
  | linked _ => exact .refl
  | renamed _ hwrite =>
    exact ⟨.update hwrite fun _ _ _ => ⟨rfl, fun _ => ⟨rfl, rfl, rfl, fun h => h⟩⟩,
      fun _ hlink => hlink.update hwrite fun _ _ _ h => h⟩
  | joined _ hemail hfree hwrite =>
    refine ⟨.update hwrite fun _ _ _ => ⟨rfl, fun _ => ⟨rfl, rfl, rfl, fun hempty => ?_⟩⟩,
      fun subject' hlink => hlink.update hwrite fun row hrow hid hcarries => ?_⟩
    · exact absurd hempty p.configured
    · -- The row that is linked now carried no link or this one.
      obtain rfl := eq_of_id hrow (byEmail_some hemail).1 hid
      obtain ⟨-, hsubject⟩ := hfree (hcarries.1 ▸ p.configured)
      exact ⟨rfl, hsubject.symm.trans hcarries.2⟩
  | created _ _ hwrite =>
    exact ⟨.insert hwrite fun _ => rfl, fun _ hlink => hlink.insert hwrite⟩

theorem GitHubOutcome.frames {identity : GitHubIdentity} {userID : String}
    (ho : GitHubOutcome users identity userID user users')
    (hother : text.lower identity.email ≠ text.lower address) : users.Frames p users' address := by
  cases ho with
  | linked _ => exact .refl
  | @renamed found _ hlink hwrite =>
    exact ⟨.update hwrite fun _ _ _ => ⟨rfl, fun _ => ⟨rfl, rfl, rfl, fun h => h⟩⟩,
      fun _ hlink => hlink.update hwrite fun _ _ _ h => h⟩
  | joined hemail _ hwrite =>
    refine ⟨.update hwrite fun row hrow hid => ⟨rfl, fun haddress => ?_⟩,
      fun _ hlink => hlink.update hwrite fun _ _ _ h => h⟩
    obtain ⟨hmem, hfound⟩ := byEmail_some hemail
    obtain rfl := eq_of_id hrow hmem hid
    exact absurd (hfound.symm.trans haddress) hother
  | created _ hwrite =>
    exact ⟨.insert hwrite fun hemail => absurd hemail hother, fun _ hlink => hlink.insert hwrite⟩

end Frames

namespace Database

variable {db db' : Database text} {userID organizationID : String}

theorem enforced_append {id : String} (email : String)
    (horgs : db'.organizations = db.organizations ++ [⟨id, false, ""⟩]) :
    db'.ssoEnforcedForEmail email = db.ssoEnforcedForEmail email := by
  simp [ssoEnforcedForEmail, horgs, Organization.enforces]

theorem register_enforced {email passwordHash displayName : String}
    (h : db.register userID email passwordHash displayName organizationID = some db') (e : String) :
    db'.ssoEnforcedForEmail e = db.ssoEnforcedForEmail e := by
  unfold register at h
  split_ifs at h
  obtain ⟨users, -, rfl⟩ := map_eq_some_iff.mp h
  exact enforced_append e rfl

theorem register_frames {p : Provider} {email passwordHash displayName address : String}
    (h : db.register userID email passwordHash displayName organizationID = some db')
    (hother : text.lower email ≠ text.lower address) : db.users.Frames p db'.users address := by
  unfold register at h
  split_ifs at h
  obtain ⟨users, hwrite, rfl⟩ := map_eq_some_iff.mp h
  exact ⟨.insert hwrite fun hemail => absurd hemail hother, fun _ hlink => hlink.insert hwrite⟩

theorem federateGitHub_enforced {identity : GitHubIdentity}
    (h : db.federateGitHub identity userID organizationID = .ok (user, db')) (e : String) :
    db'.ssoEnforcedForEmail e = db.ssoEnforcedForEmail e := by
  unfold federateGitHub at h
  split at h
  · cases h
  · split_ifs at h
    · cases h
      exact enforced_append e rfl
    · cases h
      rfl

end Database

open Database

namespace SignIn

def Handler.underWay (h : Handler) : Bool :=
  match h.point with
  | .enforcement | .federation | .session .. => true
  | .lookup | .answered _ => false

def System.Idle (s : System text) (address : String) : Prop :=
  ∀ h ∈ s.handlers, h.underWay = true → s.db.ssoEnforcedForEmail h.claims.email = false →
    text.lower address ≠ text.lower (h.address text)

/-- Nobody gets an entrance to an account that a sign-in under way asserts, the asserted email is
spelled as the federation spells it, and the account found is not a GitHub account yet to be
claimed. -/
def Orderly (p : Provider) (s : System text) : Action → Prop
  | .arrive claims _ => text.lower claims.email = text.lower (text.normalize claims.email)
  | .advance k _ => ∀ h ∈ s.handlers[k]?, h.point = .lookup →
      s.db.ssoEnforcedForEmail h.claims.email = false →
      ∀ row ∈ s.db.users.byEmail h.claims.email, row.ssoIssuer = "" →
        row.githubID = none ∨ (s.db.users.byLink p.issuer h.claims.subject).isSome
  | .fail _ => True
  | .register _ email .. => s.Idle email
  | .gitHub identity .. => s.Idle (text.normalize identity.email)

instance (s : System text) (address : String) : Decidable (s.Idle address) :=
  inferInstanceAs (Decidable (∀ h ∈ s.handlers, h.underWay = true →
    s.db.ssoEnforcedForEmail h.claims.email = false →
      text.lower address ≠ text.lower (h.address text)))

instance (p : Provider) (s : System text) : ∀ a, Decidable (Orderly p s a)
  | .arrive claims _ => inferInstanceAs (Decidable (text.lower claims.email = _))
  | .advance k _ => inferInstanceAs (Decidable (∀ h ∈ s.handlers[k]?, h.point = .lookup →
      s.db.ssoEnforcedForEmail h.claims.email = false →
      ∀ row ∈ s.db.users.byEmail h.claims.email, row.ssoIssuer = "" →
        row.githubID = none ∨ (s.db.users.byLink p.issuer h.claims.subject).isSome))
  | .fail _ => isTrue trivial
  | .register _ email .. => inferInstanceAs (Decidable (s.Idle email))
  | .gitHub identity .. => inferInstanceAs (Decidable (s.Idle (text.normalize identity.email)))

structure Handler.Sound (p : Provider) (users : Users text) (h : Handler) : Prop where
  spelled : text.lower h.claims.email = text.lower (h.address text)
  federation : h.point = .federation →
    users.HasLink p.issuer h.claims.subject ∨ users.Free (h.address text)
  session : ∀ user, h.point = .session user false → users.Bare user.id (h.address text)

def System.Sound (p : Provider) (s : System text) : Prop :=
  ∀ h ∈ s.handlers, s.db.ssoEnforcedForEmail h.claims.email = false → h.Sound p s.db.users

variable {p : Provider} {s t : System text} {h : Handler} {users users' : Users text}
  {db db' : Database text}

theorem Handler.Sound.frame (hs : h.Sound p users) (hf : users.Frames p users' (h.address text)) :
    h.Sound p users' where
  spelled := hs.spelled
  federation hp := (hs.federation hp).imp (hf.links _) (·.keep hf.keeps)
  session user hp := (hs.session user hp).keep hf.keeps

theorem sound_of_not_underWay
    (hspelled : text.lower h.claims.email = text.lower (h.address text))
    (hw : h.underWay = false) : h.Sound p users where
  spelled := hspelled
  federation hp := by simp [Handler.underWay, hp] at hw
  session user hp := by simp [Handler.underWay, hp] at hw

theorem System.Sound.transaction {address : String} (hs : s.Sound p) (hidle : s.Idle address)
    (henforced : ∀ email, db'.ssoEnforcedForEmail email = s.db.ssoEnforcedForEmail email)
    (hframes : ∀ other, text.lower address ≠ text.lower other →
      s.db.users.Frames p db'.users other) : System.Sound p { s with db := db' } := by
  intro h hh hunenforced
  have hu := (henforced _).symm.trans hunenforced
  cases hw : h.underWay with
  | true => exact (hs h hh hu).frame (hframes _ (hidle h hh hw hu))
  | false => exact sound_of_not_underWay (hs h hh hu).spelled hw

variable {claims : Claims}

theorem free_of_afterLookup
    (hspelled : text.lower claims.email = text.lower (text.normalize claims.email))
    (hpoint : afterLookup (users.byEmail claims.email) = .federation)
    (hcond : ∀ row ∈ users.byEmail claims.email, row.ssoIssuer = "" →
      row.githubID = none ∨ (users.byLink p.issuer claims.subject).isSome) :
    users.HasLink p.issuer claims.subject ∨ users.Free (text.normalize claims.email) := by
  by_cases hlink : (users.byLink p.issuer claims.subject).isSome
  · obtain ⟨row, hrow⟩ := isSome_iff_exists.mp hlink
    exact .inl ⟨row, byLink_some hrow⟩
  · refine .inr fun row hrow hemail hunlinked => ?_
    have hfound := byEmail_of_mem hrow (hemail.trans hspelled.symm)
    have hnone := (hcond row hfound hunlinked).resolve_right hlink
    have hpassword : row.passwordHash = "" := by
      by_contra hne
      rw [hfound, afterLookup, if_pos ⟨hne, hunlinked⟩] at hpoint
      cases hpoint
    simp [UserRow.enterable, hnone, hpassword]

theorem bare_of_federation {newID : String}
    (ho : SSOOutcome users p.issuer claims.subject (text.normalize claims.email) claims.name newID
      user users')
    (hfree : users.HasLink p.issuer claims.subject ∨ users.Free (text.normalize claims.email))
    (hnew : (users.byLink p.issuer claims.subject).any (·.id = user.id) = false) :
    users'.Bare user.id (text.normalize claims.email) := by
  cases ho with
  | linked hlink | renamed hlink =>
    rw [hlink] at hnew
    simp at hnew
  | @joined found _ hlink hemail hown hwrite =>
    have hfree := hfree.resolve_left fun h => h.not_none p.configured hlink
    obtain ⟨hmem, hsame⟩ := byEmail_some hemail
    have hunlinked : found.ssoIssuer = "" := by
      by_contra hne
      exact Users.HasLink.not_none ⟨found, hmem, hown hne⟩ p.configured hlink
    refine ⟨{ found with ssoIssuer := p.issuer, ssoSubject := claims.subject }, ?_, rfl, hsame,
      hfree found hmem hsame hunlinked⟩
    simpa using mem_update hwrite hmem
  | created hlink hemail hwrite =>
    refine ⟨freshSSORow (text.normalize claims.email) claims.name newID, ?_, rfl, rfl, rfl⟩
    rw [rows_of_insert hwrite]
    simp

theorem handleSSOToken_frames {fresh : Fresh} {point point' : Point}
    (hstep : handleSSOToken p db claims fresh point = some (db', point')) :
    (∀ address, db.users.Frames p db'.users address) ∧
      ∀ email, db'.ssoEnforcedForEmail email = db.ssoEnforcedForEmail email := by
  cases point with
  | lookup | enforcement | session =>
    cases hstep
    exact ⟨fun _ => .refl, fun _ => rfl⟩
  | federation =>
    simp only [handleSSOToken] at hstep
    split at hstep
    · rename_i user db'' hok
      cases hstep
      obtain ⟨ho, -, horgs, -⟩ := federateSSOLink_ok hok
      exact ⟨fun _ => ho.frames, fun _ => by simp only [ssoEnforcedForEmail, horgs]⟩
    · cases hstep
      exact ⟨fun _ => .refl, fun _ => rfl⟩
  | answered answer => cases hstep

theorem handleSSOToken_sound {fresh : Fresh} {point : Point}
    (hstep : handleSSOToken p db h.claims fresh h.point = some (db', point))
    (hs : h.Sound p db.users) (hu : db.ssoEnforcedForEmail h.claims.email = false)
    (hcond : h.point = .lookup → ∀ row ∈ db.users.byEmail h.claims.email, row.ssoIssuer = "" →
      row.githubID = none ∨ (db.users.byLink p.issuer h.claims.subject).isSome) :
    Handler.Sound p db'.users { h with point } := by
  cases hp : h.point with
  | lookup =>
    rw [hp] at hstep
    cases hstep
    refine ⟨hs.spelled, fun hpoint => ?_, fun user hpoint => ?_⟩
    · exact free_of_afterLookup hs.spelled hpoint (hcond hp)
    · simp only [afterLookup] at hpoint
      split at hpoint
      · split_ifs at hpoint
      · cases hpoint
  | enforcement =>
    rw [hp] at hstep
    cases hstep
    refine ⟨hs.spelled, ?_, ?_⟩ <;> simp [hu]
  | federation =>
    rw [hp] at hstep
    simp only [handleSSOToken] at hstep
    split at hstep
    · rename_i user db'' hok
      cases hstep
      refine ⟨hs.spelled, by simp, fun user' hpoint => ?_⟩
      injection hpoint with huser hnew
      subst huser
      exact bare_of_federation (federateSSOLink_ok hok).1 (hs.federation hp) hnew
    · cases hstep
      exact ⟨hs.spelled, by simp, by simp⟩
  | session user alreadyLinked =>
    rw [hp] at hstep
    cases hstep
    exact ⟨hs.spelled, by simp, by simp⟩
  | answered answer =>
    rw [hp] at hstep
    cases hstep

theorem step_sound {a : Action} (hs : s.Sound p) (hcond : Orderly p s a)
    (hstep : s.step p a = some t) : t.Sound p := by
  cases a with
  | arrive claims stateEmail =>
    cases hstep
    intro h hh hunenforced
    rcases mem_append.mp hh with hold | hnew
    · exact hs h hold hunenforced
    · rw [mem_singleton.mp hnew]
      refine sound_of_not_underWay hcond ?_
      simp only [Handler.underWay, begin]
      split_ifs <;> rfl
  | advance k fresh =>
    simp only [System.step, bind_eq_bind, bind_eq_some_iff] at hstep
    obtain ⟨h, hk, ⟨db', point⟩, hnext, hstep⟩ := hstep
    cases hstep
    obtain ⟨hframes, henforced⟩ := handleSSOToken_frames hnext
    intro other hother hunenforced
    have hu := (henforced _).symm.trans hunenforced
    rcases mem_or_eq_of_mem_set hother with hold | rfl
    · exact (hs other hold hu).frame (hframes _)
    · exact handleSSOToken_sound hnext (hs h (mem_of_getElem? hk) hu) hu
        fun hp => hcond h hk hp hu
  | fail k =>
    simp only [System.step, bind_eq_bind, bind_eq_some_iff] at hstep
    obtain ⟨h, hk, point, hfailed, hstep⟩ := hstep
    cases hstep
    intro other hother hunenforced
    rcases mem_or_eq_of_mem_set hother with hold | rfl
    · exact hs other hold hunenforced
    · refine sound_of_not_underWay (hs h (mem_of_getElem? hk) hunenforced).spelled ?_
      unfold failed at hfailed
      split at hfailed <;> cases hfailed <;> rfl
  | register userID email passwordHash displayName organizationID =>
    obtain ⟨db', hregister, rfl⟩ := map_eq_some_iff.mp hstep
    exact hs.transaction hcond (register_enforced hregister)
      fun _ hother => register_frames hregister hother
  | gitHub identity userID organizationID =>
    simp only [System.step] at hstep
    split at hstep
    · rename_i user db' hok
      cases hstep
      exact hs.transaction hcond (federateGitHub_enforced hok)
        fun _ hother => (federateGitHub_ok hok).1.frames hother
    · cases hstep
      exact hs

theorem Handler.Sound.keeps_out (hs : h.Sound p db.users)
    (hu : db.ssoEnforcedForEmail h.claims.email = false) : h.takesOver db = false := by
  unfold takesOver
  split
  · rename_i user hp
    simp only [hu, Bool.not_false, Bool.true_and, List.any_eq_false, Bool.and_eq_true,
      decide_eq_true_eq, not_and, Bool.not_eq_true]
    exact fun row hrow hid => (hs.session user hp).not_enterable hrow hid
  · rfl

/-- In a run whose steps meet the condition no unenforced assertion gets a session for an account
that can be entered otherwise and was not linked before. -/
theorem unenforced_assertion_claims_nothing {run : List Action}
    (hmeets : Meets (System.step p) (Orderly p) (initial db) run)
    (hrun : exec (System.step p) (initial db) run = some s) :
    ∀ h ∈ s.handlers, h.takesOver s.db = false := by
  have hsound : s.Sound p :=
    exec_invariant (System.Sound p) (fun _ _ _ hs hcond hstep => step_sound hs hcond hstep)
      (fun h hh => absurd hh (not_mem_nil)) hmeets hrun
  intro h hh
  cases hu : s.db.ssoEnforcedForEmail h.claims.email with
  | false => exact (hsound h hh hu).keeps_out hu
  | true =>
    unfold Handler.takesOver
    split
    · simp [hu]
    · rfl

def sampleProvider : Provider := ⟨"issuer", by decide⟩

def sampleFresh : Fresh := ⟨"new", noneFull, "session", "access", "refresh", 10, 20⟩

def asserted : Action := .arrive ⟨"s", "a@x", true, "A"⟩ "a@x"

def next : Action := .advance 0 sampleFresh

def registered (userID email : String) : Action :=
  .register userID email "hash" "A" (userID ++ "-organization")

def gitHubLogin (userID email : String) : Action :=
  .gitHub ⟨7, "a", email, "A"⟩ userID (userID ++ "-organization")

def Handler.issuing (h : Handler) : Bool :=
  match h.point with
  | .session .. => true
  | _ => false

def undisturbed : List Action :=
  [asserted, next, registered "u" "b@x", next, gitHubLogin "v" "c@x"]

theorem undisturbed_claims_nothing : ∃ s : System plainText,
    Meets (System.step sampleProvider) (Orderly sampleProvider) (initial emptyDatabase)
      undisturbed ∧
    exec (System.step sampleProvider) (initial emptyDatabase) undisturbed = some s ∧
    s.handlers.any Handler.issuing = true ∧ ∀ h ∈ s.handlers, h.takesOver s.db = false := by
  have hmeets : Meets (System.step sampleProvider) (Orderly sampleProvider)
      (initial emptyDatabase) undisturbed := by decide
  exact exists_and_left.mpr ⟨hmeets, exists_some_and (by decide) fun _ hs _ =>
    unenforced_assertion_claims_nothing hmeets hs⟩

def trimmingText : Text :=
  { plainText with normalize := fun e => String.ofList (e.toList.dropWhile (· = ' ')) }

def TakenOver (text : Text) (run : List Action) : Prop :=
  ∃ s : System text,
    exec (System.step sampleProvider) (initial ⟨0, ⟨[], .nil⟩, [], [], [], []⟩) run = some s ∧
      ∃ h ∈ s.handlers, h.takesOver s.db = true

/-- An account is taken over when its owner registers, or links GitHub, after the lookup; when it is
a GitHub account without a password; and when the email is spelled otherwise. -/
theorem asserted_accounts_taken_over :
    TakenOver plainText [asserted, next, registered "u" "a@x", next] ∧
    TakenOver plainText [gitHubLogin "u" "a@x", asserted, next, next] ∧
    TakenOver plainText [asserted, next, next, gitHubLogin "u" "a@x"] ∧
    TakenOver trimmingText
      [registered "u" "a@x", .arrive ⟨"s", " a@x", true, "A"⟩ "", next, next] := by
  unfold TakenOver
  decide

end SignIn

end Shiftgate.Accounts
